/-
`resetTranscript`: the newest part of a conversation that fits a budget of code
units and a budget of JSON bytes.  Every cut it passes over is compared with
what the bisection asks.
-/
import Mathlib.Algebra.GroupWithZero.Nat
import AiTeam.Bisection
import AiTeam.EventSse.Secrets
import AiTeam.JsonText

namespace AiTeam.ContextReset

open Bisection (bisect bisect_cases asked)
open EventSse (isSpace)
open JsonText (shortEscape unicodeEscape escapeUnits quoteUnits)
open Unicode (Text lit points utf16 utf8 utf8Char bufferFrom codeUnits isHigh
  isLow isSurrogate isScalar isPlain)

/-! ### Messages -/

/-- A string by its code units. -/
structure Units where
  units : Text
  small : ∀ u ∈ units, u < 0x10000

inductive Role where
  | user
  | assistant
  | other
deriving DecidableEq

/-- A text, or parts of which some are texts. -/
inductive Content where
  | string (text : Units)
  | parts (parts : List (Option Units))

structure Message where
  role : Role
  content : Content

def trim (text : Text) : Text :=
  ((text.dropWhile isSpace).reverse.dropWhile isSpace).reverse

def join (separator : Text) (texts : List Text) : Text :=
  separator.intercalate texts

def Content.text : Content → Text
  | .string text => text.units
  | .parts list => join (lit "\n") (list.filterMap fun part =>
      part.map Units.units)

/-- The line of a message, if it says something. -/
def line (message : Message) : Option Text :=
  let text := if message.role = .other then [] else message.content.text
  let trimmed := trim text
  if trimmed = [] then none
  else some (lit (if message.role = .user then "用户: " else "Agent: ") ++ trimmed)

def body (messages : List Message) : Text :=
  join (lit "\n\n") (messages.filterMap line)

/-! ### The cut -/

structure Budget where
  chars : Nat
  bytes : Nat

/-- `MAX_CONTEXT_RESET_TRANSCRIPT_CHARS` and
`MAX_CONTEXT_RESET_TRANSCRIPT_BYTES`. -/
def Budget.default : Budget := ⟨100000, 200 * 1024⟩

/-- `CONTEXT_RESET_TRANSCRIPT_HEADER` and an empty line. -/
def heading : Text :=
  lit "以下是用户主动开启新上下文前的对话记录，请提取值得长期记住的事实、偏好和决定。\n\n"

/-- The size of the string in a request body. -/
def jsonUtf8Bytes (text : Text) : Nat := (bufferFrom (quoteUnits text)).length

def Budget.holds (budget : Budget) (content : Text) : Bool :=
  content.length ≤ budget.chars && jsonUtf8Bytes content ≤ budget.bytes

/-- What is left of the transcript after a cut. -/
def after (body : Text) (start : Nat) : Text := heading ++ body.drop start

def fits (budget : Budget) (body : Text) (start : Nat) : Bool :=
  budget.holds (after body start)

/-- The content, and whether it was truncated. -/
def resetTranscript (budget : Budget) (messages : List Message) : Text × Bool :=
  let body := body messages
  if body = [] then ([], false)
  else if fits budget body 0 then (heading ++ body, false)
  else
    let low := bisect (fits budget body) body.length 1 body.length
    let start := if body[low]?.any isLow then low + 1 else low
    (after body start, true)

/-- The cut is in the middle of a surrogate pair. -/
def inside (body : Text) : Nat → Bool
  | 0 => false
  | cut + 1 => body[cut]?.any isHigh && body[cut + 1]?.any isLow

/-- The content fits, does not start inside a surrogate pair, and no longer one
does both. -/
def IsReset (budget : Budget) (body content : Text) : Prop :=
  ∃ start ≤ body.length, content = after body start ∧
    budget.holds content = true ∧ inside body start = false ∧
    ∀ cut < start, inside body cut = false →
      budget.holds (after body cut) = false

/-! ### The size of a string -/

/-- What `JSON.stringify` writes for a code point. -/
def escapeText (c : Nat) : Text :=
  (shortEscape c).getD
    (if c < 0x20 || isSurrogate c then unicodeEscape c else [c])

def weight (c : Nat) : Nat := (utf8 (escapeText c)).length

def size (text : Text) : Nat := ((points text).map weight).sum

variable {c u : Nat} {budget : Budget}

theorem escapeText_scalar (h : c < 0x110000) :
    ∀ d ∈ escapeText c, isScalar d = true := by
  intro d hd
  rw [escapeText] at hd
  cases hshort : shortEscape c with
  | some text =>
      rw [hshort, Option.getD_some] at hd
      exact JsonText.scalar_of_plain (JsonText.shortEscape_plain hshort d hd)
  | none =>
      rw [hshort, Option.getD_none] at hd
      split at hd
      · exact JsonText.scalar_of_plain (JsonText.unicodeEscape_plain c d hd)
      · rename_i hplain
        simp only [Bool.or_eq_true, decide_eq_true_eq, not_or,
          Bool.not_eq_true] at hplain
        rw [List.mem_singleton.mp hd, isScalar, hplain.2]
        simpa using h

theorem escapeUnits_eq (c : Nat) : escapeUnits c = utf16 (escapeText c) := by
  rw [escapeUnits, escapeText]
  cases hshort : shortEscape c with
  | some text =>
      exact (Unicode.utf16_plain (JsonText.shortEscape_plain hshort)).symm
  | none =>
      rw [Option.getD_none, Option.getD_none]
      split
      · exact (Unicode.utf16_plain (JsonText.unicodeEscape_plain c)).symm
      · exact (List.append_nil _).symm

theorem utf8_append (a b : Text) : utf8 (a ++ b) = utf8 a ++ utf8 b :=
  List.flatMap_append

/-- The quotes, and what every code point is written with. -/
theorem jsonUtf8Bytes_eq {text : Text} (h : ∀ u ∈ text, u < 0x10000) :
    jsonUtf8Bytes text = size text + 2 := by
  have hwritten : quoteUnits text =
      utf16 (lit "\"" ++ (points text).flatMap escapeText ++ lit "\"") := by
    have hmark : utf16 (lit "\"") = lit "\"" := by decide
    rw [quoteUnits, Unicode.utf16_append, Unicode.utf16_append, hmark,
      Unicode.utf16_flatMap]
    congr 2
    exact List.flatMap_congr fun c _ => escapeUnits_eq c
  have hscalar : ∀ c ∈ lit "\"" ++ (points text).flatMap escapeText ++ lit "\"",
      isScalar c = true := by
    intro c hc
    rw [List.mem_append, List.mem_append, List.mem_flatMap] at hc
    rcases hc with (hc | ⟨d, hd, hc⟩) | hc
    · revert c
      decide
    · exact escapeText_scalar (Unicode.points_lt h d hd) c hc
    · revert c
      decide
  have hquote : (utf8 (lit "\"")).length = 1 := by decide
  have hbody : (utf8 ((points text).flatMap escapeText)).length = size text := by
    rw [utf8, List.flatMap_assoc, List.length_flatMap]
    rfl
  rw [jsonUtf8Bytes, hwritten, Unicode.bufferFrom_utf16 hscalar, utf8_append,
    utf8_append, List.length_append, List.length_append, hquote, hbody]
  omega

/-! ### The size of a suffix -/

theorem shortEscape_none (h : 0x5D ≤ c) : shortEscape c = none := by
  rw [shortEscape]
  simp only [show c ≠ 0x22 by omega, show c ≠ 0x5C by omega,
    show c ≠ 0x08 by omega, show c ≠ 0x09 by omega, show c ≠ 0x0A by omega,
    show c ≠ 0x0C by omega, show c ≠ 0x0D by omega, if_false]

theorem weight_low {v : Nat} (h : isLow v = true) : weight v = 6 := by
  have hbounds := h
  rw [isLow, Bool.and_eq_true, decide_eq_true_eq, decide_eq_true_eq] at hbounds
  have hplain : ∀ d ∈ unicodeEscape v, (utf8Char d).length = 1 := by
    intro d hd
    have hd' : d < 0x80 := by
      rw [unicodeEscape, List.mem_append] at hd
      rcases hd with hd | hd
      · revert d
        decide
      · simp only [List.mem_cons, List.not_mem_nil, or_false] at hd
        rcases hd with rfl | rfl | rfl | rfl <;>
          exact JsonText.hexDigit_lt (Nat.mod_lt _ (by decide))
    rw [utf8Char, if_pos hd']
    rfl
  rw [weight, escapeText, shortEscape_none (by omega), isSurrogate, h,
    Bool.or_true, Bool.or_true, if_pos rfl, Option.getD_none, utf8,
    List.length_flatMap, List.map_congr_left hplain]
  rfl

theorem weight_pair (h : 0x10000 ≤ c) : weight c = 4 := by
  have hsurrogate : isSurrogate c = false := by
    rw [isSurrogate, isHigh, isLow, Bool.or_eq_false_iff,
      Bool.and_eq_false_iff, Bool.and_eq_false_iff, decide_eq_false_iff_not,
      decide_eq_false_iff_not, decide_eq_false_iff_not, decide_eq_false_iff_not]
    omega
  rw [weight, escapeText, shortEscape_none (by omega), hsurrogate,
    Bool.or_false, decide_eq_false (by omega), if_neg Bool.false_ne_true,
    Option.getD_none, utf8, List.flatMap_singleton, utf8Char,
    if_neg (by omega), if_neg (by omega), if_neg (by omega)]
  rfl

theorem size_cons {rest : Text}
    (h : (isHigh u && rest.head?.any isLow) = false) :
    size (u :: rest) = weight u + size rest := by
  have hpoints : points (u :: rest) = u :: points rest := by
    cases rest with
    | nil => rfl
    | cons v rest =>
        rw [points, if_neg]
        rw [List.head?_cons, Option.any_some] at h
        rw [h]
        exact Bool.false_ne_true
  rw [size, hpoints, List.map_cons, List.sum_cons, size]

theorem size_pair {v : Nat} {rest : Text} (hu : isHigh u = true)
    (hv : isLow v = true) : size (u :: v :: rest) = 4 + size rest ∧
      size (v :: rest) = 6 + size rest := by
  have hhigh : isHigh v = false := by
    rw [isLow, Bool.and_eq_true, decide_eq_true_eq] at hv
    rw [isHigh, Bool.and_eq_false_iff, decide_eq_false_iff_not,
      decide_eq_false_iff_not]
    omega
  constructor
  · rw [size, points, hu, hv, Bool.and_true, if_pos rfl, List.map_cons,
      List.sum_cons, weight_pair (by omega), size]
  · rw [size_cons (by rw [hhigh]; rfl), weight_low hv]

theorem points_append {plain text : Text}
    (h : ∀ c ∈ plain, isPlain c = true) :
    points (plain ++ text) = plain ++ points text := by
  induction plain with
  | nil => rfl
  | cons c rest ih =>
      have hhigh := Unicode.not_isHigh_of_plain (h c List.mem_cons_self)
      rw [List.cons_append, Unicode.points_cons _ hhigh,
        ih fun d hd => h d (List.mem_cons_of_mem c hd)]
      rfl

/-- What a cut leaves, in bytes. -/
def measure (body : Text) (cut : Nat) : Nat := size (body.drop cut)

variable {body : Text} {cut : Nat}

theorem measure_next (hlt : cut < body.length)
    (h : inside body (cut + 1) = false) :
    measure body cut = weight body[cut] + measure body (cut + 1) := by
  rw [measure, List.drop_eq_getElem_cons hlt, size_cons, measure]
  rw [inside, List.getElem?_eq_getElem hlt, Option.any_some] at h
  rw [List.head?_drop]
  exact h

theorem inside_pair (h : inside body (cut + 1) = true) :
    ∃ (hlt : cut + 1 < body.length), isHigh body[cut] = true ∧
      isLow body[cut + 1] = true := by
  rw [inside, Bool.and_eq_true] at h
  obtain ⟨u, hu, hhigh⟩ := (Option.any_eq_true _ _).mp h.1
  obtain ⟨v, hv, hlow⟩ := (Option.any_eq_true _ _).mp h.2
  obtain ⟨hlt, hv⟩ := List.getElem?_eq_some_iff.mp hv
  obtain ⟨_, hu⟩ := List.getElem?_eq_some_iff.mp hu
  exact ⟨hlt, hu ▸ hhigh, hv ▸ hlow⟩

theorem measure_pair (h : inside body (cut + 1) = true) :
    measure body cut = 4 + measure body (cut + 2) ∧
      measure body (cut + 1) = 6 + measure body (cut + 2) := by
  obtain ⟨hlt, hhigh, hlow⟩ := inside_pair h
  rw [measure, measure, measure, List.drop_eq_getElem_cons (by omega),
    List.drop_eq_getElem_cons hlt]
  exact size_pair hhigh hlow

/-- The middle of a pair is followed by no other. -/
theorem inside_next (h : inside body (cut + 1) = true) :
    inside body (cut + 2) = false := by
  obtain ⟨hlt, -, hlow⟩ := inside_pair h
  have hhigh : isHigh body[cut + 1] = false := by
    rw [isLow, Bool.and_eq_true, decide_eq_true_eq] at hlow
    rw [isHigh, Bool.and_eq_false_iff, decide_eq_false_iff_not,
      decide_eq_false_iff_not]
    omega
  rw [inside, List.getElem?_eq_getElem hlt, Option.any_some, hhigh]
  rfl

/-- Later cuts leave less, up to two bytes in the middle of a pair. -/
theorem measure_later {later : Nat} (hle : cut ≤ later)
    (hlater : later ≤ body.length) :
    measure body later ≤
      measure body cut + if inside body later then 2 else 0 := by
  induction later, hle using Nat.le_induction with
  | base => exact Nat.le_add_right _ _
  | succ k _ ih =>
      have hk := ih (by omega)
      cases hnext : inside body (k + 1) with
      | true =>
          obtain ⟨k', rfl⟩ | hzero : (∃ k', k = k' + 1) ∨ k = 0 := by
            cases k with
            | zero => exact .inr rfl
            | succ k' => exact .inl ⟨k', rfl⟩
          · cases hinside : inside body (k' + 1) with
            | true =>
                rw [inside_next hinside] at hnext
                exact nomatch hnext
            | false =>
                rw [hinside] at hk
                obtain ⟨hpair, hmiddle⟩ := measure_pair hnext
                rw [if_neg Bool.false_ne_true] at hk
                rw [if_pos rfl]
                omega
          · subst hzero
            obtain ⟨hpair, hmiddle⟩ := measure_pair hnext
            rw [inside, if_neg Bool.false_ne_true] at hk
            rw [if_pos rfl]
            omega
      | false =>
          have hstep := measure_next (by omega) hnext
          rw [if_neg Bool.false_ne_true]
          cases hinside : inside body k with
          | false =>
              rw [hinside, if_neg Bool.false_ne_true] at hk
              omega
          | true =>
              cases k with
              | zero => exact nomatch hinside
              | succ k' =>
                  obtain ⟨hlt, -, hlow⟩ := inside_pair hinside
                  rw [hinside, if_pos rfl] at hk
                  rw [weight_low hlow] at hstep
                  omega

/-! ### What fits -/

theorem heading_plain : heading ≠ [] ∧ ∀ c ∈ heading, isPlain c = true := by
  decide +kernel

theorem holds_after (budget : Budget) (hsmall : ∀ u ∈ body, u < 0x10000)
    (cut : Nat) :
    fits budget body cut = true ↔
      heading.length + (body.length - cut) ≤ budget.chars ∧
        size heading + measure body cut + 2 ≤ budget.bytes := by
  have hplain := heading_plain.2
  have hpoints : points (heading ++ body.drop cut) =
      heading ++ points (body.drop cut) := points_append hplain
  have hunits : ∀ u ∈ heading ++ body.drop cut, u < 0x10000 := by
    intro u hu
    rcases List.mem_append.mp hu with hu | hu
    · have hplane := hplain u hu
      rw [isPlain, Bool.and_eq_true, decide_eq_true_eq] at hplane
      exact hplane.1
    · exact hsmall u (List.mem_of_mem_drop hu)
  have hsize : size (heading ++ body.drop cut) =
      size heading + measure body cut := by
    rw [size, hpoints, List.map_append, List.sum_append, size,
      Unicode.points_plain hplain, measure, size]
  rw [fits, Budget.holds, Bool.and_eq_true, decide_eq_true_eq,
    decide_eq_true_eq, after, jsonUtf8Bytes_eq hunits, hsize,
    List.length_append, List.length_drop]

section Fits

variable {budget : Budget} (hsmall : ∀ u ∈ body, u < 0x10000)

include hsmall

theorem fits_end (h : fits budget body cut = true) :
    fits budget body body.length = true := by
  rw [holds_after budget hsmall] at h ⊢
  have hend : measure body body.length = 0 := by
    rw [measure, List.drop_length]
    rfl
  omega

theorem fits_after_middle (hinside : inside body (cut + 1) = true)
    (h : fits budget body (cut + 1) = true) :
    fits budget body (cut + 2) = true := by
  rw [holds_after budget hsmall] at h ⊢
  have hpair := (measure_pair hinside).2
  omega

/-- Whatever fits still fits after a later cut, but for the middle of a pair. -/
theorem fits_later (h : fits budget body cut = true) {later : Nat}
    (hle : cut ≤ later) (hlater : later ≤ body.length)
    (hinside : inside body later = false) : fits budget body later = true := by
  rw [holds_after budget hsmall] at h ⊢
  have hmeasure := measure_later hle hlater
  rw [hinside, if_neg Bool.false_ne_true] at hmeasure
  omega

end Fits

/-! ### The cut that is found -/

theorem bisect_le {passes : Nat → Bool} (rounds : Nat) : ∀ {low high : Nat},
    low ≤ high → bisect passes rounds low high ≤ high := by
  induction rounds with
  | zero => exact fun h => h
  | succ rounds ih =>
      intro low high h
      rw [bisect]
      by_cases hlt : low < high
      · rw [if_pos hlt]
        dsimp only
        split
        · have hrest := @ih low ((low + high) / 2) (by omega)
          omega
        · exact ih (by omega)
      · rw [if_neg hlt]
        exact h

theorem isReset_after (hle : cut ≤ body.length) :
    IsReset budget body (after body cut) ↔
      fits budget body cut = true ∧ inside body cut = false ∧
        ∀ other < cut, inside body other = false →
          fits budget body other = false := by
  constructor
  · rintro ⟨start, hstart, hcontent, hfits, hinside, hlongest⟩
    have hlength := congrArg List.length hcontent
    rw [after, after, List.length_append, List.length_append,
      List.length_drop, List.length_drop] at hlength
    obtain rfl : cut = start := by omega
    exact ⟨hfits, hinside, hlongest⟩
  · rintro ⟨hfits, hinside, hlongest⟩
    exact ⟨cut, hle, rfl, hfits, hinside, hlongest⟩

/-- The first cut that fits is found, and no unit after it is dropped: every
middle of a pair that the search for it asks about fits too, and it does not
stand before a low surrogate without its half. -/
structure Undisturbed (budget : Budget) (body : Text) (cut : Nat) : Prop where
  pos : 1 ≤ cut
  le : cut ≤ body.length
  fits : fits budget body cut = true
  first : ∀ k, 1 ≤ k → k < cut → ContextReset.fits budget body k = false
  asked : ∀ q ∈ asked cut body.length 1 body.length, cut ≤ q →
    inside body q = true → ContextReset.fits budget body q = true
  paired : body[cut]?.any isLow = true → inside body cut = true

theorem Undisturbed.unique {cut other : Nat} (h : Undisturbed budget body cut)
    (hpos : 1 ≤ other) (hfits : ContextReset.fits budget body other = true)
    (hfirst : ∀ k, 1 ≤ k → k < other →
      ContextReset.fits budget body k = false) : cut = other := by
  rcases Nat.lt_trichotomy cut other with hlt | heq | hlt
  · exact absurd ((hfirst cut h.pos hlt).symm.trans h.fits) Bool.false_ne_true
  · exact heq
  · exact absurd ((h.first other hpos hlt).symm.trans hfits) Bool.false_ne_true

theorem not_inside (h : body[cut]?.any isLow = false) :
    inside body cut = false := by
  cases cut with
  | zero => rfl
  | succ k => rw [inside, h, Bool.and_false]

section Found

variable {budget : Budget} (hsmall : ∀ u ∈ body, u < 0x10000)
  (hwhole : fits budget body 0 = false) (hpos : 1 ≤ cut)
  (hle : cut ≤ body.length) (hfits : fits budget body cut = true)
  (hfirst : ∀ k, 1 ≤ k → k < cut → fits budget body k = false)

include hwhole hfirst in
theorem before_first {other : Nat} (h : other < cut) :
    fits budget body other = false := by
  rcases Nat.eq_zero_or_pos other with rfl | hother
  · exact hwhole
  · exact hfirst other hother h

include hsmall hwhole hpos hle hfits hfirst in
/-- The search that found the first fitting cut. -/
theorem isReset_found :
    IsReset budget body
        (after body (if body[cut]?.any isLow then cut + 1 else cut)) ↔
      (body[cut]?.any isLow = true → inside body cut = true) := by
  have hbefore : ∀ other < cut, fits budget body other = false :=
    fun other => before_first hwhole hfirst
  cases hlow : body[cut]?.any isLow with
  | false =>
      rw [if_neg Bool.false_ne_true, isReset_after hle]
      apply iff_of_true
      · exact ⟨hfits, not_inside hlow, fun other hother _ => hbefore other hother⟩
      · exact fun h => absurd h Bool.false_ne_true
  | true =>
      have hlt : cut < body.length := by
        by_contra hover
        rw [List.getElem?_eq_none (Nat.le_of_not_lt hover)] at hlow
        exact nomatch hlow
      rw [if_pos rfl, isReset_after hlt]
      constructor
      · rintro ⟨-, -, hlongest⟩ _
        cases hinside : inside body cut with
        | true => rfl
        | false =>
            have hnone := hlongest cut (Nat.lt_succ_self cut) hinside
            exact absurd (hnone.symm.trans hfits) Bool.false_ne_true
      · intro h
        obtain ⟨k, rfl⟩ : ∃ k, cut = k + 1 := ⟨cut - 1, by omega⟩
        have hinside := h rfl
        refine ⟨fits_after_middle hsmall hinside hfits, inside_next hinside, ?_⟩
        intro other hother hclear
        rcases Nat.lt_succ_iff_lt_or_eq.mp hother with hearlier | rfl
        · exact hbefore other hearlier
        · exact absurd (hclear.symm.trans hinside) Bool.false_ne_true

include hsmall hpos hfits in
/-- A search that ended behind a later cut lost the first one. -/
theorem not_isReset_behind {start : Nat} (hstart : start ≤ body.length)
    (hbehind : cut + 1 < start) : ¬ IsReset budget body (after body start) := by
  intro h
  obtain ⟨-, -, hlongest⟩ := (isReset_after hstart).mp h
  cases hinside : inside body cut with
  | false =>
      have hnone := hlongest cut (by omega) hinside
      exact absurd (hnone.symm.trans hfits) Bool.false_ne_true
  | true =>
      obtain ⟨k, rfl⟩ : ∃ k, cut = k + 1 := ⟨cut - 1, by omega⟩
      have hnone := hlongest (k + 2) hbehind (inside_next hinside)
      exact absurd (hnone.symm.trans (fits_after_middle hsmall hinside hfits))
        Bool.false_ne_true

end Found

/-- Where the transcript does not fit whole, the search decides. -/
theorem found_longest (hsmall : ∀ u ∈ body, u < 0x10000)
    (hpos : 1 ≤ body.length) (hwhole : fits budget body 0 = false) :
    IsReset budget body (after body
        (if body[bisect (fits budget body) body.length 1
            body.length]?.any isLow then
          bisect (fits budget body) body.length 1 body.length + 1
        else bisect (fits budget body) body.length 1 body.length)) ↔
      ∃ cut, Undisturbed budget body cut := by
  have hlow : bisect (fits budget body) body.length 1 body.length ≤
      body.length := bisect_le body.length hpos
  have hstart : (if body[bisect (fits budget body) body.length 1
        body.length]?.any isLow then
      bisect (fits budget body) body.length 1 body.length + 1
      else bisect (fits budget body) body.length 1 body.length) ≤
      body.length := by
    split
    · rename_i hend
      obtain ⟨v, hv, -⟩ := (Option.any_eq_true _ _).mp hend
      exact (List.getElem?_eq_some_iff.mp hv).1
    · exact hlow
  by_cases hexists : ∃ k, 1 ≤ k ∧ k ≤ body.length ∧ fits budget body k = true
  · obtain ⟨hcut, hle, hfits⟩ := Nat.find_spec hexists
    have hfirst : ∀ k, 1 ≤ k → k < Nat.find hexists →
        fits budget body k = false := by
      intro k hk hlt
      have hnot := Nat.find_min hexists hlt
      cases hk' : fits budget body k with
      | false => rfl
      | true => exact absurd ⟨hk, by omega, hk'⟩ hnot
    generalize Nat.find hexists = cut at hcut hle hfits hfirst
    rcases bisect_cases body.length (by omega) hcut hle hfirst with
      ⟨hfound, hasked⟩ | ⟨q, hq, hafter, hfails, hbehind⟩
    · rw [hfound, isReset_found hsmall hwhole hcut hle hfits hfirst]
      constructor
      · intro hpaired
        exact ⟨cut, hcut, hle, hfits, hfirst, fun q hq hlate _ => hasked q hq hlate,
          hpaired⟩
      · rintro ⟨other, hother⟩
        obtain rfl := hother.unique hcut hfits hfirst
        exact hother.paired
    · have hne : cut ≠ q := by
        rintro rfl
        exact absurd (hfails.symm.trans hfits) Bool.false_ne_true
      apply iff_of_false
      · apply not_isReset_behind hsmall hcut hfits hstart
        split <;> omega
      · rintro ⟨other, hother⟩
        obtain rfl := hother.unique hcut hfits hfirst
        have hinside : inside body q = true := by
          cases hclear : inside body q with
          | true => rfl
          | false =>
              have hlater := fits_later hsmall hfits hafter (by omega) hclear
              exact absurd (hfails.symm.trans hlater) Bool.false_ne_true
        have hpasses := hother.asked q hq hafter hinside
        exact absurd (hfails.symm.trans hpasses) Bool.false_ne_true
  · apply iff_of_false
    · intro h
      have hfits := ((isReset_after hstart).mp h).1
      exact hexists ⟨body.length, hpos, Nat.le_refl _, fits_end hsmall hfits⟩
    · rintro ⟨other, hother⟩
      exact hexists ⟨other, hother.pos, hother.le, hother.fits⟩

theorem join_small {separator : Text} {texts : List Text}
    (hseparator : ∀ u ∈ separator, u < 0x10000)
    (h : ∀ text ∈ texts, ∀ u ∈ text, u < 0x10000) :
    ∀ u ∈ join separator texts, u < 0x10000 := by
  induction texts with
  | nil => exact fun u hu => (nomatch hu)
  | cons text rest ih =>
      rw [List.forall_mem_cons] at h
      cases rest with
      | nil =>
          rw [join, List.intercalate_singleton]
          exact h.1
      | cons next rest =>
          intro u hu
          rw [join, List.intercalate_cons_cons, List.mem_append,
            List.mem_append] at hu
          rcases hu with (hu | hu) | hu
          · exact h.1 u hu
          · exact hseparator u hu
          · exact ih h.2 u hu

theorem mem_trim {text : Text} (h : u ∈ trim text) : u ∈ text := by
  rw [trim, List.mem_reverse] at h
  have hfront := (List.dropWhile_sublist isSpace).subset h
  rw [List.mem_reverse] at hfront
  exact (List.dropWhile_sublist isSpace).subset hfront

theorem Content.text_small (content : Content) :
    ∀ u ∈ content.text, u < 0x10000 := by
  cases content with
  | string text => exact text.small
  | parts list =>
      apply join_small (by decide)
      intro text htext
      obtain ⟨part, -, hpart⟩ := List.mem_filterMap.mp htext
      obtain ⟨units, -, rfl⟩ := Option.map_eq_some_iff.mp hpart
      exact units.small

theorem line_small {message : Message} {text : Text}
    (h : line message = some text) : ∀ u ∈ text, u < 0x10000 := by
  have hsmall : ∀ u ∈ if message.role = .other then [] else message.content.text,
      u < 0x10000 := by
    split
    · exact fun u hu => (nomatch hu)
    · exact message.content.text_small
  rw [line] at h
  generalize (if message.role = .other then []
    else message.content.text) = said at h hsmall
  split at h
  · exact nomatch h
  · obtain rfl := Option.some.inj h
    have hname : ∀ u ∈ lit (if message.role = .user then "用户: " else "Agent: "),
        u < 0x10000 := by
      split <;> decide
    intro u hu
    rcases List.mem_append.mp hu with hu | hu
    · exact hname u hu
    · exact hsmall u (mem_trim hu)

theorem body_small (messages : List Message) :
    ∀ u ∈ ContextReset.body messages, u < 0x10000 := by
  apply join_small (by decide)
  intro text htext
  obtain ⟨message, -, hline⟩ := List.mem_filterMap.mp htext
  exact line_small hline

/-- The content is a longest one exactly when the transcript is not empty and
fits whole, or its first fitting cut is found undisturbed. -/
theorem resetTranscript_longest (budget : Budget) (messages : List Message) :
    IsReset budget (ContextReset.body messages)
        (resetTranscript budget messages).1 ↔
      ContextReset.body messages ≠ [] ∧
        (fits budget (ContextReset.body messages) 0 = true ∨
          ∃ cut, Undisturbed budget (ContextReset.body messages) cut) := by
  have hsmall := body_small messages
  rw [resetTranscript]
  generalize ContextReset.body messages = body at hsmall
  dsimp only
  by_cases hempty : body = []
  · rw [if_pos hempty]
    apply iff_of_false
    · rintro ⟨start, -, hcontent, -⟩
      exact heading_plain.1 (List.append_eq_nil_iff.mp hcontent.symm).1
    · exact fun h => h.1 hempty
  rw [if_neg hempty]
  have hpos : 1 ≤ body.length := List.length_pos_iff.mpr hempty
  cases hwhole : fits budget body 0 with
  | true =>
      rw [if_pos rfl]
      apply iff_of_true
      · exact (isReset_after (Nat.zero_le _)).mpr
          ⟨hwhole, rfl, fun other hother => absurd hother (Nat.not_lt_zero _)⟩
      · exact ⟨hempty, .inl rfl⟩
  | false =>
      rw [if_neg Bool.false_ne_true]
      simp only [ne_eq, hempty, not_false_eq_true, true_and, false_or,
        Bool.false_eq_true]
      exact found_longest hsmall hpos hwhole

namespace FaceWitness

/-- One face, of two units and four bytes. -/
def face : Message := ⟨.user, .string ⟨[0xD83D, 0xDE00], by decide⟩⟩

/-- Room for the heading and four bytes. -/
def tight : Budget := ⟨100000, 127⟩

end FaceWitness

open FaceWitness in
/-- The search asks about the middle of the face, where the lone half takes six
bytes, and drops the whole face. -/
theorem resetTranscript_face :
    ¬ IsReset tight (ContextReset.body [face])
      (resetTranscript tight [face]).1 := by
  obtain ⟨hcut, hinside, hfits⟩ : (resetTranscript tight [face]).1 =
        after (ContextReset.body [face]) 6 ∧
      inside (ContextReset.body [face]) 4 = false ∧
      fits tight (ContextReset.body [face]) 4 = true := by decide +kernel
  rw [hcut, isReset_after (by decide)]
  rintro ⟨-, -, hlongest⟩
  have hother := hlongest 4 (by decide) hinside
  exact Bool.false_ne_true (hother.symm.trans hfits)

end AiTeam.ContextReset
