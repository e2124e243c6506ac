/-
Texts as code points and as UTF-16 code units, and their UTF-8 bytes.
-/
import Mathlib.Data.List.Basic

namespace AiTeam.Unicode

/-- Code points or code units, as numbers. -/
abbrev Text := List Nat

abbrev Bytes := List UInt8

/-- A literal of the source. -/
def lit (s : String) : Text := s.toList.map Char.toNat

def isHigh (u : Nat) : Bool := 0xD800 ≤ u && u < 0xDC00

def isLow (u : Nat) : Bool := 0xDC00 ≤ u && u < 0xE000

def isSurrogate (u : Nat) : Bool := isHigh u || isLow u

/-- A Unicode scalar value. -/
def isScalar (c : Nat) : Bool := c < 0x110000 && !isSurrogate c

/-- A code point that one code unit stands for. -/
def isPlain (c : Nat) : Bool := c < 0x10000 && !isSurrogate c

/-- `a <= b`, element by element. -/
def textLe : Text → Text → Bool
  | [], _ => true
  | _ :: _, [] => false
  | a :: as, b :: bs => a < b || (a == b && textLe as bs)

theorem textLe_refl (text : Text) : textLe text text = true := by
  induction text with
  | nil => rfl
  | cons c rest ih => rw [textLe, ih, Bool.and_true, BEq.rfl, Bool.or_true]

/-! ### UTF-16 -/

def codeUnits (c : Nat) : Text :=
  if c < 0x10000 then [c]
  else [0xD800 + (c - 0x10000) / 0x400, 0xDC00 + (c - 0x10000) % 0x400]

/-- The code units of a text given by its code points. -/
def utf16 (text : Text) : Text := text.flatMap codeUnits

/-- The code points of code units; a surrogate without its half stays. -/
def points : Text → Text
  | [] => []
  | [u] => [u]
  | u :: v :: rest =>
      if isHigh u && isLow v then
        (0x10000 + (u - 0xD800) * 0x400 + (v - 0xDC00)) :: points rest
      else u :: points (v :: rest)

@[simp] theorem utf16_nil : utf16 [] = [] := rfl

@[simp] theorem utf16_cons (c : Nat) (text : Text) :
    utf16 (c :: text) = codeUnits c ++ utf16 text := rfl

@[simp] theorem utf16_append (a b : Text) :
    utf16 (a ++ b) = utf16 a ++ utf16 b := List.flatMap_append

theorem utf16_flatMap (f : Nat → Text) (text : Text) :
    utf16 (text.flatMap f) = text.flatMap fun c => utf16 (f c) :=
  List.flatMap_assoc

variable {c n : Nat} {text : Text}

theorem codeUnits_plain (h : isPlain c = true) : codeUnits c = [c] := by
  rw [isPlain, Bool.and_eq_true, decide_eq_true_eq] at h
  rw [codeUnits, if_pos h.1]

/-- One code unit for each code point. -/
theorem utf16_plain (h : ∀ c ∈ text, isPlain c = true) : utf16 text = text := by
  induction text with
  | nil => rfl
  | cons c rest ih =>
      rw [utf16_cons, codeUnits_plain (h c List.mem_cons_self),
        ih fun d hd => h d (List.mem_cons_of_mem c hd), List.singleton_append]

theorem points_cons {u : Nat} (rest : Text) (h : isHigh u = false) :
    points (u :: rest) = u :: points rest := by
  cases rest with
  | nil => rfl
  | cons v rest => rw [points, h, Bool.false_and, if_neg Bool.false_ne_true]

theorem not_isHigh_of_plain (h : isPlain c = true) : isHigh c = false := by
  rw [isPlain, isSurrogate] at h
  cases hhigh : isHigh c with
  | false => rfl
  | true => simp [hhigh] at h

theorem points_plain (h : ∀ c ∈ text, isPlain c = true) :
    points text = text := by
  induction text with
  | nil => rfl
  | cons c rest ih =>
      rw [points_cons rest (not_isHigh_of_plain (h c List.mem_cons_self)),
        ih fun d hd => h d (List.mem_cons_of_mem c hd)]

/-- No two units were joined where the code points are plain. -/
theorem points_of_plain (h : ∀ c ∈ points text, isPlain c = true) :
    points text = text := by
  induction text using points.induct with
  | case1 => rfl
  | case2 u => rfl
  | case3 u v rest hpair ih =>
      rw [points, if_pos hpair] at h
      have hjoined := h _ List.mem_cons_self
      rw [isPlain, Bool.and_eq_true, decide_eq_true_eq] at hjoined
      omega
  | case4 u v rest hpair ih =>
      rw [points, if_neg hpair] at h ⊢
      rw [ih fun c hc => h c (List.mem_cons_of_mem u hc)]

theorem points_eq_iff {plain : Text} (h : ∀ c ∈ plain, isPlain c = true) :
    points text = plain ↔ text = plain := by
  constructor
  · intro heq
    have hplain : ∀ c ∈ points text, isPlain c = true := by rwa [heq]
    rw [← points_of_plain hplain, heq]
  · rintro rfl
    exact points_plain h

/-- The two units of a code point beyond the first plane join again. -/
theorem points_pair (rest : Text) (hlow : 0x10000 ≤ c) (hbound : c < 0x110000) :
    points (codeUnits c ++ rest) = c :: points rest := by
  rw [codeUnits, if_neg (by omega)]
  have hhigh : isHigh (0xD800 + (c - 0x10000) / 0x400) = true := by
    rw [isHigh, Bool.and_eq_true, decide_eq_true_eq, decide_eq_true_eq]
    omega
  have hlow' : isLow (0xDC00 + (c - 0x10000) % 0x400) = true := by
    rw [isLow, Bool.and_eq_true, decide_eq_true_eq, decide_eq_true_eq]
    omega
  have hjoin : 0x10000 + (0xD800 + (c - 0x10000) / 0x400 - 0xD800) * 0x400 +
      (0xDC00 + (c - 0x10000) % 0x400 - 0xDC00) = c := by
    omega
  rw [List.cons_append, List.cons_append, List.nil_append, points, hhigh,
    hlow', Bool.and_true, if_pos rfl, hjoin]

theorem points_codeUnits (rest : Text) (h : isScalar c = true) :
    points (codeUnits c ++ rest) = c :: points rest := by
  rw [isScalar, Bool.and_eq_true, decide_eq_true_eq] at h
  by_cases hplane : c < 0x10000
  · have hplain : isPlain c = true := by
      rw [isPlain, Bool.and_eq_true, decide_eq_true_eq]
      exact ⟨hplane, h.2⟩
    rw [codeUnits_plain hplain, List.singleton_append,
      points_cons rest (not_isHigh_of_plain hplain)]
  · exact points_pair rest (Nat.le_of_not_lt hplane) h.1

/-- Reading the code units of scalar values gives them back. -/
theorem points_utf16 (h : ∀ c ∈ text, isScalar c = true) :
    points (utf16 text) = text := by
  induction text with
  | nil => rfl
  | cons c rest ih =>
      rw [utf16_cons, points_codeUnits _ (h c List.mem_cons_self),
        ih fun d hd => h d (List.mem_cons_of_mem c hd)]

/-! ### UTF-8 -/

def utf8Char (c : Nat) : Bytes :=
  if c < 0x80 then [c.toUInt8]
  else if c < 0x800 then
    [(0xC0 + c / 0x40).toUInt8, (0x80 + c % 0x40).toUInt8]
  else if c < 0x10000 then
    [(0xE0 + c / 0x1000).toUInt8, (0x80 + c / 0x40 % 0x40).toUInt8,
      (0x80 + c % 0x40).toUInt8]
  else
    [(0xF0 + c / 0x40000).toUInt8, (0x80 + c / 0x1000 % 0x40).toUInt8,
      (0x80 + c / 0x40 % 0x40).toUInt8, (0x80 + c % 0x40).toUInt8]

def utf8 (text : Text) : Bytes := text.flatMap utf8Char

/-- `str.encode("utf-8")`: a surrogate has no bytes. -/
def encode (text : Text) : Option Bytes :=
  if text.all isScalar then some (utf8 text) else none

/-- A code point as UTF-8 writes it, U+FFFD for a surrogate. -/
def replaced (c : Nat) : Nat := if isScalar c then c else 0xFFFD

/-- `Buffer.from(text, "utf8")`. -/
def bufferFrom (text : Text) : Bytes := utf8 ((points text).map replaced)

theorem encode_eq_some {bytes : Bytes} :
    encode text = some bytes ↔
      (∀ c ∈ text, isScalar c = true) ∧ bytes = utf8 text := by
  rw [encode]
  by_cases h : text.all isScalar
  · rw [if_pos h, Option.some_inj]
    exact ⟨fun heq => ⟨List.all_eq_true.mp h, heq.symm⟩, fun heq => heq.2.symm⟩
  · rw [if_neg h]
    constructor
    · intro heq
      cases heq
    · rintro ⟨hall, -⟩
      exact absurd (List.all_eq_true.mpr hall) h

theorem replaced_scalar (h : isScalar c = true) : replaced c = c := by
  rw [replaced, if_pos h]

theorem map_replaced (h : ∀ c ∈ text, isScalar c = true) :
    text.map replaced = text := by
  conv_rhs => rw [← List.map_id text]
  exact List.map_congr_left fun c hc => replaced_scalar (h c hc)

/-- The two languages write the same bytes for Unicode text. -/
theorem bufferFrom_utf16 (h : ∀ c ∈ text, isScalar c = true) :
    bufferFrom (utf16 text) = utf8 text := by
  rw [bufferFrom, points_utf16 h, map_replaced h]

theorem bufferFrom_of_points (h : ∀ c ∈ points text, isScalar c = true) :
    bufferFrom text = utf8 (points text) := by
  rw [bufferFrom, map_replaced h]

/-! ### UTF-8 read back -/

/-- A code point whose first bytes are read: its value so far, the number of
bytes it still needs and the range of the next one. -/
structure Pending where
  value : Nat
  needed : Nat
  low : Nat
  high : Nat

/-- What a byte is where a code point may start: one of its own, the start of
a longer one, or nothing. -/
def lead (b : Nat) : Text × Option Pending :=
  if b < 0x80 then ([b], none)
  else if 0xC2 ≤ b ∧ b < 0xE0 then ([], some ⟨b - 0xC0, 1, 0x80, 0xBF⟩)
  else if 0xE0 ≤ b ∧ b < 0xF0 then
    -- no longer form of a shorter one, and no surrogate
    ([], some ⟨b - 0xE0, 2, if b = 0xE0 then 0xA0 else 0x80,
      if b = 0xED then 0x9F else 0xBF⟩)
  else if 0xF0 ≤ b ∧ b < 0xF5 then
    -- nothing beyond U+10FFFF
    ([], some ⟨b - 0xF0, 3, if b = 0xF0 then 0x90 else 0x80,
      if b = 0xF4 then 0x8F else 0xBF⟩)
  else ([0xFFFD], none)

/-- The decoder: a start that does not go on is U+FFFD, and the byte that broke
it off is read anew. -/
def decodeFrom : Option Pending → Bytes → Text
  | none, [] => []
  | some _, [] => [0xFFFD]
  | none, b :: rest => (lead b.toNat).1 ++ decodeFrom (lead b.toNat).2 rest
  | some pending, b :: rest =>
      if pending.low ≤ b.toNat ∧ b.toNat ≤ pending.high then
        let value := pending.value * 0x40 + (b.toNat - 0x80)
        if pending.needed = 1 then value :: decodeFrom none rest
        else decodeFrom (some ⟨value, pending.needed - 1, 0x80, 0xBF⟩) rest
      else 0xFFFD :: ((lead b.toNat).1 ++ decodeFrom (lead b.toNat).2 rest)

def decodeUtf8 (bytes : Bytes) : Text := decodeFrom none bytes

theorem toNat_toUInt8 (h : n < 0x100) : n.toUInt8.toNat = n := by
  change n % 256 = n
  exact Nat.mod_eq_of_lt h

section

variable {n value low high : Nat} (rest : Bytes)

/-- A byte that goes on, with more to come. -/
theorem decodeFrom_next {needed : Nat} (hbyte : n < 0x100) (hlow : low ≤ n)
    (hhigh : n ≤ high) :
    decodeFrom (some ⟨value, needed + 2, low, high⟩) (n.toUInt8 :: rest) =
      decodeFrom (some ⟨value * 0x40 + (n - 0x80), needed + 1, 0x80, 0xBF⟩)
        rest := by
  rw [decodeFrom, toNat_toUInt8 hbyte, if_pos ⟨hlow, hhigh⟩]
  rfl

/-- A byte that ends a code point. -/
theorem decodeFrom_end (hbyte : n < 0x100) (hlow : low ≤ n)
    (hhigh : n ≤ high) :
    decodeFrom (some ⟨value, 1, low, high⟩) (n.toUInt8 :: rest) =
      (value * 0x40 + (n - 0x80)) :: decodeFrom none rest := by
  rw [decodeFrom, toNat_toUInt8 hbyte, if_pos ⟨hlow, hhigh⟩]
  rfl

theorem decodeFrom_lead (hbyte : n < 0x100) :
    decodeFrom none (n.toUInt8 :: rest) =
      (lead n).1 ++ decodeFrom (lead n).2 rest := by
  rw [decodeFrom, toNat_toUInt8 hbyte]

end

theorem lead_two (hlow : 2 ≤ n) (hhigh : n < 0x20) :
    lead (0xC0 + n) = ([], some ⟨n, 1, 0x80, 0xBF⟩) := by
  rw [lead, if_neg (by omega), if_pos (by omega), Nat.add_sub_cancel_left]

theorem lead_three (hhigh : n < 0x10) :
    lead (0xE0 + n) = ([], some ⟨n, 2, if n = 0 then 0xA0 else 0x80,
      if n = 0xD then 0x9F else 0xBF⟩) := by
  have hzero : (0xE0 + n = 0xE0) = (n = 0) := by
    apply propext
    omega
  have hlast : (0xE0 + n = 0xED) = (n = 0xD) := by
    apply propext
    omega
  rw [lead, if_neg (by omega), if_neg (by omega), if_pos (by omega),
    Nat.add_sub_cancel_left]
  simp only [hzero, hlast]

theorem lead_four (hhigh : n < 5) :
    lead (0xF0 + n) = ([], some ⟨n, 3, if n = 0 then 0x90 else 0x80,
      if n = 4 then 0x8F else 0xBF⟩) := by
  have hzero : (0xF0 + n = 0xF0) = (n = 0) := by
    apply propext
    omega
  have hlast : (0xF0 + n = 0xF4) = (n = 4) := by
    apply propext
    omega
  rw [lead, if_neg (by omega), if_neg (by omega), if_neg (by omega),
    if_pos (by omega), Nat.add_sub_cancel_left]
  simp only [hzero, hlast]

theorem decodeFrom_two (rest : Bytes) (hlow : 0x80 ≤ c) (hhigh : c < 0x800) :
    decodeFrom none ((0xC0 + c / 0x40).toUInt8 ::
      (0x80 + c % 0x40).toUInt8 :: rest) = c :: decodeFrom none rest := by
  have hvalue : c / 0x40 * 0x40 + (0x80 + c % 0x40 - 0x80) = c := by
    omega
  rw [decodeFrom_lead _ (by omega), lead_two (by omega) (by omega),
    List.nil_append, decodeFrom_end rest (by omega) (by omega) (by omega),
    hvalue]

theorem decodeFrom_three (rest : Bytes) (hlow : 0x800 ≤ c)
    (hhigh : c < 0x10000) (hsurrogate : ¬ (0xD800 ≤ c ∧ c < 0xE000)) :
    decodeFrom none ((0xE0 + c / 0x1000).toUInt8 ::
      (0x80 + c / 0x40 % 0x40).toUInt8 :: (0x80 + c % 0x40).toUInt8 ::
        rest) = c :: decodeFrom none rest := by
  have hvalue : (c / 0x1000 * 0x40 + (0x80 + c / 0x40 % 0x40 - 0x80)) * 0x40 +
      (0x80 + c % 0x40 - 0x80) = c := by
    omega
  rw [decodeFrom_lead _ (by omega), lead_three (by omega), List.nil_append,
    decodeFrom_next _ (by omega) (by split <;> omega) (by split <;> omega),
    decodeFrom_end rest (by omega) (by omega) (by omega), hvalue]

theorem decodeFrom_four (rest : Bytes) (hlow : 0x10000 ≤ c)
    (hhigh : c < 0x110000) :
    decodeFrom none ((0xF0 + c / 0x40000).toUInt8 ::
      (0x80 + c / 0x1000 % 0x40).toUInt8 :: (0x80 + c / 0x40 % 0x40).toUInt8 ::
        (0x80 + c % 0x40).toUInt8 :: rest) = c :: decodeFrom none rest := by
  have hvalue : ((c / 0x40000 * 0x40 + (0x80 + c / 0x1000 % 0x40 - 0x80)) *
      0x40 + (0x80 + c / 0x40 % 0x40 - 0x80)) * 0x40 +
      (0x80 + c % 0x40 - 0x80) = c := by
    omega
  rw [decodeFrom_lead _ (by omega), lead_four (by omega), List.nil_append,
    decodeFrom_next _ (by omega) (by split <;> omega) (by split <;> omega),
    decodeFrom_next _ (by omega) (by omega) (by omega),
    decodeFrom_end rest (by omega) (by omega) (by omega), hvalue]

theorem decodeFrom_char (h : isScalar c = true) (rest : Bytes) :
    decodeFrom none (utf8Char c ++ rest) = c :: decodeFrom none rest := by
  have hscalar : c < 0x110000 ∧ ¬ (0xD800 ≤ c ∧ c < 0xE000) := by
    simp only [isScalar, isSurrogate, isHigh, isLow, Bool.and_eq_true,
      Bool.not_eq_true', Bool.or_eq_false_iff, Bool.and_eq_false_iff,
      decide_eq_true_eq, decide_eq_false_iff_not] at h
    omega
  obtain ⟨hbound, hsurrogate⟩ := hscalar
  rw [utf8Char]
  by_cases hone : c < 0x80
  · rw [if_pos hone, List.singleton_append, decodeFrom_lead rest (by omega),
      lead, if_pos hone]
    rfl
  rw [if_neg hone]
  by_cases htwo : c < 0x800
  · rw [if_pos htwo]
    exact decodeFrom_two rest (Nat.le_of_not_lt hone) htwo
  rw [if_neg htwo]
  by_cases hthree : c < 0x10000
  · rw [if_pos hthree]
    exact decodeFrom_three rest (Nat.le_of_not_lt htwo) hthree hsurrogate
  · rw [if_neg hthree]
    exact decodeFrom_four rest (Nat.le_of_not_lt hthree) hbound

/-- The bytes of scalar values read back. -/
theorem decodeUtf8_utf8 (h : ∀ c ∈ text, isScalar c = true) :
    decodeUtf8 (utf8 text) = text := by
  induction text with
  | nil => rfl
  | cons c rest ih =>
      change decodeFrom none (utf8Char c ++ utf8 rest) = c :: rest
      rw [decodeFrom_char (h c List.mem_cons_self)]
      exact congrArg (c :: ·) (ih fun d hd => h d (List.mem_cons_of_mem c hd))

theorem points_lt (h : ∀ u ∈ text, u < 0x10000) :
    ∀ c ∈ points text, c < 0x110000 := by
  induction text using points.induct with
  | case1 => exact fun c hc => (nomatch hc)
  | case2 u =>
      intro c hc
      rw [points] at hc
      have hu := h c hc
      omega
  | case3 u v rest hpair ih =>
      intro c hc
      rw [points, if_pos hpair, List.mem_cons] at hc
      rcases hc with hc | hc
      · simp only [isHigh, isLow, Bool.and_eq_true, decide_eq_true_eq] at hpair
        omega
      · exact ih (fun w hw => h w (List.mem_cons_of_mem _
          (List.mem_cons_of_mem _ hw))) c hc
  | case4 u v rest hpair ih =>
      intro c hc
      rw [points, if_neg hpair, List.mem_cons] at hc
      rcases hc with rfl | hc
      · have hu := h c List.mem_cons_self
        omega
      · exact ih (fun w hw => h w (List.mem_cons_of_mem _ hw)) c hc

/-- Code units joined to code points and written again. -/
theorem utf16_points (h : ∀ u ∈ text, u < 0x10000) :
    utf16 (points text) = text := by
  induction text using points.induct with
  | case1 => rfl
  | case2 u =>
      have hu := h u List.mem_cons_self
      rw [points, utf16_cons, codeUnits, if_pos hu]
      rfl
  | case3 u v rest hpair ih =>
      have hrest := ih fun c hc => h c (by simp [hc])
      simp only [isHigh, isLow, Bool.and_eq_true, decide_eq_true_eq] at hpair
      have hhigh : 0xD800 + (0x10000 + (u - 0xD800) * 0x400 + (v - 0xDC00) -
          0x10000) / 0x400 = u := by
        omega
      have hlow : 0xDC00 + (0x10000 + (u - 0xD800) * 0x400 + (v - 0xDC00) -
          0x10000) % 0x400 = v := by
        omega
      rw [points, if_pos (by simp [isHigh, isLow, hpair]), utf16_cons, hrest,
        codeUnits, if_neg (by omega), hhigh, hlow]
      rfl
  | case4 u v rest hpair ih =>
      have hu := h u List.mem_cons_self
      rw [points, if_neg hpair, utf16_cons, codeUnits, if_pos hu,
        ih fun c hc => h c (List.mem_cons_of_mem u hc),
        List.singleton_append]

end AiTeam.Unicode
