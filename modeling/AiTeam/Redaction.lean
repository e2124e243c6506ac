/-
Hiding parts of a text: a text is cut into characters that are kept and blocks
that are hidden, and what is hidden of a text that arrives in parts.
-/
import Mathlib.Data.List.Infix
import Mathlib.Data.List.Nodup

namespace AiTeam.Redaction

variable {α β : Type}

/-! ### Pieces -/

inductive Piece (α : Type) where
  | keep (c : α)
  | hide (block : List α)

namespace Piece

def content : Piece α → List α
  | .keep c => [c]
  | .hide block => block

def hidden : Piece α → Option (List α)
  | .keep _ => none
  | .hide block => some block

def map (f : α → β) : Piece α → Piece β
  | .keep c => .keep (f c)
  | .hide block => .hide (block.map f)

/-- A kept character, or the mask for a block. -/
def render (mask : List α) : Piece α → List α
  | .keep c => [c]
  | .hide _ => mask

end Piece

/-- Where a match begins: so many characters are kept, so many hidden. -/
structure Finder (α : Type) where
  find : List α → Option (Nat × Nat)
  sound : ∀ {text kept hidden}, find text = some (kept, hidden) →
    0 < hidden ∧ kept + hidden ≤ text.length

/-- The matches of a text from the left, without overlap. -/
def scan (finder : Finder α) : Nat → List α → List (Piece α)
  | 0, _ => []
  | _ + 1, [] => []
  | fuel + 1, c :: rest =>
      match finder.find (c :: rest) with
      | none => .keep c :: scan finder fuel rest
      | some (kept, hidden) =>
          ((c :: rest).take kept).map .keep ++
            .hide (((c :: rest).drop kept).take hidden) ::
              scan finder fuel ((c :: rest).drop (kept + hidden))

def pieces (finder : Finder α) (text : List α) : List (Piece α) :=
  scan finder text.length text

def contents (list : List (Piece α)) : List α := list.flatMap Piece.content

/-- The blocks that are hidden of a text. -/
def blocks (finder : Finder α) (text : List α) : List (List α) :=
  (pieces finder text).filterMap Piece.hidden

def redact (finder : Finder α) (mask text : List α) : List α :=
  (pieces finder text).flatMap (Piece.render mask)

theorem contents_append (first last : List (Piece α)) :
    contents (first ++ last) = contents first ++ contents last :=
  List.flatMap_append

theorem contents_keep (text : List α) : contents (text.map .keep) = text := by
  induction text with
  | nil => rfl
  | cons c text ih =>
      rw [List.map_cons, contents, List.flatMap_cons, ← contents, ih]
      rfl

theorem render_keep (mask text : List α) :
    (text.map Piece.keep).flatMap (Piece.render mask) = text := by
  induction text with
  | nil => rfl
  | cons c text ih =>
      rw [List.map_cons, List.flatMap_cons, ih]
      rfl

variable {text : List α}

/-- Nothing of the text is lost to the cuts. -/
theorem contents_scan (finder : Finder α) {fuel : Nat}
    (hfuel : text.length ≤ fuel) : contents (scan finder fuel text) = text := by
  induction fuel generalizing text with
  | zero =>
      rw [List.eq_nil_of_length_eq_zero (Nat.le_zero.mp hfuel)]
      rfl
  | succ fuel ih =>
      cases text with
      | nil => rfl
      | cons c rest =>
          rw [scan]
          split
          · rw [contents, List.flatMap_cons, ← contents,
              ih (Nat.le_of_succ_le_succ hfuel)]
            rfl
          · next kept hidden hfind =>
              obtain ⟨hpos, hbound⟩ := finder.sound hfind
              have hrest : ((c :: rest).drop (kept + hidden)).length ≤ fuel := by
                rw [List.length_drop]
                omega
              rw [contents_append, contents_keep, contents, List.flatMap_cons,
                ← contents, ih hrest, ← List.drop_drop]
              show _ ++ (((c :: rest).drop kept).take hidden ++ _) = _
              rw [List.take_append_drop, List.take_append_drop]

theorem contents_pieces (finder : Finder α) (text : List α) :
    contents (pieces finder text) = text :=
  contents_scan finder (Nat.le_refl _)

theorem scan_hidden_ne_nil (finder : Finder α) {fuel : Nat} :
    ∀ piece ∈ scan finder fuel text, piece.content ≠ [] := by
  induction fuel generalizing text with
  | zero => exact fun _ hpiece => absurd hpiece List.not_mem_nil
  | succ fuel ih =>
      cases text with
      | nil => exact fun _ hpiece => absurd hpiece List.not_mem_nil
      | cons c rest =>
          intro piece hpiece
          rw [scan] at hpiece
          split at hpiece
          · rcases List.mem_cons.mp hpiece with rfl | hpiece
            · exact List.cons_ne_nil c []
            · exact ih piece hpiece
          · next kept hidden hfind =>
              obtain ⟨hpos, hbound⟩ := finder.sound hfind
              rcases List.mem_append.mp hpiece with hkept | hpiece
              · obtain ⟨d, -, rfl⟩ := List.mem_map.mp hkept
                exact List.cons_ne_nil d []
              · rcases List.mem_cons.mp hpiece with rfl | hpiece
                · show ((c :: rest).drop kept).take hidden ≠ []
                  rw [← List.length_pos_iff, List.length_take,
                    List.length_drop]
                  omega
                · exact ih piece hpiece

/-- A block is a stretch of the text. -/
theorem block_stretch {finder : Finder α} {block : List α}
    (h : block ∈ blocks finder text) :
    block ≠ [] ∧ ∃ before after, text = before ++ block ++ after := by
  obtain ⟨piece, hpiece, hhidden⟩ := List.mem_filterMap.mp h
  cases piece with
  | keep c => exact nomatch hhidden
  | hide other =>
      obtain rfl := Option.some.inj hhidden
      obtain ⟨first, last, hsplit⟩ := List.append_of_mem hpiece
      refine ⟨scan_hidden_ne_nil finder _ hpiece, contents first, contents last,
        ?_⟩
      rw [← contents_pieces finder text, hsplit, contents_append,
        List.append_assoc]
      rfl

/-- A character is in a block that is hidden. -/
def Hidden (finder : Finder α) (text : List α) (c : α) : Prop :=
  ∃ block ∈ blocks finder text, c ∈ block

variable {before part after : List α}

/-- A part of which nothing is hidden is kept in one piece. -/
theorem kept_together {list : List (Piece α)}
    (hne : ∀ piece ∈ list, piece.content ≠ [])
    (hcontents : contents list = before ++ part ++ after) (hpart : part ≠ [])
    (hkept : ∀ c ∈ part, ∀ block, .hide block ∈ list → c ∉ block) :
    ∃ first last, list = first ++ part.map .keep ++ last ∧
      (before = [] → first = []) ∧ (after = [] → last = []) := by
  induction list generalizing before part with
  | nil =>
      have hnil := List.append_eq_nil_iff.mp
        (List.append_eq_nil_iff.mp hcontents.symm).1
      exact absurd hnil.2 hpart
  | cons piece list ih =>
      have hrest := fun other hother =>
        hne other (List.mem_cons_of_mem piece hother)
      have hkeptRest : ∀ c ∈ part, ∀ block, .hide block ∈ list →
          c ∉ block := fun c hc block hblock =>
        hkept c hc block (List.mem_cons_of_mem piece hblock)
      rw [contents, List.flatMap_cons, ← contents, List.append_assoc]
        at hcontents
      rcases List.append_eq_append_iff.mp hcontents with
        ⟨more, rfl, hmore⟩ | ⟨more, hpiece, hmore⟩
      · -- The piece ends before the part begins.
        rw [← List.append_assoc] at hmore
        obtain ⟨first, last, hlist, -, hlast⟩ :=
          ih hrest hmore hpart hkeptRest
        refine ⟨piece :: first, last, ?_, ?_, hlast⟩
        · rw [hlist]
          rfl
        · intro hbefore
          exact absurd (List.append_eq_nil_iff.mp hbefore).1
            (hne piece List.mem_cons_self)
      · cases more with
        | nil =>
            rw [List.append_nil] at hpiece
            rw [List.nil_append] at hmore
            obtain ⟨first, last, hlist, hfirst, hlast⟩ :=
              @ih [] part hrest (by rw [← hmore]; rfl) hpart hkeptRest
            refine ⟨piece :: first, last, ?_, ?_, hlast⟩
            · rw [hlist]
              rfl
            · intro hbefore
              exact absurd (hpiece.trans hbefore)
                (hne piece List.mem_cons_self)
        | cons c more =>
            -- The part begins within the piece, which is a kept character.
            obtain ⟨d, rest, rfl⟩ := List.exists_cons_of_ne_nil hpart
            obtain ⟨hsame, hmore⟩ := List.cons.inj hmore
            subst hsame
            cases piece with
            | hide block =>
                have hin : d ∈ block := by
                  rw [show block = before ++ d :: more from hpiece]
                  simp
                exact absurd hin (hkept d List.mem_cons_self block
                  List.mem_cons_self)
            | keep e =>
                have hsingle : before = [] ∧ e = d ∧ more = [] := by
                  cases before with
                  | nil =>
                      obtain ⟨hd, hnil⟩ := List.cons.inj hpiece
                      exact ⟨rfl, hd, hnil.symm⟩
                  | cons b before =>
                      have hnil := (List.cons.inj hpiece).2
                      exact absurd hnil.symm (by simp)
                obtain ⟨rfl, rfl, rfl⟩ := hsingle
                have hcontents : contents list = rest ++ after :=
                  (List.cons.inj hmore).2.symm
                by_cases hrestnil : rest = []
                · refine ⟨[], list, by rw [hrestnil]; rfl, fun _ => rfl, ?_⟩
                  intro hafter
                  rw [hrestnil, hafter] at hcontents
                  by_contra hlist
                  obtain ⟨other, others, rfl⟩ :=
                    List.exists_cons_of_ne_nil hlist
                  exact hrest other List.mem_cons_self
                    (List.append_eq_nil_iff.mp hcontents).1
                · obtain ⟨first, last, hlist, hfirst, hlast⟩ :=
                    @ih [] rest hrest hcontents hrestnil fun c hc =>
                      hkeptRest c (List.mem_cons_of_mem _ hc)
                  refine ⟨[], last, ?_, fun _ => rfl, hlast⟩
                  rw [hlist, hfirst rfl]
                  rfl

/-! ### Redaction, a cut at the end, and arrival in parts -/

theorem redact_together {finder : Finder α} (mask : List α) (hpart : part ≠ [])
    (hkept : ∀ c ∈ part, ¬ Hidden finder (before ++ part ++ after) c) :
    ∃ first last, redact finder mask (before ++ part ++ after) =
        first ++ part ++ last ∧
      (before = [] → first = []) ∧ (after = [] → last = []) := by
  have hblocks : ∀ c ∈ part, ∀ block,
      .hide block ∈ pieces finder (before ++ part ++ after) → c ∉ block := by
    intro c hc block hblock hin
    apply hkept c hc
    exact ⟨block, List.mem_filterMap.mpr ⟨.hide block, hblock, rfl⟩, hin⟩
  obtain ⟨first, last, hpieces, hfirst, hlast⟩ :=
    kept_together (scan_hidden_ne_nil finder) (contents_pieces finder _) hpart
      hblocks
  refine ⟨first.flatMap (Piece.render mask), last.flatMap (Piece.render mask),
    ?_, ?_, ?_⟩
  · rw [redact, pieces, hpieces, List.flatMap_append, List.flatMap_append, render_keep]
  · intro hbefore
    rw [hfirst hbefore]
    rfl
  · intro hafter
    rw [hlast hafter]
    rfl

/-- A text that is too long is cut to `max` characters, the last one a
mark. -/
def bound (max : Nat) (mark : α) (text : List α) : List α :=
  if text.length ≤ max then text else text.take (max - 1) ++ [mark]

/-- A character that is cut off. -/
def Cut (max : Nat) (text : List α) (c : α) : Prop :=
  max < text.length ∧ c ∈ text.drop (max - 1)

theorem bound_together {max : Nat} (mark : α) (hpart : part ≠ [])
    (hkept : ∀ c ∈ part, ¬ Cut max (before ++ part ++ after) c) :
    ∃ last, bound max mark (before ++ part ++ after) =
        before ++ part ++ last ∧ (after = [] → last = []) := by
  rw [bound]
  split
  · exact ⟨after, rfl, id⟩
  · next hlong =>
      have hfits : (before ++ part).length ≤ max - 1 := by
        by_contra hover
        obtain ⟨front, c, rfl⟩ :=
          (List.eq_nil_or_concat part).resolve_left hpart
        simp only [List.concat_eq_append] at hkept hover hlong ⊢
        apply hkept c (List.mem_append_right _ (List.mem_singleton_self c))
        refine ⟨Nat.lt_of_not_le hlong, ?_⟩
        rw [← List.append_assoc, List.length_append,
          List.length_singleton] at hover
        rw [← List.append_assoc, List.append_assoc,
          List.drop_append_of_le_length (by omega)]
        exact List.mem_append_right _ List.mem_cons_self
      refine ⟨after.take (max - 1 - (before ++ part).length) ++ [mark], ?_, ?_⟩
      · rw [List.take_append, List.take_of_length_le hfits, List.append_assoc]
      · intro hafter
        rw [hafter, List.append_nil] at hlong
        omega

/-- How a text is passed on: where nothing of a stretch is lost, it comes out
in one piece, and at an end if it stood there. -/
structure Passes (text out : List α) (Lost : α → Prop) : Prop where
  nothing : text = [] → out = []
  stretch : ∀ before part after, text = before ++ part ++ after →
    part ≠ [] → (∀ c ∈ part, ¬ Lost c) →
    ∃ first last, out = first ++ part ++ last ∧
      (before = [] → first = []) ∧ (after = [] → last = [])

/-- Redaction followed by a cut. -/
theorem passes_bound_redact (finder : Finder α) (mask : List α) (max : Nat)
    (mark : α) (text : List α) :
    Passes text (bound max mark (redact finder mask text))
      fun c => Hidden finder text c ∨ Cut max (redact finder mask text) c where
  nothing := by
    rintro rfl
    rfl
  stretch := by
    rintro before part after rfl hpart hkept
    obtain ⟨first, last, hredact, hfirst, hlast⟩ :=
      redact_together mask hpart fun c hc h => hkept c hc (Or.inl h)
    have huncut : ∀ c ∈ part, ¬ Cut max (first ++ part ++ last) c := by
      intro c hc hcut
      apply hkept c hc
      rw [hredact]
      exact Or.inr hcut
    obtain ⟨rest, hbound, hrest⟩ := bound_together mark hpart huncut
    refine ⟨first, rest, ?_, hfirst, fun hafter => hrest (hlast hafter)⟩
    rw [hredact]
    exact hbound

/-- A text that is dropped. -/
theorem passes_nothing (text : List α) : Passes text [] (· ∈ text) where
  nothing _ := rfl
  stretch := by
    rintro before part after rfl hpart hkept
    obtain ⟨c, part, rfl⟩ := List.exists_cons_of_ne_nil hpart
    exact absurd (by simp) (hkept c List.mem_cons_self)

/-- A text that arrives in parts passes as the parts do. -/
theorem passes_parts {δ : Type} {source emit : δ → List α}
    {Lost : δ → α → Prop} {parts : List δ}
    (h : ∀ d ∈ parts, Passes (source d) (emit d) (Lost d)) :
    Passes (parts.flatMap source) (parts.flatMap emit)
      fun c => ∃ d ∈ parts, Lost d c := by
  induction parts with
  | nil =>
      refine ⟨fun _ => rfl, fun before part after htext hpart _ => ?_⟩
      have hnil := List.append_eq_nil_iff.mp
        (List.append_eq_nil_iff.mp htext.symm).1
      exact absurd hnil.2 hpart
  | cons d parts ih =>
      obtain ⟨hdnil, hd⟩ := h d List.mem_cons_self
      obtain ⟨hnil, hparts⟩ := ih fun d hd => h d (List.mem_cons_of_mem _ hd)
      rw [List.flatMap_cons, List.flatMap_cons]
      constructor
      · intro htext
        obtain ⟨hsource, htail⟩ := List.append_eq_nil_iff.mp htext
        rw [hdnil hsource, hnil htail]
        rfl
      intro before part after htext hpart hkept
      have hkeptHere : ∀ c ∈ part, ¬ Lost d c := fun c hc h =>
        hkept c hc ⟨d, List.mem_cons_self, h⟩
      have hkeptLater : ∀ c ∈ part, ¬ ∃ d ∈ parts, Lost d c :=
        fun c hc ⟨e, he, h⟩ => hkept c hc ⟨e, List.mem_cons_of_mem d he, h⟩
      rw [List.append_assoc] at htext
      rcases List.append_eq_append_iff.mp htext with
        ⟨more, rfl, htail⟩ | ⟨more, hsource, hrest⟩
      · -- The stretch comes after this part.
        obtain ⟨first, last, hout, hfirst, hlast⟩ := hparts more part after
          (by rw [htail, List.append_assoc]) hpart hkeptLater
        refine ⟨emit d ++ first, last, by simp [hout], ?_, hlast⟩
        intro hbefore
        obtain ⟨hsource, hmore⟩ := List.append_eq_nil_iff.mp hbefore
        rw [hdnil hsource, hfirst hmore]
        rfl
      · rcases List.append_eq_append_iff.mp hrest with
          ⟨beyond, rfl, rfl⟩ | ⟨beyond, rfl, htail⟩
        · -- It ends within this part.
          obtain ⟨first, last, hout, hfirst, hlast⟩ := hd before part beyond
            (by rw [hsource, List.append_assoc]) hpart hkeptHere
          refine ⟨first, last ++ parts.flatMap emit, by simp [hout], hfirst, ?_⟩
          intro hafter
          obtain ⟨hbeyond, hend⟩ := List.append_eq_nil_iff.mp hafter
          rw [hlast hbeyond, hnil hend]
          rfl
        · have hhere : ∀ c ∈ more, ¬ Lost d c := fun c hc =>
            hkeptHere c (List.mem_append_left _ hc)
          have hlater : ∀ c ∈ beyond, ¬ ∃ d ∈ parts, Lost d c :=
            fun c hc => hkeptLater c (List.mem_append_right _ hc)
          -- It goes over into the later parts, where either half may be empty.
          have hfront : ∃ first, emit d = first ++ more ∧
              (before = [] → first = []) := by
            by_cases hmore : more = []
            · refine ⟨emit d, by simp [hmore], fun hbefore => hdnil ?_⟩
              rw [hsource, hbefore, hmore]
              rfl
            · obtain ⟨first, last, hout, hfirst, hlast⟩ :=
                hd before more [] (by simp [hsource]) hmore hhere
              exact ⟨first, by simp [hout, hlast rfl], hfirst⟩
          have hback : ∃ last, parts.flatMap emit = beyond ++ last ∧
              (after = [] → last = []) := by
            by_cases hbeyond : beyond = []
            · refine ⟨parts.flatMap emit, by simp [hbeyond], fun hafter =>
                hnil ?_⟩
              rw [htail, hbeyond, hafter]
              rfl
            · obtain ⟨first, last, hout, hfirst, hlast⟩ :=
                hparts [] beyond after (by simp [htail]) hbeyond hlater
              exact ⟨last, by simp [hout, hfirst rfl], hlast⟩
          obtain ⟨first, hout, hfirst⟩ := hfront
          obtain ⟨last, houts, hlast⟩ := hback
          exact ⟨first, last, by simp [hout, houts], hfirst, hlast⟩

/-! ### The same through another alphabet -/

section

variable {f : α → β} {finder : Finder α} {image : Finder β}

section

variable (hfind : ∀ text, image.find (text.map f) = finder.find text)
include hfind

theorem pieces_map (text : List α) :
    pieces image (text.map f) = (pieces finder text).map (Piece.map f) := by
  have hscan : ∀ fuel text, scan image fuel (text.map f) =
      (scan finder fuel text).map (Piece.map f) := by
    intro fuel
    induction fuel with
    | zero => exact fun _ => rfl
    | succ fuel ih =>
        intro text
        cases text with
        | nil => rfl
        | cons c rest =>
            have hfound := hfind (c :: rest)
            rw [List.map_cons] at hfound
            rw [List.map_cons, scan, scan, hfound]
            cases finder.find (c :: rest) with
            | none =>
                rw [List.map_cons, ← ih]
                rfl
            | some found =>
                obtain ⟨kept, hidden⟩ := found
                have hkept : ((c :: rest).map f).take kept =
                    ((c :: rest).take kept).map f := (List.map_take ..).symm
                have hhidden : (((c :: rest).map f).drop kept).take hidden =
                    (((c :: rest).drop kept).take hidden).map f := by
                  rw [List.map_take, List.map_drop]
                rw [← List.map_cons]
                dsimp only
                rw [hkept, hhidden, ← List.map_drop, ih,
                  List.map_append, List.map_cons, List.map_map, List.map_map]
                rfl
  rw [pieces, List.length_map]
  exact hscan text.length text

theorem blocks_map (text : List α) :
    blocks image (text.map f) = (blocks finder text).map (List.map f) := by
  rw [blocks, blocks, pieces_map hfind, List.filterMap_map, List.map_filterMap]
  apply List.filterMap_congr
  rintro (c | block) -
  · rfl
  · rfl

theorem redact_map (mask text : List α) :
    redact image (mask.map f) (text.map f) =
      (redact finder mask text).map f := by
  rw [redact, redact, pieces_map hfind, List.flatMap_map, List.map_flatMap]
  apply List.flatMap_congr
  rintro (c | block) -
  · rfl
  · rfl

end

theorem bound_map (max : Nat) (mark : α) (text : List α) :
    bound max (f mark) (text.map f) = (bound max mark text).map f := by
  rw [bound, bound, List.length_map]
  split
  · rfl
  · rw [List.map_append, List.map_take]
    rfl

end

/-! ### Nothing comes out twice -/

section

variable [DecidableEq α] {c : α}

/-- A character comes out as often as it stands outside the blocks. -/
theorem count_redact (finder : Finder α) {mask : List α} (hmask : c ∉ mask)
    (text : List α) :
    (redact finder mask text).count c +
      (blocks finder text).flatten.count c = text.count c := by
  have hpieces : ∀ list : List (Piece α),
      (list.flatMap (Piece.render mask)).count c +
        (list.filterMap Piece.hidden).flatten.count c =
          (contents list).count c := by
    intro list
    induction list with
    | nil => rfl
    | cons piece list ih =>
        rw [contents, List.flatMap_cons, List.flatMap_cons, ← contents,
          List.count_append, List.count_append, ← ih]
        cases piece with
        | keep d =>
            rw [List.filterMap_cons_none rfl]
            exact Nat.add_assoc _ _ _
        | hide block =>
            have hnone := List.count_eq_zero_of_not_mem hmask
            show mask.count c + _ +
              (block ++ (list.filterMap Piece.hidden).flatten).count c =
                block.count c + _
            rw [List.count_append]
            omega
  have hcount := hpieces (pieces finder text)
  rw [contents_pieces] at hcount
  exact hcount

theorem count_bound_le {max : Nat} {mark : α} (hmark : c ≠ mark)
    (text : List α) : (bound max mark text).count c ≤ text.count c := by
  rw [bound]
  split
  · exact Nat.le_refl _
  · rw [List.count_append, List.count_singleton, if_neg (by simpa using
      hmark.symm), Nat.add_zero]
    exact (List.take_sublist _ _).count_le c

theorem count_bound_lt {max : Nat} {mark : α} (hmark : c ≠ mark)
    (hcut : Cut max text c) : (bound max mark text).count c < text.count c := by
  obtain ⟨hlong, hdropped⟩ := hcut
  have hsplit : text.count c = (text.take (max - 1)).count c +
      (text.drop (max - 1)).count c := by
    rw [← List.count_append, List.take_append_drop]
  have hpos := List.count_pos_iff.mpr hdropped
  rw [bound, if_neg (Nat.not_le_of_lt hlong), List.count_append,
    List.count_singleton, if_neg (by simpa using hmark.symm)]
  omega

/-- Where no part lets out more than it holds, and one less, a character that
stands once in the text does not come out. -/
theorem not_mem_parts {δ : Type} {source emit : δ → List α} {parts : List δ}
    (hle : ∀ d ∈ parts, (emit d).count c ≤ (source d).count c)
    (hlt : ∃ d ∈ parts, (emit d).count c < (source d).count c)
    (hnodup : (parts.flatMap source).Nodup) : c ∉ parts.flatMap emit := by
  have hall : ∀ parts : List δ,
      (∀ d ∈ parts, (emit d).count c ≤ (source d).count c) →
      (parts.flatMap emit).count c ≤ (parts.flatMap source).count c := by
    intro parts hle
    induction parts with
    | nil => exact Nat.le_refl _
    | cons d parts ih =>
        rw [List.flatMap_cons, List.flatMap_cons, List.count_append,
          List.count_append]
        exact Nat.add_le_add (hle d List.mem_cons_self)
          (ih fun e he => hle e (List.mem_cons_of_mem d he))
  obtain ⟨d, hd, hless⟩ := hlt
  obtain ⟨first, last, rfl⟩ := List.append_of_mem hd
  have hfirst := hall first fun e he => hle e (List.mem_append_left _ he)
  have hlast := hall last fun e he =>
    hle e (List.mem_append_right _ (List.mem_cons_of_mem d he))
  have honce := List.nodup_iff_count_le_one.mp hnodup c
  rw [← List.count_eq_zero]
  simp only [List.flatMap_append, List.flatMap_cons, List.count_append]
    at honce ⊢
  omega

end

end AiTeam.Redaction
