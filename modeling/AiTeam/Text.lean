/-
Texts as lists: slices, the first occurrence of a content, and pieces of a
fixed size.
-/
import Mathlib.Data.List.Infix

namespace AiTeam.Text

universe u

variable {α : Type u}

/-- `text[offset:offset + length]`. -/
def slice (text : List α) (offset length : Nat) : List α :=
  (text.drop offset).take length

theorem slice_infix (text : List α) (offset length : Nat) :
    slice text offset length <:+: text :=
  (List.take_prefix length _).isInfix.trans (List.drop_suffix offset _).isInfix

/-! ### Pieces -/

/-- The text cut every `size` elements. -/
def pieces (size : Nat) (text : List α) : List (List α) :=
  (List.range ((text.length + size - 1) / size)).map fun i =>
    slice text (i * size) size

theorem pieces_getElem? {size : Nat} {text : List α} {i : Nat}
    {piece : List α} (h : (pieces size text)[i]? = some piece) :
    piece = slice text (i * size) size ∧ i < text.length + 1 := by
  rw [pieces, List.getElem?_map, Option.map_eq_some_iff] at h
  obtain ⟨j, hj, rfl⟩ := h
  obtain ⟨hlt, hval⟩ := List.getElem?_eq_some_iff.mp hj
  rw [List.getElem_range] at hval
  rw [List.length_range] at hlt
  refine ⟨by rw [hval], ?_⟩
  have hsize : 0 < size := by
    rcases Nat.eq_zero_or_pos size with hzero | hpos
    · rw [hzero, Nat.div_zero] at hlt
      omega
    · exact hpos
  have hbound : (text.length + size - 1) / size ≤ text.length := by
    rw [Nat.div_le_iff_le_mul_add_pred hsize]
    have := Nat.le_mul_of_pos_left text.length hsize
    omega
  omega

/-! ### Occurrences -/

variable [DecidableEq α]

/-- `text.startswith(content, i)`. -/
def startsAt (text content : List α) (i : Nat) : Bool :=
  content.isPrefixOf (text.drop i)

/-- `text.find(content, start)`. -/
def find (text content : List α) (start : Nat) : Option Nat :=
  (List.range' start (text.length + 1 - start)).find? (startsAt text content)

/-- `content in text`. -/
def occurs (text content : List α) : Bool :=
  (find text content 0).isSome

/-- The start of the only occurrence. -/
def uniqueStart (text content : List α) : Option Nat :=
  match find text content 0 with
  | none => none
  | some start =>
      if (find text content (start + 1)).isSome then none else some start

theorem find_spec {text content : List α} {start i : Nat}
    (h : find text content start = some i) :
    i + content.length ≤ text.length ∧
      slice text i content.length = content := by
  rw [find] at h
  have hhit : startsAt text content i = true := List.find?_some h
  have hstart := List.isPrefixOf_iff_prefix.mp hhit
  have hmem := List.mem_range'_1.mp (List.mem_of_find?_eq_some h)
  have hlength := hstart.length_le
  rw [List.length_drop] at hlength
  exact ⟨by omega, (List.prefix_iff_eq_take.mp hstart).symm⟩

theorem occurs_infix {text content : List α}
    (h : occurs text content = true) : content <:+: text := by
  obtain ⟨i, hi⟩ := Option.isSome_iff_exists.mp h
  rw [← (find_spec hi).2]
  exact slice_infix text i content.length

end AiTeam.Text
