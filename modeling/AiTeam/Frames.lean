/-
Lists of texts written with the length of each in front of it: what is written
tells the list, and one list begins another only where it is a part of it.
-/
import Mathlib.Data.List.Infix
import Mathlib.Data.Nat.Digits.Defs

namespace AiTeam.Frames

variable {α : Type} (write : Char → α)

def frame (part : List α) : List α :=
  (Nat.toDigits 10 part.length).map write ++ write ':' :: part

/-- Frames behind others, each after a bar. -/
def more (parts : List (List α)) : List α :=
  parts.flatMap fun part => write '|' :: frame write part

def frames (parts : List (List α)) : List α :=
  [write '|'].intercalate (parts.map (frame write))

theorem frames_cons (part : List α) (parts : List (List α)) :
    frames write (part :: parts) =
      frame write part ++ more write parts := by
  induction parts generalizing part with
  | nil => simp [frames, more]
  | cons next parts ih =>
      have hnext := ih next
      rw [frames, List.map_cons] at hnext
      rw [frames, List.map_cons, List.map_cons, List.intercalate_cons_cons,
        hnext]
      simp [more]

theorem digit_of_mem {n : Nat} {c : Char} (h : c ∈ Nat.toDigits 10 n) :
    c ≠ ':' ∧ c ≠ '|' := by
  have hdigit : c.isDigit :=
    Nat.isDigit_of_mem_toDigits (by decide) (by decide) h
  constructor
  · rintro rfl
    exact absurd hdigit (by decide)
  · rintro rfl
    exact absurd hdigit (by decide)

theorem toDigits_injective : Function.Injective (Nat.toDigits 10) := by
  intro m n h
  calc
    m = Nat.ofDigitChars 10 (Nat.toDigits 10 m) 0 :=
      Nat.ofDigitChars_ten_toDigits.symm
    _ = Nat.ofDigitChars 10 (Nat.toDigits 10 n) 0 := by rw [h]
    _ = n := Nat.ofDigitChars_ten_toDigits

/-- A mark shows where the part before it ends. -/
theorem append_mark_inj {mark : α} {a b x y : List α} (ha : mark ∉ a)
    (hb : mark ∉ b) (h : a ++ mark :: x = b ++ mark :: y) :
    a = b ∧ x = y := by
  induction a generalizing b with
  | nil =>
      cases b with
      | nil => exact ⟨rfl, (List.cons.inj h).2⟩
      | cons c b => exact absurd ((List.cons.inj h).1 ▸ by simp) hb
  | cons c a ih =>
      cases b with
      | nil => exact absurd ((List.cons.inj h).1 ▸ by simp) ha
      | cons d b =>
          obtain ⟨rfl, htail⟩ := List.cons.inj h
          obtain ⟨rfl, rfl⟩ := ih (fun hmem => ha (.tail _ hmem))
            (fun hmem => hb (.tail _ hmem)) htail
          exact ⟨rfl, rfl⟩

variable {write} (hwrite : Function.Injective write)
include hwrite

/-- A frame ends where it says. -/
theorem frame_append {p q x y : List α}
    (h : frame write p ++ x = frame write q ++ y) :
    p = q ∧ x = y := by
  have hcolon : ∀ n, write ':' ∉ (Nat.toDigits 10 n).map write := by
    intro n hmem
    obtain ⟨c, hc, heq⟩ := List.mem_map.mp hmem
    exact (digit_of_mem hc).1 (hwrite heq)
  simp only [frame, List.append_assoc, List.cons_append] at h
  obtain ⟨hdigits, htext⟩ := append_mark_inj (hcolon _) (hcolon _) h
  have hlength := toDigits_injective
    ((List.map_inj_right fun _ _ heq => hwrite heq).mp hdigits)
  exact List.append_inj htext hlength

theorem more_injective {a b : List (List α)}
    (h : more write a = more write b) : a = b := by
  induction a generalizing b with
  | nil =>
      cases b with
      | nil => rfl
      | cons q b => cases h
  | cons p a ih =>
      cases b with
      | nil => cases h
      | cons q b =>
          obtain ⟨rfl, hrest⟩ :=
            frame_append hwrite (List.cons.inj h).2
          rw [ih hrest]

theorem frames_injective {a b : List (List α)}
    (h : frames write a = frames write b) : a = b := by
  have hne : ∀ p x, frame write p ++ x ≠ [] := by simp [frame]
  cases a with
  | nil =>
      cases b with
      | nil => rfl
      | cons q b =>
          rw [frames_cons] at h
          exact absurd h.symm (hne q _)
  | cons p a =>
      cases b with
      | nil =>
          rw [frames_cons] at h
          exact absurd h (hne p _)
      | cons q b =>
          rw [frames_cons, frames_cons] at h
          obtain ⟨rfl, hrest⟩ := frame_append hwrite h
          rw [more_injective hwrite hrest]

theorem more_begins {t u : List (List α)} :
    more write t ++ [write '|'] <+: more write u ↔
      ∃ part rest, u = t ++ part :: rest := by
  induction t generalizing u with
  | nil => cases u <;> simp [more]
  | cons p t ih =>
      cases u with
      | nil => simp [more]
      | cons q u =>
          constructor
          · rintro ⟨z, hz⟩
            simp only [more, List.flatMap_cons, List.cons_append,
              List.append_assoc, List.cons.injEq, true_and] at hz
            obtain ⟨rfl, hrest⟩ := frame_append hwrite hz
            obtain ⟨part, rest, rfl⟩ := ih.mp
              ⟨z, by simpa [more] using hrest⟩
            exact ⟨part, rest, rfl⟩
          · rintro ⟨part, rest, hu⟩
            obtain ⟨rfl, rfl⟩ := List.cons.inj hu
            obtain ⟨z, hz⟩ := ih.mpr ⟨part, rest, rfl⟩
            exact ⟨z, by simpa [more] using hz⟩

/-- Up to a bar, one list begins another where it is a part of it. -/
theorem frames_begins {first : List α} {t u : List (List α)} :
    frames write (first :: t) ++ [write '|'] <+: frames write u ↔
      ∃ part rest, u = first :: t ++ part :: rest := by
  cases u with
  | nil => simp [frames]
  | cons q u =>
      rw [frames_cons, frames_cons]
      constructor
      · rintro ⟨z, hz⟩
        rw [List.append_assoc, List.append_assoc] at hz
        obtain ⟨rfl, hrest⟩ := frame_append hwrite hz
        obtain ⟨part, rest, rfl⟩ := (more_begins hwrite).mp
          ⟨z, by rwa [List.append_assoc]⟩
        exact ⟨part, rest, rfl⟩
      · rintro ⟨part, rest, hu⟩
        obtain ⟨rfl, htail⟩ := List.cons.inj hu
        obtain ⟨z, hz⟩ := (more_begins hwrite).mpr ⟨part, rest, htail⟩
        exact ⟨z, by rw [← hz]; simp⟩

end AiTeam.Frames
