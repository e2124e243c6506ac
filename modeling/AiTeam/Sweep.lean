/-
A sweep: queries in ascending order against ranges in ascending order of their
starts, with one pointer that only moves forward and the furthest stop so far.
-/
import Mathlib.Order.MinMax
import Mathlib.Data.List.Basic

namespace AiTeam.Sweep

variable {ρ β : Type} [LinearOrder β] (start stop : ρ → β)

/-- Passes the ranges that start up to a position: what is left of them, and
the furthest stop of those passed. -/
def advance (position : β) : List ρ → β → List ρ × β
  | [], reach => ([], reach)
  | range :: rest, reach =>
      if start range ≤ position then
        advance position rest (max reach (stop range))
      else (range :: rest, reach)

/-- Some range holds the position: it starts up to it and stops after it. -/
def Held (ranges : List ρ) (position : β) : Prop :=
  ∃ range ∈ ranges, start range ≤ position ∧ position < stop range

/-- What the pointer and the furthest stop stand for once a position is asked:
no range that was passed starts later, and from there on a position is below
the furthest stop exactly when it is below that of a passed range. -/
def Swept (ranges : List ρ) (position : β) (rest : List ρ) (reach : β) :
    Prop :=
  ∃ passed, ranges = passed ++ rest ∧
    (∀ range ∈ passed, start range ≤ position) ∧
    ∀ other, position ≤ other →
      (other < reach ↔ ∃ range ∈ passed, other < stop range)

variable {start stop}
variable {ranges rest : List ρ} {position position' reach : β}

/-- Nothing is passed before the first query. -/
theorem Swept.init (hreach : ∀ other, position ≤ other → ¬ other < reach) :
    Swept start stop ranges position ranges reach := by
  refine ⟨[], rfl, by simp, ?_⟩
  intro other hle
  simp [hreach other hle]

theorem Swept.onward (h : Swept start stop ranges position rest reach)
    (hle : position ≤ position') :
    Swept start stop ranges position' rest reach := by
  obtain ⟨passed, hsplit, hstart, hreach⟩ := h
  refine ⟨passed, hsplit, ?_, ?_⟩
  · intro range hmem
    exact (hstart range hmem).trans hle
  · intro other hother
    exact hreach other (hle.trans hother)

theorem Swept.pass {range : ρ}
    (h : Swept start stop ranges position (range :: rest) reach)
    (hle : start range ≤ position) :
    Swept start stop ranges position rest (max reach (stop range)) := by
  obtain ⟨passed, hsplit, hstart, hreach⟩ := h
  refine ⟨passed ++ [range], by simp [hsplit], ?_, ?_⟩
  · intro other hmem
    rcases List.mem_append.mp hmem with hmem | hmem
    · exact hstart other hmem
    · rwa [List.mem_singleton.mp hmem]
  · intro other hother
    rw [lt_max_iff, hreach other hother]
    simp only [List.mem_append, List.mem_singleton]
    constructor
    · rintro (⟨passing, hmem, hlt⟩ | hlt)
      · exact ⟨passing, Or.inl hmem, hlt⟩
      · exact ⟨range, Or.inr rfl, hlt⟩
    · rintro ⟨passing, hmem | rfl, hlt⟩
      · exact Or.inl ⟨passing, hmem, hlt⟩
      · exact Or.inr hlt

/-- After the loop the pointer stands at a range that starts later. -/
theorem Swept.advance (h : Swept start stop ranges position rest reach) :
    Swept start stop ranges position
        (advance start stop position rest reach).1
        (advance start stop position rest reach).2 ∧
      ∀ range ∈ (advance start stop position rest reach).1.head?,
        position < start range := by
  induction rest generalizing reach with
  | nil => exact ⟨h, by simp [Sweep.advance]⟩
  | cons range rest ih =>
      rw [Sweep.advance]
      split
      · next hle => exact ih (h.pass hle)
      · next hgt => exact ⟨h, by simpa using not_le.mp hgt⟩

/-- The comparison with the furthest stop decides whether a range holds the
position. -/
theorem Swept.lt_reach_iff (h : Swept start stop ranges position rest reach)
    (hsorted : ranges.Pairwise fun left right => start left ≤ start right)
    (hhead : ∀ range ∈ rest.head?, position < start range) :
    position < reach ↔ Held start stop ranges position := by
  obtain ⟨passed, rfl, hstart, hreach⟩ := h
  rw [hreach position le_rfl]
  constructor
  · rintro ⟨range, hmem, hlt⟩
    exact ⟨range, List.mem_append_left _ hmem, hstart range hmem, hlt⟩
  · rintro ⟨range, hmem, hle, hlt⟩
    rcases List.mem_append.mp hmem with hmem | hmem
    · exact ⟨range, hmem, hlt⟩
    · -- what the pointer has not passed starts after the position
      have hrest := (List.pairwise_append.mp hsorted).2.1
      cases rest with
      | nil => simp at hmem
      | cons first rest =>
          have hfirst := hhead first rfl
          rcases List.mem_cons.mp hmem with rfl | hmem
          · exact absurd hle (not_le.mpr hfirst)
          · have hafter := (List.pairwise_cons.mp hrest).1 range hmem
            exact absurd (hafter.trans hle) (not_le.mpr hfirst)

end AiTeam.Sweep
