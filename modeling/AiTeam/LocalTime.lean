/-
Local time.  A zone is a function from instants to offsets; a local time may be
read at no instant (a gap) or at several (a fold), and then stands for the
earliest of them.
-/
import Mathlib.Data.Int.LeastGreatest
import Mathlib.Data.List.MinMax
import Mathlib.Order.Bounds.Basic

namespace AiTeam.LocalTime

/-- What the clock of a zone shows at an instant. -/
def reading (offset : Int → Int) (instant : Int) : Int :=
  instant + offset instant

/-- The instant that a local time stands for. -/
def Earliest (offset : Int → Int) (localTime instant : Int) : Prop :=
  IsLeast {i | reading offset i = localTime} instant

variable {offset : Int → Int} {i span l : Int}

theorem Earliest.unique {localTime j : Int} (hi : Earliest offset localTime i)
    (hj : Earliest offset localTime j) : i = j :=
  IsLeast.unique hi hj

/-- The clock never shows a time that lies `span` or more behind one that it
has shown before. -/
def SetBackLess (offset : Int → Int) (span : Int) : Prop :=
  ∀ i j, i ≤ j → reading offset i < reading offset j + span

/-- Local times that far apart stand for instants in the same order. -/
theorem Earliest.lt {l' i' : Int} (hspan : SetBackLess offset span)
    (hi : Earliest offset l i) (hi' : Earliest offset l' i')
    (h : l + span ≤ l') : i < i' := by
  by_contra hle
  have hback := hspan i' i (not_lt.mp hle)
  rw [hi.1, hi'.1] at hback
  omega

/-- A local time well ahead of what the clock shows stands for a later
instant. -/
theorem Earliest.gt_of_reading {now : Int} (hspan : SetBackLess offset span)
    (hi : Earliest offset l i) (h : reading offset now + span ≤ l) :
    now < i := by
  by_contra hle
  have hback := hspan i now (not_lt.mp hle)
  rw [hi.1] at hback
  omega

/-- A local time well behind what the clock shows stands for an earlier
instant. -/
theorem Earliest.lt_of_reading {now : Int} (hspan : SetBackLess offset span)
    (hi : Earliest offset l i) (h : l + span ≤ reading offset now) :
    i < now := by
  by_contra hle
  have hback := hspan now i (not_lt.mp hle)
  rw [hi.1] at hback
  omega

/-- The earliest instant that reads a local time, for a zone that only uses the
listed offsets. -/
def earliest (offsets : List Int) (offset : Int → Int) (localTime : Int) :
    Option Int :=
  ((offsets.map (localTime - ·)).filter
    (fun instant => reading offset instant = localTime)).min?

section earliest

variable {offsets : List Int} {offset : Int → Int} {localTime instant : Int}

theorem mem_candidates_iff (hoffsets : ∀ i, offset i ∈ offsets) :
    instant ∈ (offsets.map (localTime - ·)).filter
        (fun instant => reading offset instant = localTime) ↔
      reading offset instant = localTime := by
  simp only [List.mem_filter, List.mem_map, decide_eq_true_eq,
    and_iff_right_iff_imp]
  intro hread
  refine ⟨offset instant, hoffsets instant, ?_⟩
  rw [← hread, reading]
  omega

theorem earliest_eq_some_iff (hoffsets : ∀ i, offset i ∈ offsets) :
    earliest offsets offset localTime = some instant ↔
      Earliest offset localTime instant := by
  simp only [earliest, List.min?_eq_some_iff, mem_candidates_iff hoffsets]
  rfl

theorem earliest_isSome_iff (hoffsets : ∀ i, offset i ∈ offsets) :
    (earliest offsets offset localTime).isSome ↔
      ∃ instant, reading offset instant = localTime := by
  rw [earliest, List.isSome_min?_iff]
  constructor
  · intro hne
    obtain ⟨instant, hmem⟩ := List.exists_mem_of_ne_nil _ hne
    exact ⟨instant, (mem_candidates_iff hoffsets).mp hmem⟩
  · rintro ⟨instant, hread⟩
    exact List.ne_nil_of_mem ((mem_candidates_iff hoffsets).mpr hread)

end earliest

end AiTeam.LocalTime
