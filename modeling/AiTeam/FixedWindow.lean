/-
Limits that count in fixed windows: the counter starts again with every new
window, and what it has let through is kept in a log of windows.
-/
import Mathlib.Data.List.Count

namespace AiTeam.FixedWindow

structure Counter where
  window : Int
  used : Nat
deriving DecidableEq

/-- The counter in the window. -/
def roll (window : Int) (counter : Counter) : Counter :=
  if counter.window = window then counter else ⟨window, 0⟩

/-- One more in the window of the counter. -/
def take (counter : Counter) : Counter :=
  { counter with used := counter.used + 1 }

/-- The counter counts the log, and no window has more than the limit. -/
structure Counts (limit : Nat) (log : List Int) (counter : Counter) :
    Prop where
  past : ∀ window ∈ log, window ≤ counter.window
  used : counter.used = log.count counter.window
  bounded : ∀ window, log.count window ≤ limit

theorem roll_window (window : Int) (counter : Counter) :
    (roll window counter).window = window := by
  unfold roll
  split
  · next hsame => exact hsame
  · rfl

theorem Counts.initial (limit : Nat) (window : Int) :
    Counts limit [] ⟨window, 0⟩ where
  past _ hwindow := nomatch hwindow
  used := rfl
  bounded _ := Nat.zero_le limit

theorem Counts.roll {limit : Nat} {log : List Int} {counter : Counter}
    (h : Counts limit log counter) {window : Int}
    (hforward : counter.window ≤ window) :
    Counts limit log (roll window counter) := by
  refine ⟨?_, ?_, h.bounded⟩
  · intro other hother
    rw [roll_window]
    exact Int.le_trans (h.past other hother) hforward
  · unfold FixedWindow.roll
    split
    · exact h.used
    · next hnew =>
        refine (List.count_eq_zero_of_not_mem fun hmem => ?_).symm
        have hpast := h.past window hmem
        omega

theorem Counts.take {limit : Nat} {log : List Int} {counter : Counter}
    (h : Counts limit log counter) (hroom : counter.used < limit) :
    Counts limit (log ++ [counter.window]) (take counter) := by
  have hcount : ∀ window, (log ++ [counter.window]).count window =
      log.count window + if counter.window = window then 1 else 0 := by
    intro window
    rw [List.count_append, List.count_singleton]
    simp [beq_iff_eq]
  refine ⟨?_, ?_, ?_⟩
  · intro window hwindow
    rcases List.mem_append.mp hwindow with hold | hnew
    · exact h.past window hold
    · rw [List.mem_singleton.mp hnew]
      exact Int.le_refl _
  · rw [FixedWindow.take, hcount, if_pos rfl, h.used]
  · intro window
    rw [hcount]
    split
    · next hsame =>
        rw [← hsame, ← h.used]
        exact hroom
    · exact h.bounded window

end AiTeam.FixedWindow
