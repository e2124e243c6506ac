/-
Deterministic machines with an event trace.  All nondeterminism of the modelled
services (interleavings, clock readings, network outcomes) is carried by the
choice of actions, so a run is simply a list of actions.
-/
import Mathlib.Data.List.Basic

namespace AiTeam

universe u v w

/-- An element of two lists in a row is in the first or in the second one. -/
theorem split_append {α : Type u} {past new before after : List α} {a : α}
    (h : past ++ new = before ++ a :: after) :
    (∃ rest, past = before ++ a :: rest ∧ after = rest ++ new) ∨
      ∃ front, before = past ++ front ∧ new = front ++ a :: after := by
  rcases List.append_eq_append_iff.mp h with ⟨front, hbefore, hnew⟩ |
    ⟨rest, hpast, hrest⟩
  · exact Or.inr ⟨front, hbefore, hnew⟩
  · cases rest with
    | nil =>
        right
        refine ⟨[], by simpa using hpast.symm, ?_⟩
        simpa using hrest.symm
    | cons head tail =>
        simp only [List.cons_append, List.cons.injEq] at hrest
        rw [← hrest.1] at hpast
        exact Or.inl ⟨tail, hpast, hrest.2⟩

/-- One action moves the state and emits the events an observer sees. -/
structure Machine (S : Type u) (A : Type v) (E : Type w) where
  step : S → A → S × List E

namespace Machine

variable {S : Type u} {A : Type v} {E : Type w}

def next (M : Machine S A E) (state : S) (action : A) : S :=
  (M.step state action).1

def emit (M : Machine S A E) (state : S) (action : A) : List E :=
  (M.step state action).2

/-- The state a run ends in. -/
def run (M : Machine S A E) (state : S) : List A → S
  | [] => state
  | action :: rest => M.run (M.next state action) rest

/-- The events a run emits, oldest first. -/
def trace (M : Machine S A E) (state : S) : List A → List E
  | [] => []
  | action :: rest =>
      M.emit state action ++ M.trace (M.next state action) rest

/-- Every action of the run is allowed in the state it is taken in. -/
def Admissible (M : Machine S A E) (allowed : S → A → Prop) (state : S) :
    List A → Prop
  | [] => True
  | action :: rest =>
      allowed state action ∧ M.Admissible allowed (M.next state action) rest

instance decidableAdmissible (M : Machine S A E) (allowed : S → A → Prop)
    [∀ state action, Decidable (allowed state action)] (state : S) :
    (actions : List A) → Decidable (M.Admissible allowed state actions)
  | [] => isTrue trivial
  | action :: rest =>
      have := decidableAdmissible M allowed (M.next state action) rest
      inferInstanceAs (Decidable (_ ∧ _))

theorem run_append (M : Machine S A E) (state : S) (first last : List A) :
    M.run state (first ++ last) = M.run (M.run state first) last := by
  induction first generalizing state with
  | nil => rfl
  | cons action rest ih => exact ih (M.next state action)

theorem trace_append (M : Machine S A E) (state : S) (first last : List A) :
    M.trace state (first ++ last) =
      M.trace state first ++ M.trace (M.run state first) last := by
  induction first generalizing state with
  | nil => rfl
  | cons action rest ih =>
      simp only [List.cons_append, trace, run, ih, List.append_assoc]

variable {state : S} {allowed : S → A → Prop}

theorem admissible_left {M : Machine S A E} {first last : List A}
    (h : M.Admissible allowed state (first ++ last)) :
    M.Admissible allowed state first := by
  induction first generalizing state with
  | nil => exact trivial
  | cons action rest ih => exact ⟨h.1, ih h.2⟩

theorem admissible_right {M : Machine S A E} {first last : List A}
    (h : M.Admissible allowed state (first ++ last)) :
    M.Admissible allowed (M.run state first) last := by
  induction first generalizing state with
  | nil => exact h
  | cons action rest ih => exact ih h.2

/-- The invariant rule: an invariant of the state and of the events emitted so
far that every allowed action keeps holds at the end of every admissible run,
from any state and history in which it holds. -/
theorem invariant_from (M : Machine S A E) (inv : S → List E → Prop)
    (hstep : ∀ state past action, inv state past → allowed state action →
      inv (M.next state action) (past ++ M.emit state action))
    (actions : List A) {past : List E} (hinit : inv state past)
    (hrun : M.Admissible allowed state actions) :
    inv (M.run state actions) (past ++ M.trace state actions) := by
  induction actions generalizing state past with
  | nil => simpa [run, trace] using hinit
  | cons action rest ih =>
      have hnext := hstep state past action hinit hrun.1
      have hrest := ih hnext hrun.2
      simpa [run, trace, List.append_assoc] using hrest

theorem admissible_true (M : Machine S A E) (state : S) (actions : List A) :
    M.Admissible (fun _ _ => True) state actions := by
  induction actions generalizing state with
  | nil => exact trivial
  | cons action rest ih => exact ⟨trivial, ih (M.next state action)⟩

/-- The invariant rule for runs that are not restricted. -/
theorem invariant (M : Machine S A E) (inv : S → List E → Prop)
    (hstep : ∀ state past action, inv state past →
      inv (M.next state action) (past ++ M.emit state action))
    (actions : List A) {past : List E} (hinit : inv state past) :
    inv (M.run state actions) (past ++ M.trace state actions) :=
  M.invariant_from inv (fun state past action h _ => hstep state past action h)
    actions hinit (M.admissible_true state actions)

/-- The invariant rule for a property of the state alone. -/
theorem stateInvariant (M : Machine S A E) (inv : S → Prop)
    (hstep : ∀ state action, inv state → allowed state action →
      inv (M.next state action)) (actions : List A) (hinit : inv state)
    (hrun : M.Admissible allowed state actions) :
    inv (M.run state actions) := by
  induction actions generalizing state with
  | nil => exact hinit
  | cons action rest ih => exact ih (hstep state action hinit hrun.1) hrun.2

/-- A preorder that every step of an invariant state keeps is kept by runs. -/
theorem run_related (M : Machine S A E) (inv : S → Prop) (rel : S → S → Prop)
    (hrefl : ∀ state, rel state state)
    (htrans : ∀ first middle last, rel first middle → rel middle last →
      rel first last)
    (hstep : ∀ state action, inv state →
      inv (M.next state action) ∧ rel state (M.next state action))
    (actions : List A) (hinit : inv state) :
    rel state (M.run state actions) := by
  induction actions generalizing state with
  | nil => exact hrefl state
  | cons action rest ih =>
      obtain ⟨hinv, hrel⟩ := hstep state action hinit
      exact htrans _ _ _ hrel (ih hinv)

/-- Events of an admissible run that starts in an invariant state all satisfy
what each step guarantees. -/
theorem trace_forall_from (M : Machine S A E) (inv : S → Prop)
    (good : E → Prop)
    (hstep : ∀ state action, inv state → allowed state action →
      inv (M.next state action))
    (hemit : ∀ state action, inv state → ∀ event ∈ M.emit state action,
      good event) (actions : List A) (hinit : inv state)
    (hrun : M.Admissible allowed state actions) :
    ∀ event ∈ M.trace state actions, good event := by
  induction actions generalizing state with
  | nil => simp [trace]
  | cons action rest ih =>
      intro event hevent
      rcases List.mem_append.mp hevent with hhead | htail
      · exact hemit state action hinit event hhead
      · exact ih (hstep state action hinit hrun.1) hrun.2 event htail

/-- The same for runs that are not restricted. -/
theorem trace_forall (M : Machine S A E) (inv : S → Prop) (good : E → Prop)
    (hstep : ∀ state action, inv state → inv (M.next state action))
    (hemit : ∀ state action, inv state → ∀ event ∈ M.emit state action,
      good event) (actions : List A) (hinit : inv state) :
    ∀ event ∈ M.trace state actions, good event :=
  M.trace_forall_from inv good (fun state action h _ => hstep state action h)
    hemit actions hinit (M.admissible_true state actions)

/-- The same machine with the events emitted so far in its state, for runs
restricted by what has happened. -/
def logged (M : Machine S A E) : Machine (S × List E) A E where
  step now action :=
    ((M.next now.1 action, now.2 ++ M.emit now.1 action),
      M.emit now.1 action)

theorem logged_run (M : Machine S A E) (state : S) (past : List E)
    (actions : List A) :
    M.logged.run (state, past) actions =
      (M.run state actions, past ++ M.trace state actions) := by
  induction actions generalizing state past with
  | nil => rw [run, run, trace, List.append_nil]
  | cons action rest ih =>
      rw [run, run, trace, ← List.append_assoc]
      exact ih (M.next state action) (past ++ M.emit state action)

end Machine

end AiTeam
