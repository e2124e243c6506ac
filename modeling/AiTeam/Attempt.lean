/-
Computations that read and write a state and may fail; what was written before
a failure stays.  When they give a value, and what they keep of the state.
-/
import Mathlib.Order.Defs.Unbundled

namespace AiTeam

universe u

/-- An asynchronous function between two awaits: it runs to its end, or throws
and leaves what it has written. -/
abbrev Attempt (S ε : Type u) (α : Type u) := ExceptT ε (StateM S) α

namespace Attempt

variable {S ε α β : Type u}

/-- How the computation ends from a state. -/
def outcome (x : Attempt S ε α) (state : S) : Except ε α × S :=
  StateT.run (ExceptT.run x) state

def require (c : Prop) [Decidable c] (error : ε) : Attempt S ε PUnit :=
  if c then pure PUnit.unit else throw error

def demand (value : Option α) (error : ε) : Attempt S ε α :=
  match value with
  | some a => pure a
  | none => throw error

/-- What an awaited call has answered. -/
def answer (reply : Except ε α) : Attempt S ε α :=
  match reply with
  | .ok a => pure a
  | .error error => throw error

/-- `fn().catch(handler)`. -/
def recover (x : Attempt S ε α) (handler : ε → α) : Attempt S ε α :=
  tryCatch x fun error => pure (handler error)

/-! ### How computations end -/

@[simp] theorem outcome_pure (a : α) (state : S) :
    outcome (pure a : Attempt S ε α) state = (.ok a, state) := rfl

@[simp] theorem outcome_throw (error : ε) (state : S) :
    outcome (throw error : Attempt S ε α) state = (.error error, state) := rfl

@[simp] theorem outcome_get (state : S) :
    outcome (get : Attempt S ε S) state = (.ok state, state) := rfl

@[simp] theorem outcome_modify (change : S → S) (state : S) :
    outcome (modify change : Attempt S ε PUnit) state =
      (.ok PUnit.unit, change state) := rfl

@[simp] theorem outcome_modifyGet (change : S → α × S) (state : S) :
    outcome (modifyGet change : Attempt S ε α) state =
      (.ok (change state).1, (change state).2) := rfl

theorem outcome_bind (x : Attempt S ε α) (f : α → Attempt S ε β) (state : S) :
    outcome (x >>= f) state =
      match outcome x state with
      | (.ok a, state') => outcome (f a) state'
      | (.error error, state') => (.error error, state') := by
  simp only [outcome, bind, ExceptT.bind, ExceptT.run, ExceptT.mk, StateT.run,
    StateT.bind]
  rcases x state with ⟨result, state'⟩
  cases result <;> rfl

theorem outcome_recover (x : Attempt S ε α) (handler : ε → α) (state : S) :
    outcome (recover x handler) state =
      match outcome x state with
      | (.ok a, state') => (.ok a, state')
      | (.error error, state') => (.ok (handler error), state') := by
  simp only [outcome, recover, tryCatch, tryCatchThe, MonadExceptOf.tryCatch,
    ExceptT.tryCatch, ExceptT.run, ExceptT.mk, StateT.run, bind, StateT.bind]
  rcases x state with ⟨result, state'⟩
  cases result <;> rfl

/-! ### Values -/

/-- The computation gives a value and ends in a state. -/
def Gives (x : Attempt S ε α) (state : S) (a : α) (state' : S) : Prop :=
  outcome x state = (.ok a, state')

variable {state state' : S} {a : α}

theorem gives_pure {b : α} :
    Gives (pure a : Attempt S ε α) state b state' ↔
      b = a ∧ state' = state := by
  simp [Gives, eq_comm]

theorem gives_bind {x : Attempt S ε α} {f : α → Attempt S ε β} {b : β}
    {state'' : S} :
    Gives (x >>= f) state b state'' ↔
      ∃ a state', Gives x state a state' ∧ Gives (f a) state' b state'' := by
  simp only [Gives, outcome_bind]
  rcases outcome x state with ⟨result, middle⟩
  cases result with
  | ok value =>
      constructor
      · exact fun h => ⟨value, middle, rfl, h⟩
      · rintro ⟨a, state', hfirst, h⟩
        obtain ⟨hvalue, rfl⟩ := Prod.mk.inj hfirst
        rwa [Except.ok.inj hvalue]
  | error error => simp

theorem gives_get {a : S} :
    Gives (get : Attempt S ε S) state a state' ↔
      a = state ∧ state' = state := by
  simp [Gives, eq_comm]

theorem gives_modifyGet {change : S → α × S} :
    Gives (modifyGet change : Attempt S ε α) state a state' ↔
      a = (change state).1 ∧ state' = (change state).2 := by
  simp [Gives, eq_comm]

theorem gives_require {c : Prop} [Decidable c] {error : ε} {a : PUnit} :
    Gives (require c error : Attempt S ε PUnit) state a state' ↔
      c ∧ state' = state := by
  rw [require]
  split
  · next hc => simp [Gives, hc, eq_comm]
  · next hc => simp [Gives, hc]

theorem gives_demand {value : Option α} {error : ε} :
    Gives (demand value error : Attempt S ε α) state a state' ↔
      value = some a ∧ state' = state := by
  cases value <;> simp [Gives, demand, eq_comm]

/-! ### What is kept -/

/-- The computation moves the state only along a relation, whether it fails or
not. -/
def Keeps (R : S → S → Prop) (x : Attempt S ε α) : Prop :=
  ∀ state, R state (outcome x state).2

section

variable {R : S → S → Prop}

theorem Keeps.modify {change : S → S} (h : ∀ state, R state (change state)) :
    Keeps R (MonadState.modifyGet fun state => (PUnit.unit, change state) :
      Attempt S ε PUnit) := h

theorem Keeps.modifyGet {change : S → α × S}
    (h : ∀ state, R state (change state).2) :
    Keeps R (MonadState.modifyGet change : Attempt S ε α) := h

variable [IsPreorder S R]

theorem Keeps.pure (a : α) : Keeps R (Pure.pure a : Attempt S ε α) :=
  fun state => refl_of R state

theorem Keeps.get : Keeps R (MonadState.get : Attempt S ε S) :=
  fun state => refl_of R state

theorem Keeps.require (c : Prop) [Decidable c] (error : ε) :
    Keeps R (Attempt.require c error : Attempt S ε PUnit) := by
  intro state
  rw [Attempt.require]
  split
  · exact refl_of R state
  · exact refl_of R state

theorem Keeps.demand (value : Option α) (error : ε) :
    Keeps R (Attempt.demand value error : Attempt S ε α) := by
  intro state
  cases value with
  | none => exact refl_of R state
  | some a => exact refl_of R state

theorem Keeps.answer (reply : Except ε α) :
    Keeps R (Attempt.answer reply : Attempt S ε α) := by
  intro state
  cases reply with
  | ok a => exact refl_of R state
  | error error => exact refl_of R state

theorem Keeps.bind {x : Attempt S ε α} {f : α → Attempt S ε β}
    (hx : Keeps R x) (hf : ∀ a, Keeps R (f a)) : Keeps R (x >>= f) := by
  intro state
  have hfirst := hx state
  rw [outcome_bind]
  rcases h : outcome x state with ⟨result, middle⟩
  rw [h] at hfirst
  cases result with
  | ok a => exact trans_of R hfirst (hf a middle)
  | error error => exact hfirst

end

end Attempt

end AiTeam
