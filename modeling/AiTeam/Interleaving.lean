/-
Calls that interleave over one store, a statement at a time, and the rule of
rely and guarantee for them: what a call knows of the store has to survive what
the statements of the other calls do to it.
-/
import AiTeam.Machine
import Mathlib.Data.List.Basic
import Mathlib.Tactic.ByContra

namespace AiTeam

universe u v w x y z

/-- A service: how a request becomes a call, what the next statement of a call
does, and what happens to the store from outside.  A choice settles what a
statement leaves open. -/
structure Service (D : Type u) (C : Type v) (R : Type w) (X : Type x)
    (A : Type y) (E : Type z) where
  start : D → R → C
  statement : D → X → C → D × C × List E
  outside : D → A → D × List E

structure World (D : Type u) (C : Type v) where
  store : D
  calls : List C
deriving DecidableEq

/-- A request arrives, a call runs its next statement, or the store changes
from outside.  A call that crashes is one that does not go on. -/
inductive Act (R : Type w) (X : Type x) (A : Type y) where
  | request (request : R)
  | proceed (index : Nat) (choice : X)
  | outside (action : A)
deriving DecidableEq

/-! ### Lists of calls -/

theorem getElem?_concat {C : Type v} {calls : List C} {new : C}
    {place : Nat} {call : C} (h : (calls ++ [new])[place]? = some call) :
    calls[place]? = some call ∨ call = new ∧ place = calls.length := by
  by_cases hold : place < calls.length
  · rw [List.getElem?_append_left hold] at h
    exact Or.inl h
  · rw [List.getElem?_append_right (Nat.le_of_not_lt hold)] at h
    have hplace : place - calls.length = 0 := by
      by_contra hne
      rw [List.getElem?_eq_none (by simp; omega)] at h
      cases h
    rw [hplace] at h
    exact Or.inr ⟨(Option.some.inj h).symm, by omega⟩

theorem forall_set {C : Type v} {calls : List C} {P : C → Prop}
    (h : ∀ call ∈ calls, P call) (index : Nat) {next : C} (hnext : P next) :
    ∀ call ∈ calls.set index next, P call := by
  intro call hcall
  rcases List.mem_or_eq_of_mem_set hcall with hold | rfl
  · exact h call hold
  · exact hnext

/-- The other calls are not touched. -/
theorem mem_set_of_ne {C : Type v} {calls : List C} {index : Nat}
    {call other : C} (hcall : calls[index]? = some call)
    (hother : other ∈ calls) (hne : other ≠ call) (next : C) :
    other ∈ calls.set index next := by
  obtain ⟨place, hplace⟩ := List.mem_iff_getElem?.mp hother
  have hapart : index ≠ place := by
    rintro rfl
    rw [hplace] at hcall
    exact hne (Option.some.inj hcall)
  apply List.mem_iff_getElem?.mpr
  exact ⟨place, by rw [List.getElem?_set_ne hapart, hplace]⟩

namespace Service

variable {D : Type u} {C : Type v} {R : Type w} {X : Type x} {A : Type y}
  {E : Type z}

def step (S : Service D C R X A E) (world : World D C) :
    Act R X A → World D C × List E
  | .request request =>
      (⟨world.store, world.calls ++ [S.start world.store request]⟩, [])
  | .proceed index choice =>
      match world.calls[index]? with
      | none => (world, [])
      | some call =>
          let (store, next, events) := S.statement world.store choice call
          (⟨store, world.calls.set index next⟩, events)
  | .outside action =>
      let (store, events) := S.outside world.store action
      (⟨store, world.calls⟩, events)

def machine (S : Service D C R X A E) :
    Machine (World D C) (Act R X A) E where
  step := S.step

/-- No call is under way. -/
def idle (store : D) : World D C := ⟨store, []⟩

/-- What runs may be asked to keep: a condition on the statements, and one on
what happens from outside. -/
def Restricted (statement : D → X → C → Prop) (outside : D → A → Prop)
    (world : World D C) : Act R X A → Prop
  | .request _ => True
  | .proceed index choice =>
      ∀ call ∈ world.calls[index]?, statement world.store choice call
  | .outside action => outside world.store action

instance (statement : D → X → C → Prop) (outside : D → A → Prop)
    [∀ store choice call, Decidable (statement store choice call)]
    [∀ store action, Decidable (outside store action)]
    (world : World D C) :
    (act : Act R X A) → Decidable (Restricted statement outside world act)
  | .request _ => isTrue trivial
  | .proceed index choice => inferInstanceAs (Decidable
      (∀ call ∈ world.calls[index]?, statement world.store choice call))
  | .outside action => inferInstanceAs (Decidable
      (outside world.store action))

/-- Runs that nothing is asked of. -/
theorem admissible_free (S : Service D C R X A E) (acts : List (Act R X A))
    (world : World D C) :
    S.machine.Admissible (Restricted (fun _ _ _ => True) fun _ _ => True)
      world acts := by
  induction acts generalizing world with
  | nil => exact trivial
  | cons act rest ih =>
      refine ⟨?_, ih (S.machine.next world act)⟩
      cases act with
      | request request => exact trivial
      | proceed index choice => exact fun _ _ => trivial
      | outside action => exact trivial

/-- An invariant of the store and the past events, what every call knows of
both, and what keeps two calls apart.  A statement has to leave the other calls
what they know. -/
structure Proof (S : Service D C R X A E) (statement : D → X → C → Prop)
    (outside : D → A → Prop) where
  inv : D → List E → Prop
  knows : D → List E → C → Prop
  apart : C → C → Prop
  symm : ∀ {call other}, apart call other → apart other call
  starts : ∀ {store past}, inv store past → ∀ request,
    knows store past (S.start store request) ∧
      ∀ other, knows store past other → apart (S.start store request) other
  keeps : ∀ {store past choice call}, inv store past →
    knows store past call → statement store choice call →
    let result := S.statement store choice call
    inv result.1 (past ++ result.2.2) ∧
      knows result.1 (past ++ result.2.2) result.2.1 ∧
      ∀ other, knows store past other → apart call other →
        knows result.1 (past ++ result.2.2) other ∧ apart result.2.1 other
  bears : ∀ {store past action}, inv store past → outside store action →
    let result := S.outside store action
    inv result.1 (past ++ result.2) ∧
      ∀ call, knows store past call → knows result.1 (past ++ result.2) call

variable {world : World D C} {past : List E} {store : D} {onward : D → D → Prop}

section

variable {S : Service D C R X A E} {statement : D → X → C → Prop}
  {outside : D → A → Prop}

/-- The invariant holds, every call knows what it should, and any two of them
are apart. -/
structure Proof.Holds (P : Proof S statement outside) (world : World D C)
    (past : List E) : Prop where
  inv : P.inv world.store past
  knows : ∀ call ∈ world.calls, P.knows world.store past call
  apart : ∀ (i j : Nat) (call other : C), i ≠ j →
    world.calls[i]? = some call → world.calls[j]? = some other →
    P.apart call other

theorem Proof.step_request (P : Proof S statement outside)
    (h : P.Holds world past) (request : R) :
    P.Holds ⟨world.store, world.calls ++ [S.start world.store request]⟩
      past := by
  obtain ⟨hknows, hapart⟩ := P.starts h.inv request
  constructor
  · exact h.inv
  · intro call hcall
    rcases List.mem_append.mp hcall with hold | hnew
    · exact h.knows call hold
    · rw [List.mem_singleton.mp hnew]
      exact hknows
  · intro i j call other hne hcall hother
    -- The new call is the one in the last place.
    rcases getElem?_concat hcall with hleft | ⟨rfl, hi⟩
    · rcases getElem?_concat hother with hright | ⟨rfl, hj⟩
      · exact h.apart i j call other hne hleft hright
      · exact P.symm (hapart call (h.knows call (List.mem_of_getElem? hleft)))
    · rcases getElem?_concat hother with hright | ⟨rfl, hj⟩
      · exact hapart other (h.knows other (List.mem_of_getElem? hright))
      · exact absurd (hi.trans hj.symm) hne

theorem Proof.step_proceed (P : Proof S statement outside)
    (h : P.Holds world past) {index : Nat} {choice : X} {call : C}
    (hcall : world.calls[index]? = some call)
    (hallowed : statement world.store choice call) :
    P.Holds ⟨(S.statement world.store choice call).1,
        world.calls.set index (S.statement world.store choice call).2.1⟩
      (past ++ (S.statement world.store choice call).2.2) := by
  have hmem := List.mem_of_getElem? hcall
  obtain ⟨hinv, hself, hothers⟩ :=
    P.keeps h.inv (h.knows call hmem) hallowed
  have hplace : ∀ {place : Nat} {other : C}, place ≠ index →
      world.calls[place]? = some other →
      P.knows (S.statement world.store choice call).1
          (past ++ (S.statement world.store choice call).2.2) other ∧
        P.apart (S.statement world.store choice call).2.1 other := by
    intro place other hne hother
    exact hothers other (h.knows other (List.mem_of_getElem? hother))
      (h.apart index place call other hne.symm hcall hother)
  constructor
  · exact hinv
  · intro other hother
    obtain ⟨place, hat⟩ := List.mem_iff_getElem?.mp hother
    by_cases hne : place = index
    · subst hne
      have hlen := (List.getElem?_eq_some_iff.mp hcall).1
      rw [List.getElem?_set_self hlen] at hat
      rw [← Option.some.inj hat]
      exact hself
    · rw [List.getElem?_set_ne (Ne.symm hne)] at hat
      exact (hplace hne hat).1
  · intro i j left right hne hleft hright
    have hlen := (List.getElem?_eq_some_iff.mp hcall).1
    by_cases hi : i = index
    · subst hi
      rw [List.getElem?_set_self hlen] at hleft
      rw [List.getElem?_set_ne hne] at hright
      rw [← Option.some.inj hleft]
      exact (hplace hne.symm hright).2
    · rw [List.getElem?_set_ne (Ne.symm hi)] at hleft
      by_cases hj : j = index
      · subst hj
        rw [List.getElem?_set_self hlen] at hright
        rw [← Option.some.inj hright]
        exact P.symm (hplace hi hleft).2
      · rw [List.getElem?_set_ne (Ne.symm hj)] at hright
        exact h.apart i j left right hne hleft hright

theorem Proof.step (P : Proof S statement outside) {act : Act R X A}
    (h : P.Holds world past)
    (hallowed : Restricted statement outside world act) :
    P.Holds (S.machine.next world act)
      (past ++ S.machine.emit world act) := by
  cases act with
  | request request =>
      simp only [Machine.next, Machine.emit, machine, Service.step,
        List.append_nil]
      exact P.step_request h request
  | proceed index choice =>
      simp only [Machine.next, Machine.emit, machine, Service.step]
      cases hcall : world.calls[index]? with
      | none => simpa using h
      | some call => exact P.step_proceed h hcall (hallowed call hcall)
  | outside action =>
      simp only [Machine.next, Machine.emit, machine, Service.step]
      obtain ⟨hinv, hcalls⟩ := P.bears h.inv hallowed
      constructor
      · exact hinv
      · intro call hcall
        exact hcalls call (h.knows call hcall)
      · exact h.apart

theorem Proof.holds_idle (P : Proof S statement outside)
    (hinit : P.inv store []) : P.Holds (idle store) [] := by
  constructor
  · exact hinit
  · intro call hcall
    exact absurd hcall List.not_mem_nil
  · intro i j call other _ hcall
    simp [idle] at hcall

/-- The rule: every run that keeps to the conditions ends in the invariant. -/
theorem Proof.run (P : Proof S statement outside) (hinit : P.inv store [])
    (acts : List (Act R X A))
    (hrun : S.machine.Admissible (Restricted statement outside) (idle store)
      acts) :
    P.Holds (S.machine.run (idle store) acts)
      (S.machine.trace (idle store) acts) := by
  have hholds := S.machine.invariant_from P.Holds
    (fun _ _ _ h hallowed => P.step h hallowed) acts (P.holds_idle hinit) hrun
  rwa [List.nil_append] at hholds

/-! ### What never goes back -/

/-- A relation that every statement and every action from outside keeps to. -/
structure Proof.Progress (P : Proof S statement outside)
    (onward : D → D → Prop) : Prop where
  refl : ∀ store, onward store store
  trans : ∀ {first second third}, onward first second →
    onward second third → onward first third
  keeps : ∀ {store past choice call}, P.inv store past →
    P.knows store past call → statement store choice call →
    onward store (S.statement store choice call).1
  bears : ∀ {store past action}, P.inv store past → outside store action →
    onward store (S.outside store action).1

variable {P : Proof S statement outside}

theorem Proof.Progress.step (progress : P.Progress onward) {act : Act R X A}
    (h : P.Holds world past)
    (hallowed : Restricted statement outside world act) :
    onward world.store (S.machine.next world act).store := by
  cases act with
  | request request => exact progress.refl world.store
  | proceed index choice =>
      simp only [Machine.next, machine, Service.step]
      cases hcall : world.calls[index]? with
      | none => exact progress.refl world.store
      | some call =>
          have hknows := h.knows call (List.mem_of_getElem? hcall)
          exact progress.keeps h.inv hknows (hallowed call hcall)
  | outside action => exact progress.bears h.inv hallowed

theorem Proof.Progress.run_from (progress : P.Progress onward)
    (acts : List (Act R X A)) (h : P.Holds world past)
    (hrun : S.machine.Admissible (Restricted statement outside) world acts) :
    onward world.store (S.machine.run world acts).store := by
  induction acts generalizing world past with
  | nil => exact progress.refl world.store
  | cons act rest ih =>
      have hfirst := progress.step h hrun.1
      have hrest := ih (P.step h hrun.1) hrun.2
      exact progress.trans hfirst hrest

/-- The relation holds between any moment of a run and its end. -/
theorem Proof.Progress.run (progress : P.Progress onward)
    (hinit : P.inv store []) {first last : List (Act R X A)}
    (hrun : S.machine.Admissible (Restricted statement outside) (idle store)
      (first ++ last)) :
    onward (S.machine.run (idle store) first).store
      (S.machine.run (idle store) (first ++ last)).store := by
  have hfirst := P.run hinit first (Machine.admissible_left hrun)
  rw [Machine.run_append]
  exact progress.run_from last hfirst (Machine.admissible_right hrun)

end

end Service

end AiTeam
