/-
At most one employee is created for a claim, in every run.
-/
import AiTeam.Recruit.Calls

namespace AiTeam.Recruit

variable {runtime : Runtime} {state : State}

def Event.isClaim (orderId : Nat) : Event → Bool
  | .claimed id => id = orderId
  | .created _ _ => false

def Event.isCreation (orderId : Nat) : Event → Bool
  | .claimed _ => false
  | .created id _ => id = orderId

/-- The successful claims of an order. -/
def claims (orderId : Nat) (events : List Event) : Nat :=
  events.countP (Event.isClaim orderId)

/-- The employees created for an order. -/
def creations (orderId : Nat) (events : List Event) : Nat :=
  events.countP (Event.isCreation orderId)

theorem claims_append (orderId : Nat) (past new : List Event) :
    claims orderId (past ++ new) = claims orderId past + claims orderId new :=
  List.countP_append

theorem creations_append (orderId : Nat) (past new : List Event) :
    creations orderId (past ++ new) =
      creations orderId past + creations orderId new :=
  List.countP_append

/-- A solution claims an order for each employee it creates. -/
theorem creations_pairs (orderId : Nat) (created : List (Nat × Nat)) :
    creations orderId (created.flatMap fun entry =>
        [.claimed entry.1, .created entry.1 entry.2]) =
      claims orderId (created.flatMap fun entry =>
        [.claimed entry.1, .created entry.1 entry.2]) := by
  induction created with
  | nil => rfl
  | cons entry rest ih =>
      rw [List.flatMap_cons, creations_append, claims_append, ih]
      rfl

def pendingCount (orderId : Nat) (phase : Phase) : Nat :=
  if phase.pending orderId then 1 else 0

theorem broken_pending (orderId : Nat) (failure : Failure) (phase : Phase) :
    pendingCount orderId (broken failure phase) = 0 := by
  cases phase <;> rfl

/-- A creation uses up what its claim made pending. -/
theorem proceed_counts (runtime : Runtime) (operator : Operator) (db : Db)
    (phase : Phase) (orderId : Nat) :
    creations orderId (proceed runtime operator db phase).2.2 +
        pendingCount orderId (proceed runtime operator db phase).2.1 ≤
      claims orderId (proceed runtime operator db phase).2.2 +
        pendingCount orderId phase := by
  cases phase with
  | claiming request template slug =>
      simp only [proceed]
      split
      · exact Nat.le_refl _
      · next claimed order hclaim =>
          simp [creations, claims, pendingCount, Phase.pending,
            Event.isCreation, Event.isClaim, List.countP_cons]
  | publishing request template slug order plan =>
      simp only [proceed]
      split <;> simp [creations, claims, pendingCount, Phase.pending,
        Event.isCreation, Event.isClaim, List.countP_cons]
  | publishingSolution application =>
      simp only [proceed]
      split
      · exact Nat.le_refl _
      · rw [creations_pairs]
        exact Nat.le_refl _
  | preparing application rest =>
      cases rest with
      | nil => exact Nat.le_refl _
      | cons template rest =>
          simp only [proceed]
          repeat' split
          all_goals exact Nat.le_refl _
  | resolving => exact Nat.le_refl _
  | checkingSubjects request =>
      simp only [proceed]
      cases validateGrantSubjects runtime request.departmentIds
        request.memberIds db <;> exact Nat.le_refl _
  | checkingApplication request =>
      simp only [proceed]
      cases validateGrantSubjects runtime request.departmentIds
        request.memberIds db <;> exact Nat.le_refl _
  | finding request package =>
      simp only [proceed]
      split
      · exact Nat.le_refl _
      · cases checkPackage package <;> exact Nat.le_refl _
  | _ =>
      simp only [proceed]
      repeat' split
      all_goals exact Nat.le_refl _

theorem advance_counts (runtime : Runtime) (reply : Reply) (db : Db)
    (phase : Phase) (orderId : Nat) :
    creations orderId (advance runtime reply db phase).2.2 +
        pendingCount orderId (advance runtime reply db phase).2.1 ≤
      claims orderId (advance runtime reply db phase).2.2 +
        pendingCount orderId phase := by
  cases reply with
  | answered operator => exact proceed_counts runtime operator db phase orderId
  | refused failure =>
      change 0 + pendingCount orderId (broken failure phase) ≤ _
      rw [broken_pending]
      exact Nat.zero_le _
  | lost operator failure =>
      change creations orderId (proceed runtime operator db phase).2.2 +
        pendingCount orderId (broken failure phase) ≤ _
      rw [broken_pending]
      have hcounts := proceed_counts runtime operator db phase orderId
      exact Nat.le_trans (Nat.add_le_add_left (Nat.zero_le _) _) hcounts

theorem countP_set {i : Nat} {phase phase' : Phase} {calls : List Phase}
    (h : calls[i]? = some phase) (orderId : Nat) :
    (calls.set i phase').countP (Phase.pending orderId) +
        pendingCount orderId phase =
      calls.countP (Phase.pending orderId) + pendingCount orderId phase' := by
  have hmodify : calls.modify i (fun _ => phase') = calls.set i phase' :=
    modify_eq_set h
  rw [← hmodify]
  exact countP_modify (Phase.pending orderId) (fun _ => phase') calls i h

theorem step_counts (runtime : Runtime) (state : State) (action : Action)
    (orderId : Nat) :
    creations orderId ((machine runtime).emit state action) +
        ((machine runtime).next state action).calls.countP
          (Phase.pending orderId) ≤
      claims orderId ((machine runtime).emit state action) +
        state.calls.countP (Phase.pending orderId) := by
  cases action with
  | advance call reply =>
      change creations orderId (step runtime state (.advance call reply)).2 +
          (step runtime state (.advance call reply)).1.calls.countP _ ≤
        claims orderId (step runtime state (.advance call reply)).2 + _
      simp only [step]
      split
      · exact Nat.le_refl _
      · next phase hcall =>
          have hadvance := advance_counts runtime reply state.db phase orderId
          have hset : (state.calls.set call
              (advance runtime reply state.db phase).2.1).countP
                (Phase.pending orderId) + pendingCount orderId phase = _ :=
            countP_set hcall orderId
          simp only at hadvance hset ⊢
          omega
  | crash call =>
      change 0 + (state.calls.modify call killed).countP (Phase.pending orderId) ≤
        0 + state.calls.countP (Phase.pending orderId)
      cases hcall : state.calls[call]? with
      | none =>
          rw [List.modify_eq_self (List.getElem?_eq_none_iff.mp hcall)]
      | some phase =>
          have hset : (state.calls.set call (killed phase)).countP
              (Phase.pending orderId) + pendingCount orderId phase = _ :=
            countP_set hcall orderId
          have hzero : pendingCount orderId (killed phase) = 0 := by
            cases phase <;> rfl
          rw [modify_eq_set hcall]
          omega
  | recruit request =>
      change 0 + (state.calls ++ [_]).countP (Phase.pending orderId) ≤ 0 + _
      rw [List.countP_append]
      exact Nat.le_refl _
  | apply request =>
      change 0 + (state.calls ++ [_]).countP (Phase.pending orderId) ≤ 0 + _
      rw [List.countP_append]
      exact Nat.le_refl _
  | _ => exact Nat.le_refl _

/-- An order has at most one employee for each time it was claimed. -/
theorem creations_le_claims (runtime : Runtime) (actions : List Action)
    (orderId : Nat) :
    creations orderId ((machine runtime).trace empty actions) ≤
      claims orderId ((machine runtime).trace empty actions) := by
  have hinit : creations orderId [] +
      empty.calls.countP (Phase.pending orderId) ≤ claims orderId [] :=
    Nat.le_refl _
  have hrun := (machine runtime).invariant (fun state past =>
      creations orderId past + state.calls.countP (Phase.pending orderId) ≤
        claims orderId past)
    (fun state past action h => by
      have hstep := step_counts runtime state action orderId
      rw [creations_append, claims_append]
      omega) actions hinit
  rw [List.nil_append] at hrun
  exact Nat.le_trans (Nat.le_add_right _ _) hrun

end AiTeam.Recruit
