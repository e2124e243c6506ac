/-
The calls in flight and the orders they hold: in a careful run a running order
has exactly one call that will settle it.
-/
import AiTeam.Recruit.Publication

namespace AiTeam.Recruit

variable {runtime : Runtime} {db db' : Db} {state : State}

/-- The order a call has claimed and not yet settled. -/
def Phase.held : Phase → Option Order
  | .resolving _ _ _ order => some order
  | .publishing _ _ _ order _ => some order
  | .failing order _ => some order
  | _ => none

/-- The call has claimed the order and may still publish it. -/
def Phase.pending (orderId : Nat) : Phase → Bool
  | .resolving _ _ _ order => order.id = orderId
  | .publishing _ _ _ order _ => order.id = orderId
  | _ => false

def Phase.done : Phase → Bool
  | .finished _ => true
  | .crashed => true
  | _ => false

def Reply.isLost : Reply → Bool
  | .lost _ _ => true
  | _ => false

def Reply.isRefused : Reply → Bool
  | .refused _ => true
  | _ => false

/-- Slugs of claims have no colon, the answer to a claim and to the publication
of a claimed order reaches the caller, and its failure is written. -/
def CarefulReply : Phase → Reply → Prop
  | .claiming _ _ slug, reply => Plain slug ∧ reply.isLost = false
  | .publishing _ _ _ _ _, reply => reply.isLost = false
  | .failing _ _, reply => reply.isRefused = false
  | .publishingSolution application, _ =>
      ∀ item ∈ application.prepared, item.previous = none → Plain item.slug
  | _, _ => True

instance (phase : Phase) (reply : Reply) :
    Decidable (CarefulReply phase reply) := by
  cases phase <;> unfold CarefulReply <;> infer_instance

/-- Besides: no call dies that holds an order, and no employee is deleted that
a succeeded order names. -/
def Careful (state : State) : Action → Prop
  | .advance call reply =>
      ∀ phase ∈ state.calls[call]?, CarefulReply phase reply
  | .crash call => ∀ phase ∈ state.calls[call]?, phase.held.isNone
  | .delete id => ∀ order ∈ state.db.orders,
      order.status = .succeeded → order.createdEmployeeId ≠ some id
  | _ => True

instance (state : State) (action : Action) :
    Decidable (Careful state action) := by
  cases action <;> unfold Careful <;> infer_instance

/-! ### Invariant -/

/-- The coordinator is among the experts of an application. -/
def Led (application : Application) (rest : List Template) : Prop :=
  application.coordinator ∈
    application.prepared.map (fun item => item.template.templateId) ++
      rest.map Template.templateId

def PhaseOk (db : Db) : Phase → Prop
  | .resolving _ template slug order => Holds db template slug order
  | .publishing _ template slug order _ => Holds db template slug order
  | .failing order _ => order ∈ db.orders ∧ order.status = .provisioning
  | .preparing application rest => Led application rest
  | .slugging application template rest => Led application (template :: rest)
  | .packing application template _ rest => Led application (template :: rest)
  | .publishingSolution application => Led application []
  | _ => True

variable {order : Order} {phase' : Phase}

theorem PhaseOk.held {phase : Phase} (h : PhaseOk db phase)
    (hheld : phase.held = some order) :
    order ∈ db.orders ∧ order.status = .provisioning := by
  cases phase
  case resolving =>
    cases hheld
    exact ⟨Holds.mem h, Holds.status h⟩
  case publishing =>
    cases hheld
    exact ⟨Holds.mem h, Holds.status h⟩
  case failing =>
    cases hheld
    exact h
  all_goals exact nomatch hheld

theorem PhaseOk.keep {phase : Phase} (h : PhaseOk db phase)
    (hkept : ∀ order, phase.held = some order → order ∈ db'.orders) :
    PhaseOk db' phase := by
  cases phase
  case resolving =>
    exact ⟨hkept _ rfl, Holds.status h, Holds.source h, Holds.key h⟩
  case publishing =>
    exact ⟨hkept _ rfl, Holds.status h, Holds.source h, Holds.key h⟩
  case failing => exact ⟨hkept _ rfl, h.2⟩
  all_goals exact h

structure Invariant (state : State) : Prop where
  sound : Sound state.db
  phases : ∀ phase ∈ state.calls, PhaseOk state.db phase
  apart : ∀ {i j : Nat} {left right : Phase} {order order' : Order},
    state.calls[i]? = some left → state.calls[j]? = some right →
    left.held = some order → right.held = some order' →
    order.id = order'.id → i = j
  owned : ∀ order ∈ state.db.orders, order.status = .provisioning →
    ∃ phase ∈ state.calls, phase.held = some order

/-! ### One step of a call -/

/-- What a step of a call does to the orders. -/
structure Advanced (db : Db) (phase : Phase) (db' : Db) (phase' : Phase) :
    Prop where
  sound : Sound db'
  ok : PhaseOk db' phase'
  kept : ∀ order ∈ db.orders,
    order.status = .provisioning ∨ order.status = .succeeded →
    (∀ held, phase.held = some held → order.id ≠ held.id) →
    order ∈ db'.orders
  running : ∀ order ∈ db'.orders, order.status = .provisioning →
    phase'.held = some order ∨ order ∈ db.orders ∧
      ∀ held, phase.held = some held → order.id ≠ held.id
  fresh : ∀ order, phase'.held = some order → phase.held = some order ∨
    ∀ old ∈ db.orders, old.id = order.id → old.status ≠ .provisioning

/-- A step that leaves the tables as they are. -/
theorem Advanced.stay {phase : Phase} (hsound : Sound db)
    (hok : PhaseOk db phase) (hok' : PhaseOk db phase')
    (hheld : phase'.held = phase.held) : Advanced db phase db phase' where
  sound := hsound
  ok := hok'
  kept := fun _ hmem _ _ => hmem
  running := by
    intro order hmem hstatus
    by_cases hsame : ∀ held, phase.held = some held → order.id ≠ held.id
    · exact Or.inr ⟨hmem, hsame⟩
    · push Not at hsame
      obtain ⟨held, hphase, hid⟩ := hsame
      rw [hheld, hphase, hsound.ledger.ids.eq_of_key hmem
        (hok.held hphase).1 hid]
      exact Or.inl rfl
  fresh := fun order horder => Or.inl (by rw [← hheld, horder])

/-- A step of a call that holds nothing, and that other calls do not see. -/
theorem Advanced.unseen {phase : Phase} (h : Progress (fun _ => False) db db')
    (hok' : PhaseOk db' phase') (hnone : phase.held = none)
    (hnone' : phase'.held = none) :
    Advanced db phase db' phase' where
  sound := h.sound
  ok := hok'
  kept := fun order hmem hstatus _ => h.keeps.kept order hmem hstatus id
  running := by
    intro order hmem hstatus
    refine Or.inr ⟨h.keeps.running order hmem hstatus id, ?_⟩
    intro held hheld
    rw [hnone] at hheld
    exact nomatch hheld
  fresh := by
    intro order horder
    rw [hnone'] at horder
    exact nomatch horder

/-- A step that settles the order it holds. -/
theorem Advanced.settle {phase : Phase} (h : Progress (· = order.id) db db')
    (hok' : PhaseOk db' phase') (hheld : phase.held = some order)
    (hnone' : phase'.held = none) :
    Advanced db phase db' phase' where
  sound := h.sound
  ok := hok'
  kept := fun other hmem hstatus hne =>
    h.keeps.kept other hmem hstatus (hne order hheld)
  running := by
    intro other hmem hstatus
    have hne : other.id ≠ order.id := fun hsame =>
      h.closed other hmem hsame hstatus
    refine Or.inr ⟨h.keeps.running other hmem hstatus hne, ?_⟩
    intro held hphase
    rw [hheld, Option.some.injEq] at hphase
    rw [← hphase]
    exact hne
  fresh := by
    intro other hother
    rw [hnone'] at hother
    exact nomatch hother

variable {phase : Phase}

theorem Led.snoc {application : Application} {template : Template}
    {rest : List Template} (h : Led application (template :: rest))
    (previous : Option Nat) (slug : String) (plan : SkillPlan) :
    Led { application with
      prepared := application.prepared ++ [⟨template, previous, slug, plan⟩] }
      rest := by
  unfold Led at h ⊢
  simpa [or_assoc] using h

theorem markFailed_of_provisioning (failure : Failure)
    (h : order.status = .provisioning) : order.markFailed failure =
      .ok { order with
        status := .failed, errorCode := some failure.code
        errorMessage := some failure.message } := by
  rw [Order.markFailed, if_pos h]

/-- Marking a claimed order as failed. -/
theorem updateOrder_failed (hsound : Sound db) (failure : Failure)
    (hmem : order ∈ db.orders) :
    Progress (· = order.id) db (updateOrder { order with
      status := .failed, errorCode := some failure.code
      errorMessage := some failure.message } db) := by
  have hsettled : Settled db _ { order with
      status := .failed, errorCode := some failure.code
      errorMessage := some failure.message } :=
    updateOrder_settled hsound.ledger hmem rfl (Or.inl rfl)
  refine ⟨hsettled.sound hsound, hsettled.keeps, ?_⟩
  intro row hrow hsame
  rw [hsettled.closed row hrow hsame]
  exact nofun

theorem proceed_advanced (hsound : Sound db) (hok : PhaseOk db phase)
    (operator : Operator)
    (hcareful : CarefulReply phase (.answered operator)) :
    Advanced db phase (proceed runtime operator db phase).1
      (proceed runtime operator db phase).2.1 := by
  cases phase with
  | checkingSubjects request =>
      refine Advanced.stay hsound hok ?_ ?_ <;> simp only [proceed] <;>
        cases validateGrantSubjects runtime request.departmentIds
          request.memberIds db <;> trivial
  | pullingTemplate request => exact Advanced.stay hsound hok trivial rfl
  | lookingUp request template =>
      simp only [proceed]
      split
      · exact Advanced.stay hsound hok trivial rfl
      · cases request.employeeSlug with
        | none => exact Advanced.stay hsound hok trivial rfl
        | some slug =>
            simp only
            split <;> exact Advanced.stay hsound hok trivial rfl
  | naming request template tried =>
      simp only [proceed]
      repeat' split
      all_goals exact Advanced.stay hsound hok trivial rfl
  | confirming request template slug =>
      simp only [proceed]
      split <;> exact Advanced.stay hsound hok trivial rfl
  | claiming request template slug =>
      simp only [proceed]
      split
      · exact Advanced.stay hsound hok trivial rfl
      · next claimed order hclaim =>
          have h := claimProvisioning_claimed hsound.ledger hcareful.1 hclaim
          have hidle : ∀ old ∈ db.orders, old.id = order.id →
              old.status ≠ .provisioning ∧ old.status ≠ .succeeded := by
            intro old hold hsame
            rw [h.idle old hold hsame]
            exact ⟨nofun, nofun⟩
          refine ⟨h.sound hsound, ⟨h.mem, h.status, h.template, h.key⟩, ?_,
            ?_, ?_⟩
          · intro old hold hstatus _
            refine h.keeps.kept old hold hstatus fun hsame => ?_
            rcases hstatus with hs | hs
            · exact (hidle old hold hsame).1 hs
            · exact (hidle old hold hsame).2 hs
          · intro other hother hstatus
            by_cases hsame : other.id = order.id
            · left
              rw [h.ledger.ids.eq_of_key hother h.mem hsame]
              rfl
            · exact Or.inr ⟨h.keeps.running other hother hstatus hsame,
                fun _ hheld => nomatch hheld⟩
          · intro other hother
            cases hother
            exact Or.inr fun old hold hsame => (hidle old hold hsame).1
  | resolving request template slug order =>
      exact Advanced.stay hsound hok hok rfl
  | publishing request template slug order plan =>
      simp only [proceed]
      split
      · exact Advanced.stay hsound hok ⟨Holds.mem hok, Holds.status hok⟩ rfl
      · next published id hpublish =>
          exact Advanced.settle (publishExpert_ok hsound hok hpublish).1 trivial
            rfl rfl
  | failing order failure =>
      simp only [proceed, markFailed_of_provisioning _ hok.2]
      exact Advanced.settle (updateOrder_failed hsound
        ⟨failure.code, String.ofList (failure.message.toList.take 1000)⟩
        hok.1) trivial rfl rfl
  | checkingApplication request =>
      refine Advanced.stay hsound hok ?_ ?_ <;> simp only [proceed] <;>
        cases validateGrantSubjects runtime request.departmentIds
          request.memberIds db <;> trivial
  | pullingPackage request => exact Advanced.stay hsound hok trivial rfl
  | finding request package =>
      simp only [proceed]
      split
      · exact Advanced.stay hsound hok trivial rfl
      · cases hcheck : checkPackage package with
        | error failure => exact Advanced.stay hsound hok trivial rfl
        | ok checked =>
            refine Advanced.stay hsound hok ?_ rfl
            unfold checkPackage at hcheck
            simp only at hcheck
            split at hcheck
            · exact nomatch hcheck
            · split at hcheck
              · exact nomatch hcheck
              · next hmem =>
                  rw [← Except.ok.inj hcheck]
                  exact not_not.mp hmem
  | preparing application rest =>
      cases rest with
      | nil => exact Advanced.stay hsound hok hok rfl
      | cons template rest =>
          simp only [proceed]
          split
          · exact Advanced.stay hsound hok trivial rfl
          · split
            · exact Advanced.stay hsound hok (Led.snoc hok _ _ _) rfl
            · exact Advanced.stay hsound hok hok rfl
  | slugging application template rest =>
      simp only [proceed]
      split
      · exact Advanced.stay hsound hok trivial rfl
      · exact Advanced.stay hsound hok hok rfl
  | packing application template slug rest =>
      exact Advanced.stay hsound hok (Led.snoc hok _ _ _) rfl
  | publishingSolution application =>
      simp only [proceed]
      split
      · exact Advanced.stay hsound hok trivial rfl
      · next published row created hpublish =>
          have hled : application.coordinator ∈ application.prepared.map
              fun item => item.template.templateId := by
            have happ : Led application [] := hok
            simpa [Led] using happ
          exact Advanced.unseen (publishSolution_ok hsound hcareful hled
            hpublish).1 trivial rfl rfl
  | finished result => exact Advanced.stay hsound hok trivial rfl
  | crashed => exact Advanced.stay hsound hok trivial rfl

theorem broken_advanced (hsound : Sound db) (hok : PhaseOk db phase)
    (failure : Failure)
    (hcareful : CarefulReply phase (.refused failure)) :
    Advanced db phase db (broken failure phase) := by
  cases phase
  case resolving =>
    exact Advanced.stay hsound hok ⟨Holds.mem hok, Holds.status hok⟩ rfl
  case publishing =>
    exact Advanced.stay hsound hok ⟨Holds.mem hok, Holds.status hok⟩ rfl
  case failing => exact nomatch hcareful
  all_goals exact Advanced.stay hsound hok trivial rfl

/-- The steps that only read the tables. -/
def Phase.reads : Phase → Bool
  | .claiming _ _ _ => false
  | .publishing _ _ _ _ _ => false
  | .failing _ _ => false
  | .publishingSolution _ => false
  | _ => true

theorem proceed_reads (runtime : Runtime) (operator : Operator) (db : Db)
    (h : phase.reads = true) : (proceed runtime operator db phase).1 = db := by
  cases phase with
  | preparing application rest =>
      cases rest with
      | nil => rfl
      | cons template rest =>
          simp only [proceed]
          repeat' split
          all_goals rfl
  | claiming => exact nomatch h
  | publishing => exact nomatch h
  | failing => exact nomatch h
  | publishingSolution => exact nomatch h
  | _ =>
      simp only [proceed]
      repeat' split
      all_goals rfl

/-- A step whose effect stands though the call goes on as if it had failed. -/
theorem lost_advanced (hsound : Sound db) (hok : PhaseOk db phase)
    (operator : Operator) (failure : Failure)
    (hcareful : CarefulReply phase (.lost operator failure)) :
    Advanced db phase (proceed runtime operator db phase).1
      (broken failure phase) := by
  cases phase with
  | claiming request template slug => exact nomatch hcareful.2
  | publishing request template slug order plan => exact nomatch hcareful
  | resolving request template slug order =>
      exact Advanced.stay hsound hok ⟨Holds.mem hok, Holds.status hok⟩ rfl
  | failing order message =>
      simp only [proceed, markFailed_of_provisioning _ hok.2]
      exact Advanced.settle (updateOrder_failed hsound
        ⟨message.code, String.ofList (message.message.toList.take 1000)⟩
        hok.1) trivial rfl rfl
  | publishingSolution application =>
      simp only [proceed]
      split
      · exact Advanced.stay hsound hok trivial rfl
      · next published row created hpublish =>
          have hled : application.coordinator ∈ application.prepared.map
              fun item => item.template.templateId := by
            have happ : Led application [] := hok
            simpa [Led] using happ
          exact Advanced.unseen (publishSolution_ok hsound hcareful hled
            hpublish).1 trivial rfl rfl
  | _ =>
      rw [proceed_reads runtime operator db rfl]
      exact Advanced.stay hsound hok trivial rfl

theorem advance_advanced (hsound : Sound db) (hok : PhaseOk db phase)
    (reply : Reply) (hcareful : CarefulReply phase reply) :
    Advanced db phase (advance runtime reply db phase).1
      (advance runtime reply db phase).2.1 := by
  cases reply with
  | answered operator => exact proceed_advanced hsound hok operator hcareful
  | refused failure => exact broken_advanced hsound hok failure hcareful
  | lost operator failure =>
      exact lost_advanced hsound hok operator failure hcareful

/-! ### One step of the system -/

theorem Invariant.empty : Invariant empty where
  sound :=
    ⟨⟨Keyed.nil _, Keyed.nil _, fun _ hmem => (nomatch hmem),
        fun _ hmem => (nomatch hmem)⟩,
      ⟨Keyed.nil _, Keyed.nil _, fun _ hmem => (nomatch hmem),
        fun _ hmem => (nomatch hmem), fun _ hmem => (nomatch hmem),
        fun _ hmem => (nomatch hmem)⟩,
      fun _ hmem => (nomatch hmem)⟩
  phases := fun _ hmem => nomatch hmem
  apart := fun hleft => nomatch hleft
  owned := fun _ hmem => nomatch hmem

theorem Invariant.advance (h : Invariant state) {call : Nat}
    (hcall : state.calls[call]? = some phase)
    (hadvanced : Advanced state.db phase db' phase') :
    Invariant ⟨db', state.calls.set call phase'⟩ := by
  have hlt : call < state.calls.length :=
    (List.getElem?_eq_some_iff.mp hcall).1
  -- what another call holds is still there
  have hother : ∀ {i : Nat} {other : Phase} {order : Order},
      state.calls[i]? = some other → i ≠ call → other.held = some order →
      order ∈ db'.orders := by
    intro i other order hi hne hheld
    obtain ⟨hmem, hstatus⟩ :=
      (h.phases other (List.mem_of_getElem? hi)).held hheld
    refine hadvanced.kept order hmem (Or.inl hstatus) fun held hphase hid => ?_
    exact hne (h.apart hi hcall hheld hphase hid)
  refine ⟨hadvanced.sound, ?_, ?_, ?_⟩
  · intro other hmem
    obtain ⟨i, hi⟩ := List.mem_iff_getElem?.mp hmem
    by_cases hsame : call = i
    · rw [← hsame, List.getElem?_set_self hlt, Option.some.injEq] at hi
      rw [← hi]
      exact hadvanced.ok
    · rw [List.getElem?_set_ne hsame] at hi
      exact (h.phases other (List.mem_of_getElem? hi)).keep
        fun order hheld => hother hi (Ne.symm hsame) hheld
  · -- a claim is of an order that no other call holds
    have hclash : ∀ {i : Nat} {other : Phase} {order order' : Order},
        state.calls[i]? = some other → call ≠ i →
        phase'.held = some order → other.held = some order' →
        order.id ≠ order'.id := by
      intro i other order order' hi hne hheld hheld' hid
      rcases hadvanced.fresh order hheld with hbefore | hfresh
      · exact hne (h.apart hcall hi hbefore hheld' hid)
      · obtain ⟨hmem, hstatus⟩ :=
          (h.phases other (List.mem_of_getElem? hi)).held hheld'
        exact hfresh order' hmem hid.symm hstatus
    intro i j left right order order' hi hj hheld hheld' hid
    by_cases hsame : call = i <;> by_cases hsame' : call = j
    · exact hsame.symm.trans hsame'
    · subst hsame
      rw [List.getElem?_set_self hlt, Option.some.injEq] at hi
      rw [List.getElem?_set_ne hsame'] at hj
      subst hi
      exact absurd hid (hclash hj hsame' hheld hheld')
    · subst hsame'
      rw [List.getElem?_set_ne hsame] at hi
      rw [List.getElem?_set_self hlt, Option.some.injEq] at hj
      subst hj
      exact absurd hid.symm (hclash hi hsame hheld' hheld)
    · rw [List.getElem?_set_ne hsame] at hi
      rw [List.getElem?_set_ne hsame'] at hj
      exact h.apart hi hj hheld hheld' hid
  · intro order hmem hstatus
    rcases hadvanced.running order hmem hstatus with hheld | ⟨hbefore, hfree⟩
    · exact ⟨phase', List.mem_of_getElem? (List.getElem?_set_self hlt), hheld⟩
    · obtain ⟨other, hother', hheld⟩ := h.owned order hbefore hstatus
      obtain ⟨i, hi⟩ := List.mem_iff_getElem?.mp hother'
      have hne : call ≠ i := by
        intro hsame
        rw [← hsame, hcall, Option.some.injEq] at hi
        rw [← hi] at hheld
        exact hfree order hheld rfl
      have hstill : (state.calls.set call phase')[i]? = some other := by
        rw [List.getElem?_set_ne hne]
        exact hi
      exact ⟨other, List.mem_of_getElem? hstill, hheld⟩

/-- A new call holds nothing. -/
theorem Invariant.call (h : Invariant state) (hok : PhaseOk state.db phase)
    (hnone : phase.held = none) :
    Invariant { state with calls := state.calls ++ [phase] } := by
  have hat : ∀ {i : Nat} {other : Phase} {order : Order},
      (state.calls ++ [phase])[i]? = some other → other.held = some order →
      state.calls[i]? = some other := by
    intro i other order hi hheld
    rw [List.getElem?_append] at hi
    split at hi
    · exact hi
    · have hlast := List.mem_of_getElem? hi
      rw [List.mem_singleton.mp hlast, hnone] at hheld
      exact nomatch hheld
  refine ⟨h.sound, ?_, ?_, ?_⟩
  · intro other hmem
    rcases List.mem_append.mp hmem with hold | hnew
    · exact h.phases other hold
    · rw [List.mem_singleton.mp hnew]
      exact hok
  · intro i j left right order order' hi hj hheld hheld'
    exact h.apart (hat hi hheld) (hat hj hheld') hheld hheld'
  · intro order hmem hstatus
    obtain ⟨other, hother, hheld⟩ := h.owned order hmem hstatus
    exact ⟨other, List.mem_append_left _ hother, hheld⟩

/-- Tables that change under the same orders. -/
theorem Invariant.tables (h : Invariant state) (hsound : Sound db')
    (horders : db'.orders = state.db.orders) :
    Invariant { state with db := db' } where
  sound := hsound
  phases := by
    intro phase hmem
    refine (h.phases phase hmem).keep fun order hheld => ?_
    change order ∈ db'.orders
    rw [horders]
    exact ((h.phases phase hmem).held hheld).1
  apart := h.apart
  owned := by
    change ∀ order ∈ db'.orders, _
    rw [horders]
    exact h.owned

theorem modify_eq_set {α : Type} {l : List α} {i : Nat} {a : α} {f : α → α}
    (h : l[i]? = some a) : l.modify i f = l.set i (f a) := by
  induction l generalizing i with
  | nil => exact nomatch h
  | cons head tail ih =>
      cases i with
      | zero =>
          rw [List.getElem?_cons_zero, Option.some.injEq] at h
          rw [h]
          rfl
      | succ i =>
          rw [List.getElem?_cons_succ] at h
          rw [List.modify_succ_cons, List.set_cons_succ, ih h]

theorem targetStatus_ok {fromStatus toStatus : EmployeeStatus}
    {transition : String}
    (h : targetStatus fromStatus transition = .ok toStatus) :
    fromStatus ≠ .archived := by
  rintro rfl
  unfold targetStatus at h
  rw [if_pos rfl] at h
  exact nomatch h

theorem transitionStatus_sound (hsound : Sound db) {id : Nat}
    {fromStatus toStatus : EmployeeStatus} {now : Option Employee}
    (hfrom : fromStatus ≠ .archived)
    (h : transitionStatus id fromStatus toStatus db = .ok (db', now)) :
    Sound db' ∧ db'.orders = db.orders := by
  unfold transitionStatus at h
  split at h
  · obtain ⟨rfl, -⟩ := Prod.mk.inj (Except.ok.inj h)
    exact ⟨hsound, rfl⟩
  · next row hfound =>
      split at h
      · exact nomatch h
      · next hstatus =>
          obtain ⟨rfl, -⟩ := Prod.mk.inj (Except.ok.inj h)
          have hlive : ∀ other ∈ db.employees, other.id = id →
              other.live = true := by
            intro other hother hid
            have hsame := hsound.people.ids.eq_of_key hother
              (lookup_mem hfound) (hid.trans (lookup_key hfound).symm)
            rw [hsame, Employee.live, not_not.mp hstatus]
            exact bne_iff_ne.mpr hfrom
          exact ⟨⟨hsound.people.setStatus (Or.inr hlive),
            hsound.ledger.remain (Remain.setStatus _ _ _) (Nat.le_refl _),
            hsound.coordinated⟩, rfl⟩

/-- A deletion of an employee that no succeeded order names. -/
theorem deleteEmployee_sound (hsound : Sound db) {id : Nat}
    (hfree : ∀ order ∈ db.orders, order.status = .succeeded →
      order.createdEmployeeId ≠ some id) : Sound (deleteEmployee id db) where
  people := hsound.people.filter _
  ledger := { hsound.ledger with
    succeeded := by
      intro order hmem hdone
      obtain ⟨employee, hemployee, hcreated, hkey⟩ :=
        hsound.ledger.succeeded order hmem hdone
      refine ⟨employee, List.mem_filter.mpr ⟨hemployee, ?_⟩, hcreated, hkey⟩
      rw [decide_eq_true_eq]
      rintro rfl
      exact hfree order hmem hdone hcreated }
  coordinated := hsound.coordinated

theorem written_sound (h : Invariant state) (action : Action)
    (hcareful : Careful state action) :
    Sound (written state.db action) ∧
      (written state.db action).orders = state.db.orders := by
  have hsound := h.sound
  cases action with
  | hire slug name departmentIds skills =>
      simp only [written]
      split
      · next created row hcreate =>
          have hhired := (createEmployee_ok hcreate).1
          exact ⟨hhired.sound hsound, by rw [hhired.frame]⟩
      · exact ⟨hsound, rfl⟩
  | transition id fromStatus transition =>
      simp only [written]
      split
      · exact ⟨hsound, rfl⟩
      · next toStatus htarget =>
          split
          · next moved now hmove =>
              exact transitionStatus_sound hsound (targetStatus_ok htarget)
                hmove
          · exact ⟨hsound, rfl⟩
  | delete id => exact ⟨deleteEmployee_sound hsound hcareful, rfl⟩
  | installSkill prepared =>
      simp only [written]
      split
      · next installed hinstall =>
          have haside : Aside state.db installed := by
            rw [installPrepared_frame hinstall]
            exact ⟨rfl, rfl, rfl, rfl⟩
          exact ⟨haside.sound hsound, haside.orders⟩
      · exact ⟨hsound, rfl⟩
  | setSubjects departments members =>
      have haside : Aside state.db { state.db with departments, members } :=
        ⟨rfl, rfl, rfl, rfl⟩
      exact ⟨haside.sound hsound, rfl⟩
  | _ => exact ⟨hsound, rfl⟩

/-- A call that dies holding nothing. -/
theorem Invariant.crash (h : Invariant state) {call : Nat}
    (hcall : state.calls[call]? = some phase) (hnone : phase.held = none)
    (hok : PhaseOk state.db phase') (hnone' : phase'.held = none) :
    Invariant { state with calls := state.calls.set call phase' } := by
  refine h.advance hcall (Advanced.stay h.sound ?_ hok ?_)
  · exact h.phases phase (List.mem_of_getElem? hcall)
  · rw [hnone, hnone']

theorem Invariant.step (h : Invariant state) (action : Action)
    (hcareful : Careful state action) :
    Invariant ((machine runtime).next state action) := by
  cases action with
  | recruit request => exact h.call trivial rfl
  | apply request => exact h.call trivial rfl
  | advance call reply =>
      change Invariant (Recruit.step runtime state (.advance call reply)).1
      simp only [Recruit.step]
      split
      · exact h
      · next phase hcall =>
          refine h.advance hcall (advance_advanced h.sound ?_ reply
            (hcareful phase hcall))
          exact h.phases phase (List.mem_of_getElem? hcall)
  | crash call =>
      change Invariant { state with calls := state.calls.modify call killed }
      cases hcall : state.calls[call]? with
      | none =>
          rw [List.modify_eq_self (List.getElem?_eq_none_iff.mp hcall)]
          exact h
      | some phase =>
          have hnone : phase.held = none :=
            Option.isNone_iff_eq_none.mp (hcareful phase hcall)
          rw [modify_eq_set hcall]
          refine h.crash hcall hnone ?_ ?_ <;> cases phase <;> trivial
  | hire slug name departmentIds skills =>
      have hwritten := written_sound h _ hcareful
      exact h.tables hwritten.1 hwritten.2
  | transition id fromStatus transition =>
      have hwritten := written_sound h _ hcareful
      exact h.tables hwritten.1 hwritten.2
  | delete id =>
      have hwritten := written_sound h _ hcareful
      exact h.tables hwritten.1 hwritten.2
  | installSkill prepared =>
      have hwritten := written_sound h _ hcareful
      exact h.tables hwritten.1 hwritten.2
  | setSubjects departments members =>
      have hwritten := written_sound h _ hcareful
      exact h.tables hwritten.1 hwritten.2

end AiTeam.Recruit
