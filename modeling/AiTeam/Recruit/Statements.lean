/-
What a claim, a hire and a settled order do to the tables.
-/
import AiTeam.Recruit.Ledger

namespace AiTeam.Recruit

variable {db db' : Db}

structure Sound (db : Db) : Prop where
  people : People db.employees db.next
  ledger : Ledger db.employees db.orders db.next
  coordinated : ∀ row ∈ db.instances, ∃ id ∈ row.expertEmployeeIds,
    row.coordinatorEmployeeId = some id

/-- The tables that soundness is about are as they were. -/
structure Aside (db db' : Db) : Prop where
  employees : db'.employees = db.employees
  orders : db'.orders = db.orders
  instances : db'.instances = db.instances
  next : db'.next = db.next

theorem Aside.rfl : Aside db db := ⟨Eq.refl _, Eq.refl _, Eq.refl _, Eq.refl _⟩

theorem Aside.trans {db'' : Db} (h : Aside db db') (h' : Aside db' db'') :
    Aside db db'' :=
  ⟨h'.employees.trans h.employees, h'.orders.trans h.orders,
    h'.instances.trans h.instances, h'.next.trans h.next⟩

theorem Aside.sound (h : Aside db db') (hsound : Sound db) : Sound db' where
  people := by
    rw [h.employees, h.next]
    exact hsound.people
  ledger := by
    rw [h.employees, h.orders, h.next]
    exact hsound.ledger
  coordinated := by
    rw [h.instances]
    exact hsound.coordinated

/-! ### Claims -/

/-- What a claim of an order leaves. -/
structure Claimed (db : Db) (templateId slug : String) (db' : Db)
    (order : Order) : Prop where
  frame : db' = { db with orders := db'.orders, next := db'.next }
  le : db.next ≤ db'.next
  mem : order ∈ db'.orders
  status : order.status = .provisioning
  key : order.idempotencyKey = idempotencyKey templateId slug
  template : order.templateId = templateId
  ledger : Ledger db.employees db'.orders db'.next
  keeps : Keeps (· = order.id) db.orders db'.orders
  idle : ∀ old ∈ db.orders, old.id = order.id → old.status = .failed

variable {order : Order} {slug : String} {skills : List String} {row : Employee}

theorem claimProvisioning_claimed
    (hledger : Ledger db.employees db.orders db.next)
    {templateId user : String} {action : OrderAction}
    {solutionId : Option String} (hplain : Plain slug)
    (h : claimProvisioning (idempotencyKey templateId slug) action templateId
      solutionId user db = .ok (db', order)) :
    Claimed db templateId slug db' order := by
  unfold claimProvisioning at h
  split at h
  · next hnone =>
      obtain ⟨rfl, rfl⟩ := Prod.mk.inj (Except.ok.inj h)
      have hother : ∀ old ∈ db.orders, old.id ≠ db.next := fun old hold =>
        Nat.ne_of_lt (hledger.fresh old hold)
      refine ⟨rfl, Nat.le_succ _, by simp, rfl, rfl, rfl, ?_, ?_, ?_⟩
      · refine ⟨hledger.ids.append ?_, hledger.keys.append hnone, ?_, ?_, ?_,
          ?_⟩
        · rw [lookup, List.find?_eq_none]
          intro old hold
          simpa using hother old hold
        · intro row hrow
          rcases List.mem_append.mp hrow with hold | hnew
          · exact Nat.lt_succ_of_lt (hledger.fresh row hold)
          · rw [List.mem_singleton.mp hnew]
            exact Nat.lt_succ_self _
        · intro row hrow
          rcases List.mem_append.mp hrow with hold | hnew
          · exact hledger.named row hold
          · rw [List.mem_singleton.mp hnew]
            exact ⟨slug, hplain, rfl⟩
        · intro row hrow
          rcases List.mem_append.mp hrow with hold | hnew
          · exact hledger.statuses row hold
          · rw [List.mem_singleton.mp hnew]
            exact Or.inl rfl
        · intro row hrow hdone
          rcases List.mem_append.mp hrow with hold | hnew
          · exact hledger.succeeded row hold hdone
          · rw [List.mem_singleton.mp hnew] at hdone
            cases hdone
      · refine ⟨fun row hrow _ _ => List.mem_append_left _ hrow, ?_⟩
        intro row hrow _ hnot
        rcases List.mem_append.mp hrow with hold | hnew
        · exact hold
        · exact absurd (by rw [List.mem_singleton.mp hnew]) hnot
      · exact fun old hold hsame => absurd hsame (hother old hold)
  · next old hfound =>
      split at h
      · next hstatus =>
          obtain ⟨rfl, rfl⟩ := Prod.mk.inj (Except.ok.inj h)
          have hmem := lookup_mem hfound
          have hkey := lookup_key hfound
          obtain ⟨slug', hplain', hnamed⟩ := hledger.named old hmem
          obtain ⟨htemplate, -⟩ := idempotencyKey_inj hplain' hplain
            (hnamed.symm.trans hkey)
          have hsame : ∀ row ∈ db.orders, row.id = old.id → row = old :=
            fun row hrow hid => hledger.ids.eq_of_key hrow hmem hid
          -- the change is the same as one that keeps the row's own columns
          have hrows : updateWhere (fun row => row.id = old.id)
              (fun _ => { old with
                status := .provisioning, createdEmployeeId := none
                errorCode := none, errorMessage := none
                requestedBy := user }) db.orders =
              updateWhere (fun row => row.id = old.id)
                (fun row => { row with
                  status := .provisioning, createdEmployeeId := none
                  errorCode := none, errorMessage := none
                  requestedBy := user }) db.orders := by
            refine List.map_congr_left fun row hrow => ?_
            by_cases hid : row.id = old.id
            · rw [hsame row hrow hid]
            · simp [hid]
          refine ⟨rfl, Nat.le_refl _, ?_, rfl, hkey, htemplate, ?_, ?_, ?_⟩
          · exact List.mem_map.mpr ⟨old, hmem, by simp⟩
          · simp only [hrows]
            exact hledger.updateWhere old.id _ (fun _ => rfl) (fun _ => rfl)
              (fun _ => rfl) fun _ _ _ => Or.inl rfl
          · simp only [hrows]
            exact Keeps.updateWhere old.id fun _ => rfl
          · intro row hrow hid
            rw [hsame row hrow hid]
            rcases hledger.statuses old hmem with hs | hs | hs
            · simp [hs] at hstatus
            · simp [hs] at hstatus
            · exact hs
      · cases h

theorem Claimed.sound {templateId : String}
    (h : Claimed db templateId slug db' order) (hsound : Sound db) :
    Sound db' where
  people := by
    rw [h.frame]
    exact hsound.people.mono h.le
  ledger := by
    rw [h.frame]
    exact h.ledger
  coordinated := by
    rw [h.frame]
    exact hsound.coordinated

/-! ### Settled orders -/

/-- What a settled order leaves: its row is the one that was written. -/
structure Settled (db : Db) (db' : Db) (order : Order) : Prop where
  frame : db' = { db with orders := db'.orders }
  ledger : Ledger db.employees db'.orders db.next
  keeps : Keeps (· = order.id) db.orders db'.orders
  mem : order ∈ db'.orders
  closed : ∀ row ∈ db'.orders, row.id = order.id → row = order

theorem updateOrder_settled (hledger : Ledger db.employees db.orders db.next)
    {settled : Order} (hmem : order ∈ db.orders)
    (hrow : settled = { order with
      status := settled.status, createdEmployeeId := settled.createdEmployeeId
      errorCode := settled.errorCode, errorMessage := settled.errorMessage })
    (hstatus : settled.status = .failed ∨
      settled.status = .succeeded ∧ Fulfilled db.employees settled) :
    Settled db (updateOrder settled db) settled := by
  have hid : settled.id = order.id := by rw [hrow]
  have hsame : ∀ row ∈ db.orders, row.id = settled.id →
      { row with
        status := settled.status, createdEmployeeId := settled.createdEmployeeId
        errorCode := settled.errorCode
        errorMessage := settled.errorMessage } = settled := by
    intro row hmem' hid'
    rw [hledger.ids.eq_of_key hmem' hmem (hid'.trans hid)]
    exact hrow.symm
  refine ⟨rfl, ?_, ?_, ?_, ?_⟩
  · refine hledger.updateWhere settled.id _ (fun _ => rfl) (fun _ => rfl)
      (fun _ => rfl) fun row hmem' hid' => ?_
    rw [hsame row hmem' hid']
    exact Or.inr hstatus
  · exact Keeps.updateWhere settled.id fun _ => rfl
  · refine List.mem_map.mpr ⟨order, hmem, ?_⟩
    rw [if_pos (by simpa using hid.symm)]
    exact hsame order hmem hid.symm
  · intro row hmem' hid'
    obtain ⟨old, hold, rfl⟩ := List.mem_map.mp hmem'
    by_cases hguard : old.id = settled.id
    · rw [if_pos (by simpa using hguard)]
      exact hsame old hold hguard
    · rw [if_neg (by simpa using hguard)] at hid'
      exact absurd hid' hguard

theorem Settled.sound (h : Settled db db' order) (hsound : Sound db) :
    Sound db' where
  people := by
    rw [h.frame]
    exact hsound.people
  ledger := by
    rw [h.frame]
    exact h.ledger
  coordinated := by
    rw [h.frame]
    exact hsound.coordinated

theorem markSucceeded_ok {completed : Order} {id : Nat}
    (h : order.markSucceeded id = .ok completed) :
    completed = { order with
      status := .succeeded, createdEmployeeId := some id } := by
  unfold Order.markSucceeded at h
  split at h
  · exact (Except.ok.inj h).symm
  · exact nomatch h

/-! ### Hires -/

/-- An employee under a free slug, in a table where its template has no other
live one. -/
structure Hired (db : Db) (db' : Db) (row : Employee) : Prop where
  frame : db' = { db with employees := db.employees ++ [row]
                          next := db.next + 1 }
  id : row.id = db.next
  slug : getBySlug row.slug db = none
  source : ∀ templateId, row.sourceTemplateId = some templateId →
    getBySourceTemplate templateId db = none

theorem createEmployee_ok {displayName : String}
    {source : Option (String × String)} {departmentIds : List String}
    (h : createEmployee slug displayName source departmentIds
      skills db = .ok (db', row)) :
    Hired db db' row ∧ row = ⟨db.next, slug, displayName, .draft,
      source.map Prod.fst, source.map Prod.snd, departmentIds, skills⟩ := by
  unfold createEmployee at h
  split at h
  · exact nomatch h
  · next hslug =>
      split at h
      · exact nomatch h
      · next hsource =>
          obtain ⟨rfl, rfl⟩ := Prod.mk.inj (Except.ok.inj h)
          refine ⟨⟨rfl, rfl, by simpa using hslug, ?_⟩, rfl⟩
          intro templateId hsome
          obtain ⟨pair, rfl, rfl⟩ := Option.map_eq_some_iff.mp hsome
          simpa using hsource

theorem Hired.sound (h : Hired db db' row) (hsound : Sound db) : Sound db' where
  people := by
    rw [h.frame]
    refine hsound.people.append h.id h.slug ?_
    intro templateId hsource other hother hlive
    exact getBySourceTemplate_none (h.source templateId hsource) hother hlive
  ledger := by
    rw [h.frame]
    exact hsound.ledger.remain (Remain.append _ _) (Nat.le_succ _)
  coordinated := by
    rw [h.frame]
    exact hsound.coordinated

/-- The new employee is made active at once. -/
theorem Hired.activate (h : Hired db db' row) (hsound : Sound db)
    (hdraft : row.status = .draft) :
    ∃ db'', transitionStatus row.id .draft .active db' =
        .ok (db'', some { row with status := .active }) ∧
      Hired db db'' { row with status := .active } := by
  have hold : ∀ other ∈ db.employees, (decide (other.id = row.id)) = false := by
    intro other hother
    have hlt := hsound.people.fresh other hother
    rw [decide_eq_false_iff_not, h.id]
    omega
  have hfound : lookup Employee.id row.id db'.employees = some row := by
    have hnone : lookup Employee.id row.id db.employees = none := by
      rw [lookup, List.find?_eq_none]
      intro other hother
      simpa using hold other hother
    rw [h.frame, lookup_append, hnone]
    simp
  refine ⟨setStatus row.id .active db', ?_, ?_⟩
  · simp [transitionStatus, hfound, hdraft]
  · refine ⟨?_, h.id, h.slug, h.source⟩
    rw [h.frame, setStatus]
    simp only [updateWhere, List.map_append, List.map_cons, List.map_nil,
      decide_true, if_true]
    congr 1
    rw [List.append_cancel_right_eq]
    exact updateWhere_of_forall _ hold

/-! ### Skills and grants -/

theorem installPrepared_frame {prepared : String × String}
    (h : installPrepared prepared db = .ok db') :
    db' = { db with skills := db'.skills } := by
  unfold installPrepared at h
  split at h
  · rw [← Except.ok.inj h]
  · split at h
    · rw [← Except.ok.inj h]
    · exact nomatch h

theorem installAll_frame {prepared : List (String × String)}
    (h : prepared.foldlM (fun db item => installPrepared item db) db =
      .ok db') : db' = { db with skills := db'.skills } := by
  induction prepared generalizing db with
  | nil =>
      rw [List.foldlM_nil] at h
      rw [← Except.ok.inj h]
  | cons item rest ih =>
      rw [List.foldlM_cons] at h
      cases hitem : installPrepared item db with
      | error failure =>
          rw [hitem] at h
          exact nomatch h
      | ok between =>
          rw [hitem] at h
          have hrest := ih h
          rw [installPrepared_frame hitem] at hrest
          exact hrest

theorem installSkillPlan_frame {plan : SkillPlan}
    (h : installSkillPlan plan db = .ok (db', skills)) :
    db' = { db with skills := db'.skills } := by
  cases plan with
  | named given =>
      obtain ⟨rfl, -⟩ := Prod.mk.inj (Except.ok.inj h)
      rfl
  | packages prepared =>
      cases hall : prepared.foldlM
          (fun db item => installPrepared item db) db with
      | error failure =>
          simp only [installSkillPlan, hall] at h
          exact nomatch h
      | ok installed =>
          simp only [installSkillPlan, hall] at h
          obtain ⟨rfl, -⟩ := Prod.mk.inj (Except.ok.inj h)
          exact installAll_frame hall

theorem installSkillPlan_aside {plan : SkillPlan}
    (h : installSkillPlan plan db = .ok (db', skills)) : Aside db db' := by
  rw [installSkillPlan_frame h]
  exact ⟨rfl, rfl, rfl, rfl⟩

/-- The grant of a resource covers the subjects. -/
def Granted (db : Db) (resourceType : ResourceType) (resourceId : Nat)
    (departmentIds memberIds : List String) : Prop :=
  ∃ grant ∈ db.grants, grantOf resourceType resourceId grant = true ∧
    departmentIds ⊆ grant.departmentIds ∧ memberIds ⊆ grant.memberIds

theorem upsertGrant_granted (grant : Grant) (db : Db) :
    Granted (upsertGrant grant db) grant.resourceType grant.resourceId
      grant.departmentIds grant.memberIds := by
  have hself : grantOf grant.resourceType grant.resourceId grant = true := by
    simp [grantOf]
  refine ⟨grant, ?_, hself, List.Subset.refl _, List.Subset.refl _⟩
  unfold upsertGrant
  simp only
  split
  · next hany =>
      obtain ⟨old, hold, hsame⟩ := List.any_eq_true.mp hany
      exact List.mem_map.mpr ⟨old, hold, by rw [if_pos hsame]⟩
  · simp

theorem subset_merged (old new : List String) :
    old ⊆ merged old new ∧ new ⊆ merged old new := by
  constructor <;> intro item hitem <;> simp [merged, List.mem_insertionSort, hitem]

theorem extendGrant_granted (grant : Grant) (db : Db) :
    Granted (extendGrant grant db) grant.resourceType grant.resourceId
      grant.departmentIds grant.memberIds := by
  have hself : grantOf grant.resourceType grant.resourceId grant = true := by
    simp [grantOf]
  unfold extendGrant Granted
  simp only
  split
  · next hany =>
      obtain ⟨old, hold, hsame⟩ := List.any_eq_true.mp hany
      refine ⟨_, List.mem_map.mpr ⟨old, hold, rfl⟩, ?_⟩
      rw [if_pos hsame]
      exact ⟨hsame, (subset_merged _ _).2, (subset_merged _ _).2⟩
  · exact ⟨grant, by simp, hself, List.Subset.refl _, List.Subset.refl _⟩

/-- Extending a grant takes nothing from the others. -/
theorem Granted.extend {resourceType : ResourceType} {resourceId : Nat}
    {departmentIds memberIds : List String}
    (h : Granted db resourceType resourceId departmentIds memberIds)
    (grant : Grant) :
    Granted (extendGrant grant db) resourceType resourceId departmentIds
      memberIds := by
  obtain ⟨old, hold, hof, hdepartments, hmembers⟩ := h
  unfold extendGrant Granted
  simp only
  split
  · refine ⟨_, List.mem_map.mpr ⟨old, hold, rfl⟩, ?_⟩
    split
    · exact ⟨hof, List.Subset.trans hdepartments (subset_merged _ _).1,
        List.Subset.trans hmembers (subset_merged _ _).1⟩
    · exact ⟨hof, hdepartments, hmembers⟩
  · exact ⟨old, List.mem_append_left _ hold, hof, hdepartments, hmembers⟩

end AiTeam.Recruit
