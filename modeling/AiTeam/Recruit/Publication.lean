/-
A publication writes all of its rows, and leaves the tables in order.
-/
import AiTeam.Recruit.Statements

namespace AiTeam.Recruit

variable {db db' : Db}

theorem bind_ok {α β : Type} {x : Result α} {f : α → Result β} {r : β}
    (h : x >>= f = .ok r) : ∃ a, x = .ok a ∧ f a = .ok r := by
  cases x with
  | error failure => exact nomatch h
  | ok a => exact ⟨a, rfl, h⟩

theorem upsertGrant_aside (grant : Grant) (db : Db) :
    Aside db (upsertGrant grant db) := ⟨rfl, rfl, rfl, rfl⟩

theorem appendRecruitEvent_aside (event : RecruitEvent) (db : Db) :
    Aside db (appendRecruitEvent event db) := ⟨rfl, rfl, rfl, rfl⟩

/-- An employee hired for a running order that is settled in the same
transaction. -/
theorem settle_hired {between hired aside : Db} {order completed : Order}
    {row : Employee} (hsound : Sound db) (hbefore : Aside db between)
    (hhired : Hired between hired row) (hafter : Aside hired aside)
    (hmem : order ∈ db.orders)
    (hkey : order.idempotencyKey =
      idempotencyKey order.templateId row.slug)
    (hdone : order.markSucceeded row.id = .ok completed) :
    Settled aside (updateOrder completed aside) completed ∧
      Sound (updateOrder completed aside) := by
  have hcompleted := markSucceeded_ok hdone
  have haside := hafter.sound (hhired.sound (hbefore.sound hsound))
  have horders : aside.orders = db.orders := by
    rw [hafter.orders, hhired.frame]
    exact hbefore.orders
  have hrow : row ∈ aside.employees := by
    rw [hafter.employees, hhired.frame]
    exact List.mem_append_right _ (List.mem_singleton_self row)
  have hsettled : Settled aside (updateOrder completed aside) completed := by
    refine updateOrder_settled haside.ledger (horders ▸ hmem) ?_ ?_
    · rw [hcompleted]
    · rw [hcompleted]
      exact Or.inr ⟨rfl, row, hrow, rfl, hkey⟩
  exact ⟨hsettled, hsettled.sound haside⟩

/-! ### An expert -/

/-- All that the publication of an expert writes. -/
structure ExpertPublished (request : RecruitRequest) (template : Template)
    (order : Order) (slug : String) (departmentIds memberIds : List String)
    (db db' : Db) (id : Nat) : Prop where
  hired : ∃ row, db'.employees = db.employees ++ [row] ∧ row.id = id ∧
    row.slug = slug ∧ row.status = .active ∧
    row.sourceTemplateId = some template.templateId ∧
    row.departmentIds = departmentIds
  settled : { order with
    status := .succeeded, createdEmployeeId := some id } ∈ db'.orders
  granted : departmentIds = [] ∧ memberIds = [] ∨
    Granted db' .expert id departmentIds memberIds
  recorded : db'.events = db.events ++ [⟨.recruitExpert, request.user,
    template.templateId, template.version, [id], none⟩]
  instances : db'.instances = db.instances
  applyRecords : db'.applyRecords = db.applyRecords

/-- What a call needs of the order it holds. -/
structure Holds (db : Db) (template : Template) (slug : String)
    (order : Order) : Prop where
  mem : order ∈ db.orders
  status : order.status = .provisioning
  source : order.templateId = template.templateId
  key : order.idempotencyKey = idempotencyKey template.templateId slug

/-- What a publication does to the orders besides: the one it settles is the
only one it touches. -/
structure Progress (own : Nat → Prop) (db db' : Db) : Prop where
  sound : Sound db'
  keeps : Keeps own db.orders db'.orders
  closed : ∀ row ∈ db'.orders, own row.id → row.status ≠ .provisioning

variable {runtime : Runtime} {request : RecruitRequest} {template : Template}
  {plan : SkillPlan} {order : Order} {slug : String} {id : Nat}

theorem publishExpert_ok (hsound : Sound db)
    (hholds : Holds db template slug order)
    (h : publishExpert runtime request template plan order slug db =
      .ok (db', id)) :
    Progress (· = order.id) db db' ∧ ∃ departmentIds memberIds,
      ExpertPublished request template order slug departmentIds memberIds db
        db' id := by
  unfold publishExpert at h
  obtain ⟨⟨departmentIds, memberIds⟩, -, h⟩ := bind_ok h
  obtain ⟨⟨installed, skills⟩, hinstall, h⟩ := bind_ok h
  obtain ⟨⟨created, row⟩, hcreate, h⟩ := bind_ok h
  obtain ⟨⟨moved, now⟩, hmove, h⟩ := bind_ok h
  obtain ⟨completed, hdone, h⟩ := bind_ok h
  have hinstalled := installSkillPlan_aside hinstall
  obtain ⟨hhired, hrow⟩ := createEmployee_ok hcreate
  obtain ⟨active, hactive, hactivated⟩ :=
    hhired.activate (hinstalled.sound hsound) (by rw [hrow])
  rw [hmove] at hactive
  obtain ⟨rfl, -⟩ := Prod.mk.inj (Except.ok.inj hactive)
  generalize hgrant : (if departmentIds = [] ∧ memberIds = [] then moved
    else upsertGrant ⟨.expert, row.id, departmentIds, memberIds⟩ moved) =
    granted at h
  have hgranted : Aside moved granted := by
    rw [← hgrant]
    split
    · exact Aside.rfl
    · exact upsertGrant_aside _ _
  have hother : granted.applyRecords = moved.applyRecords ∧
      granted.events = moved.events := by
    rw [← hgrant]
    split <;> exact ⟨rfl, rfl⟩
  obtain ⟨rfl, rfl⟩ := Prod.mk.inj (Except.ok.inj h)
  have hkey : order.idempotencyKey = idempotencyKey order.templateId
      ({ row with status := .active } : Employee).slug := by
    rw [hholds.source, hholds.key, hrow]
  obtain ⟨hsettled, hsound'⟩ := settle_hired hsound hinstalled hactivated
    (hgranted.trans (appendRecruitEvent_aside _ _)) hholds.mem hkey hdone
  have hcompleted := markSucceeded_ok hdone
  have hid : completed.id = order.id := by rw [hcompleted]
  have horders : granted.orders = db.orders := by
    rw [hgranted.orders, hactivated.frame]
    exact hinstalled.orders
  refine ⟨⟨hsound', ?_, ?_⟩, departmentIds, memberIds, ?_, ?_, ?_, ?_, ?_, ?_⟩
  · rw [← horders, ← hid]
    exact hsettled.keeps
  · intro other hother hsame
    rw [hsettled.closed other hother (hsame.trans hid.symm), hcompleted]
    exact nofun
  · refine ⟨{ row with status := .active }, ?_, rfl, ?_, rfl, ?_, ?_⟩
    · change granted.employees = _
      rw [hgranted.employees, hactivated.frame, ← hinstalled.employees]
    all_goals rw [hrow]
    rfl
  · rw [← hcompleted]
    exact hsettled.mem
  · by_cases hnone : departmentIds = [] ∧ memberIds = []
    · exact Or.inl hnone
    · rw [if_neg hnone] at hgrant
      right
      have hcovers := upsertGrant_granted
        ⟨.expert, row.id, departmentIds, memberIds⟩ moved
      rw [hgrant] at hcovers
      exact hcovers
  · change granted.events ++ _ = _
    rw [hother.2, hactivated.frame, installSkillPlan_frame hinstall]
  · change granted.instances = _
    rw [hgranted.instances, hactivated.frame]
    exact hinstalled.instances
  · change granted.applyRecords = _
    rw [hother.1, hactivated.frame, installSkillPlan_frame hinstall]

/-! ### A solution -/

def Staffed (db : Db) (item : Prepared) (id : Nat) : Prop :=
  ∃ employee ∈ db.employees, employee.id = id ∧ employee.live = true ∧
    employee.sourceTemplateId = some item.template.templateId

theorem Staffed.append {item : Prepared} {id : Nat} (h : Staffed db item id)
    {rows : List Employee} (hrows : db'.employees = db.employees ++ rows) :
    Staffed db' item id := by
  obtain ⟨employee, hmem, hstaffed⟩ := h
  exact ⟨employee, by rw [hrows]; exact List.mem_append_left _ hmem, hstaffed⟩

/-- The order of a pair has the employee of the pair. -/
def Paired (db : Db) (entry : Nat × Nat) : Prop :=
  ∃ order ∈ db.orders, order.id = entry.1 ∧ order.status = .succeeded ∧
    order.createdEmployeeId = some entry.2

/-- What the loop of `_publish_solution` has done of a list. -/
structure Gathering (coordinator : String) (origin : Db) (done : List Prepared)
    (db : Db) (gathered : Gathered) : Prop where
  progress : Progress (fun _ => False) origin db
  hired : ∃ rows, db.employees = origin.employees ++ rows ∧
    rows.map Employee.id = gathered.created.map Prod.snd ∧
    ∀ row ∈ rows, row.status = .active
  paired : ∀ entry ∈ gathered.created, Paired db entry
  staffed : List.Forall₂ (Staffed db) done gathered.employeeIds
  chosen : coordinator ∈ done.map (fun item => item.template.templateId) →
    ∃ id ∈ gathered.employeeIds, gathered.coordinatorEmployeeId = some id
  frame : db = { origin with
    employees := db.employees, orders := db.orders, skills := db.skills
    next := db.next }

variable {user coordinator : String} {package : Package}
  {departmentIds : List String} {item : Prepared}
  {gathered gathered' : Gathered} {origin : Db} {done : List Prepared}

/-- The new coordinator of a turn, and the one of the turns before. -/
theorem chosen_append {ids : List Nat} {current : Option Nat} {id : Nat}
    (h : coordinator ∈ done.map (fun item => item.template.templateId) →
      ∃ id ∈ ids, current = some id) :
    coordinator ∈ (done ++ [item]).map
      (fun item => item.template.templateId) →
    ∃ id' ∈ ids ++ [id], (if item.template.templateId = coordinator then
      some id else current) = some id' := by
  intro hmem
  by_cases hsame : item.template.templateId = coordinator
  · exact ⟨id, by simp, by rw [if_pos hsame]⟩
  · rw [if_neg hsame]
    rw [List.map_append, List.mem_append, List.map_singleton,
      List.mem_singleton] at hmem
    rcases hmem with hold | hnew
    · obtain ⟨id', hid', hcurrent⟩ := h hold
      exact ⟨id', List.mem_append_left _ hid', hcurrent⟩
    · exact absurd hnew.symm hsame

/-- Claiming an order and settling it in one transaction is seen by no other
call. -/
theorem Claimed.settled {templateId slug : String} {claimed moved final : Db}
    {order completed : Order} (h : Claimed db templateId slug claimed order)
    (horders : moved.orders = claimed.orders)
    (hsettled : Settled moved final completed) (hid : completed.id = order.id)
    (hstatus : completed.status ≠ .provisioning) :
    Keeps (fun _ => False) db.orders final.orders where
  kept := by
    intro other hother hother' _
    have hne : other.id ≠ order.id := by
      intro hsame
      rw [h.idle other hother hsame] at hother'
      simp at hother'
    refine hsettled.keeps.kept other ?_ hother' (by rwa [hid])
    rw [horders]
    exact h.keeps.kept other hother hother' hne
  running := by
    intro other hother hother' _
    have hne : other.id ≠ order.id := by
      intro hsame
      rw [hsettled.closed other hother (hsame.trans hid.symm)] at hother'
      exact hstatus hother'
    have hbefore := hsettled.keeps.running other hother hother' (by rwa [hid])
    rw [horders] at hbefore
    exact h.keeps.running other hbefore hother' hne

theorem publishPrepared_ok (h : Gathering coordinator origin done db gathered)
    (hplain : item.previous = none → Plain item.slug)
    (hok : publishPrepared user package coordinator departmentIds item db
      gathered = .ok (db', gathered')) :
    Gathering coordinator origin (done ++ [item]) db' gathered' := by
  have hsound := h.progress.sound
  unfold publishPrepared at hok
  simp only at hok
  split at hok
  · exact nomatch hok
  · next hsame =>
      split at hok
      · next row hexisting =>
          obtain ⟨rfl, rfl⟩ := Prod.mk.inj (Except.ok.inj hok)
          obtain ⟨hmem, hlive, hsource⟩ := getBySourceTemplate_some hexisting
          refine ⟨h.progress, ?_, ?_, ?_, chosen_append h.chosen, h.frame⟩
          · rw [List.append_nil]
            exact h.hired
          · rw [List.append_nil]
            exact h.paired
          · exact List.rel_append h.staffed
              (List.Forall₂.cons ⟨row, hmem, rfl, hlive, hsource⟩
                List.Forall₂.nil)
      · next hexisting =>
          obtain ⟨⟨claimed, order⟩, hclaim, hok⟩ := bind_ok hok
          obtain ⟨⟨installed, skills⟩, hinstall, hok⟩ := bind_ok hok
          obtain ⟨⟨created, row⟩, hcreate, hok⟩ := bind_ok hok
          obtain ⟨⟨moved, now⟩, hmove, hok⟩ := bind_ok hok
          obtain ⟨completed, hdone, hok⟩ := bind_ok hok
          have hprevious : item.previous = none := by
            by_contra hne
            rw [hexisting, Option.map_none] at hsame
            exact hsame ⟨hne, Ne.symm hne⟩
          have hclaimed := claimProvisioning_claimed hsound.ledger
            (hplain hprevious) hclaim
          have hinstalled := installSkillPlan_aside hinstall
          obtain ⟨hhired, hrow⟩ := createEmployee_ok hcreate
          have hsound1 := hclaimed.sound hsound
          obtain ⟨active, hactive, hactivated⟩ :=
            hhired.activate (hinstalled.sound hsound1) (by rw [hrow])
          rw [hmove] at hactive
          obtain ⟨rfl, -⟩ := Prod.mk.inj (Except.ok.inj hactive)
          have hkey : order.idempotencyKey = idempotencyKey order.templateId
              ({ row with status := .active } : Employee).slug := by
            rw [hclaimed.template, hclaimed.key, hrow]
          obtain ⟨hsettled, hsound'⟩ := settle_hired hsound1 hinstalled
            hactivated Aside.rfl hclaimed.mem hkey hdone
          have hcompleted := markSucceeded_ok hdone
          have hid : completed.id = order.id := by rw [hcompleted]
          have horders : moved.orders = claimed.orders := by
            rw [hactivated.frame]
            exact hinstalled.orders
          have hemployees : moved.employees =
              db.employees ++ [{ row with status := .active }] := by
            rw [hactivated.frame, hinstalled.employees, hclaimed.frame]
          obtain ⟨rfl, rfl⟩ := Prod.mk.inj (Except.ok.inj hok)
          have hkeeps : Keeps (fun _ => False) db.orders
              (updateOrder completed moved).orders := by
            refine hclaimed.settled horders hsettled hid ?_
            rw [hcompleted]
            exact nofun
          obtain ⟨rows, hrows, hids, hactives⟩ := h.hired
          refine ⟨⟨hsound', ?_, fun _ _ hfalse => hfalse.elim⟩, ?_, ?_, ?_,
            chosen_append h.chosen, ?_⟩
          · have hboth := h.progress.keeps.trans hkeeps
            simpa only [or_self] using hboth
          · refine ⟨rows ++ [{ row with status := .active }], ?_, ?_, ?_⟩
            · change moved.employees = _
              rw [hemployees, hrows, List.append_assoc]
            · simp [hids]
            · intro other hother
              rcases List.mem_append.mp hother with hold | hnew
              · exact hactives other hold
              · rw [List.mem_singleton.mp hnew]
          · intro entry hentry
            rcases List.mem_append.mp hentry with hold | hnew
            · obtain ⟨other, hother, hid', hstatus, hcreated⟩ :=
                h.paired entry hold
              exact ⟨other, hkeeps.kept other hother (Or.inr hstatus) id, hid',
                hstatus, hcreated⟩
            · rw [List.mem_singleton.mp hnew]
              refine ⟨completed, hsettled.mem, hid, ?_, ?_⟩ <;> rw [hcompleted]
          · refine List.rel_append ?_ (List.Forall₂.cons ?_ List.Forall₂.nil)
            · exact h.staffed.imp fun _ _ hstaffed => hstaffed.append hemployees
            · refine ⟨{ row with status := .active }, ?_, rfl, rfl, ?_⟩
              · change _ ∈ moved.employees
                rw [hemployees]
                exact List.mem_append_right _ (List.mem_singleton_self _)
              · rw [hrow]
                rfl
          · rw [hsettled.frame, hactivated.frame,
              installSkillPlan_frame hinstall, hclaimed.frame, h.frame]

theorem publishAll_ok {items : List Prepared}
    (h : Gathering coordinator origin done db gathered)
    (hplain : ∀ item ∈ items, item.previous = none → Plain item.slug)
    (hok : publishAll user package coordinator departmentIds items db
      gathered = .ok (db', gathered')) :
    Gathering coordinator origin (done ++ items) db' gathered' := by
  induction items generalizing db gathered done with
  | nil =>
      obtain ⟨rfl, rfl⟩ := Prod.mk.inj (Except.ok.inj hok)
      rw [List.append_nil]
      exact h
  | cons item rest ih =>
      obtain ⟨⟨between, gathered''⟩, hitem, hrest⟩ := bind_ok hok
      have hnext := publishPrepared_ok h (hplain item List.mem_cons_self) hitem
      rw [List.append_cons]
      exact ih hnext (fun item hitem =>
        hplain item (List.mem_cons_of_mem _ hitem)) hrest

theorem Gathering.start (hsound : Sound db) :
    Gathering coordinator db [] db ⟨[], none, []⟩ where
  progress := ⟨hsound, Keeps.rfl, fun _ _ hfalse => hfalse.elim⟩
  hired := ⟨[], (List.append_nil _).symm, rfl, fun _ hrow => nomatch hrow⟩
  paired := fun _ hentry => nomatch hentry
  staffed := List.Forall₂.nil
  chosen := fun hmem => nomatch hmem
  frame := rfl

/-- The grants of a solution's experts touch nothing else. -/
theorem applySolutionGrants_granted (ids : List Nat)
    (departmentIds memberIds : List String) (db : Db) :
    (∃ grants, applySolutionGrants ids departmentIds memberIds db =
        { db with grants }) ∧
      (departmentIds = [] ∧ memberIds = [] ∨ ∀ id ∈ ids,
        Granted (applySolutionGrants ids departmentIds memberIds db) .expert
          id departmentIds memberIds) := by
  unfold applySolutionGrants
  split
  · next hnone => exact ⟨⟨db.grants, rfl⟩, Or.inl hnone⟩
  · refine ⟨?_, Or.inr ?_⟩
    · induction ids generalizing db with
      | nil => exact ⟨db.grants, rfl⟩
      | cons id rest ih =>
          obtain ⟨grants, hgrants⟩ :=
            ih (extendGrant ⟨.expert, id, departmentIds, memberIds⟩ db)
          exact ⟨grants, by rw [List.foldl_cons, hgrants]; rfl⟩
    · -- what is granted in one turn is still granted after the others
      have hkept : ∀ (rest : List Nat) (db : Db) (id : Nat),
          Granted db .expert id departmentIds memberIds →
          Granted (rest.foldl (fun db id => extendGrant
            ⟨.expert, id, departmentIds, memberIds⟩ db) db) .expert id
            departmentIds memberIds := by
        intro rest
        induction rest with
        | nil => exact fun _ _ h => h
        | cons other rest ih => exact fun _ _ h => ih _ _ (h.extend _)
      induction ids generalizing db with
      | nil => exact fun _ hid => nomatch hid
      | cons id rest ih =>
          intro other hother
          rcases List.mem_cons.mp hother with rfl | hmem
          · exact hkept rest _ other (extendGrant_granted
              ⟨.expert, other, departmentIds, memberIds⟩ db)
          · exact ih _ other hmem

/-- All that the publication of a solution writes. -/
structure SolutionPublished (request : ApplyRequest) (package : Package)
    (prepared : List Prepared) (departmentIds memberIds : List String)
    (db db' : Db) (row : SolutionInstance) (created : List (Nat × Nat)) :
    Prop where
  hired : ∃ rows, db'.employees = db.employees ++ rows ∧
    rows.map Employee.id = created.map Prod.snd ∧
    ∀ row ∈ rows, row.status = .active
  paired : ∀ entry ∈ created, Paired db' entry
  staffed : List.Forall₂ (Staffed db') prepared row.expertEmployeeIds
  coordinated : ∃ id ∈ row.expertEmployeeIds,
    row.coordinatorEmployeeId = some id
  instances : db'.instances = db.instances ++ [row]
  granted : departmentIds = [] ∧ memberIds = [] ∨
    (∀ id ∈ row.expertEmployeeIds,
      Granted db' .expert id departmentIds memberIds) ∧
    Granted db' .solution row.id departmentIds memberIds
  recorded : db'.events = db.events ++ [⟨.applySolution, request.user,
    package.solutionId, package.version, row.expertEmployeeIds, some row.id⟩]
  applied : db'.applyRecords = db.applyRecords ++ [⟨package.solutionId,
    package.version, request.user, row.expertEmployeeIds, row.id⟩]

theorem createSolutionInstance_ok {solutionId version name : String}
    {ids : List Nat} {chosen : Option Nat} {row : SolutionInstance}
    (h : createSolutionInstance solutionId version name ids chosen db =
      .ok (db', row)) :
    row = ⟨db.next, solutionId, version, name, ids, chosen⟩ ∧
      db' = { db with instances := db.instances ++ [row]
                      next := db.next + 1 } := by
  unfold createSolutionInstance at h
  split at h
  · exact nomatch h
  · obtain ⟨rfl, rfl⟩ := Prod.mk.inj (Except.ok.inj h)
    exact ⟨rfl, rfl⟩

/-- Replacing the grant of another resource keeps what an expert's covers. -/
theorem Granted.upsertSolution {id : Nat} {departmentIds memberIds :
    List String} (h : Granted db .expert id departmentIds memberIds)
    (instanceId : Nat) (departments members : List String) :
    Granted (upsertGrant ⟨.solution, instanceId, departments, members⟩ db)
      .expert id departmentIds memberIds := by
  obtain ⟨grant, hmem, hof, hcovers⟩ := h
  have hother : grantOf .solution instanceId grant = false := by
    simp only [grantOf, Bool.and_eq_true, decide_eq_true_eq] at hof
    simp [grantOf, hof.1]
  refine ⟨grant, ?_, hof, hcovers⟩
  unfold upsertGrant
  simp only
  split
  · exact List.mem_map.mpr ⟨grant, hmem, by simp [hother]⟩
  · exact List.mem_append_left _ hmem

theorem publishSolution_ok {runtime : Runtime} {request : ApplyRequest}
    {prepared : List Prepared} {row : SolutionInstance}
    {created : List (Nat × Nat)} (hsound : Sound db)
    (hplain : ∀ item ∈ prepared, item.previous = none → Plain item.slug)
    (hcoordinator : coordinator ∈
      prepared.map fun item => item.template.templateId)
    (h : publishSolution runtime request package prepared coordinator db =
      .ok (db', row, created)) :
    Progress (fun _ => False) db db' ∧ ∃ departmentIds memberIds,
      SolutionPublished request package prepared departmentIds memberIds db db'
        row created := by
  unfold publishSolution at h
  obtain ⟨⟨departmentIds, memberIds⟩, -, h⟩ := bind_ok h
  dsimp only at h
  split at h
  · exact nomatch h
  obtain ⟨⟨staffed, gathered⟩, hall, h⟩ := bind_ok h
  obtain ⟨⟨instanced, instance'⟩, hcreate, h⟩ := bind_ok h
  have hgathering := publishAll_ok (Gathering.start hsound) hplain hall
  rw [List.nil_append] at hgathering
  obtain ⟨⟨grants, hgrants⟩, hgranted⟩ := applySolutionGrants_granted
    gathered.employeeIds departmentIds memberIds staffed
  obtain ⟨hrow, hinstanced⟩ := createSolutionInstance_ok hcreate
  generalize hlast : (if departmentIds = [] ∧ memberIds = [] then instanced
    else upsertGrant ⟨.solution, instance'.id, departmentIds, memberIds⟩
      instanced) = last at h
  obtain ⟨rfl, hrest⟩ := Prod.mk.inj (Except.ok.inj h)
  obtain ⟨rfl, rfl⟩ := Prod.mk.inj hrest
  obtain ⟨final, hfinal⟩ : ∃ final, last = { instanced with grants := final } := by
    rw [← hlast]
    split
    · exact ⟨instanced.grants, rfl⟩
    · exact ⟨_, rfl⟩
  have hchosen := hgathering.chosen hcoordinator
  have hsound' := hgathering.progress.sound
  have hshape : last = { staffed with
      grants := final, instances := staffed.instances ++ [instance']
      next := staffed.next + 1 } := by
    rw [hfinal, hinstanced, hgrants]
  have hcoordinated : ∃ id ∈ instance'.expertEmployeeIds,
      instance'.coordinatorEmployeeId = some id := by
    rw [hrow]
    exact hchosen
  refine ⟨⟨⟨?_, ?_, ?_⟩, ?_, fun _ _ hfalse => hfalse.elim⟩, departmentIds,
    memberIds, ⟨?_, ?_, ?_, hcoordinated, ?_, ?_, ?_, ?_⟩⟩
  · change People last.employees last.next
    rw [hshape]
    exact hsound'.people.mono (Nat.le_succ _)
  · change Ledger last.employees last.orders last.next
    rw [hshape]
    exact hsound'.ledger.remain Remain.rfl (Nat.le_succ _)
  · change ∀ row ∈ last.instances, _
    rw [hshape]
    intro row hmem
    rcases List.mem_append.mp hmem with hold | hnew
    · exact hsound'.coordinated row hold
    · rw [List.mem_singleton.mp hnew]
      exact hcoordinated
  · change Keeps _ db.orders last.orders
    rw [hshape]
    exact hgathering.progress.keeps
  · change ∃ rows, last.employees = _ ∧ _
    rw [hshape]
    exact hgathering.hired
  · intro entry hentry
    change ∃ order ∈ last.orders, _
    rw [hshape]
    exact hgathering.paired entry hentry
  · rw [hrow]
    refine hgathering.staffed.imp fun item id hstaffed => ?_
    have hsame : last.employees = staffed.employees ++ [] := by
      rw [hshape, List.append_nil]
    exact hstaffed.append hsame
  · change last.instances = _
    rw [hshape, hgathering.frame]
  · rcases hgranted with hnone | hgranted
    · exact Or.inl hnone
    · by_cases hnone : departmentIds = [] ∧ memberIds = []
      · exact Or.inl hnone
      · rw [if_neg hnone] at hlast
        right
        constructor
        · intro id hid
          rw [hrow] at hid
          have hbefore : Granted instanced .expert id departmentIds
              memberIds := by
            have hexpert := hgranted id hid
            rw [hinstanced]
            exact hexpert
          have hafter := hbefore.upsertSolution instance'.id departmentIds
            memberIds
          rw [hlast] at hafter
          exact hafter
        · have hcovers := upsertGrant_granted
            ⟨.solution, instance'.id, departmentIds, memberIds⟩ instanced
          rw [hlast] at hcovers
          exact hcovers
  · change last.events ++ _ = _
    rw [hshape, hgathering.frame, hrow]
  · change last.applyRecords ++ _ = _
    rw [hshape, hgathering.frame, hrow]

end AiTeam.Recruit
