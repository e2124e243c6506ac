/-
Recruitment over whole runs: what every careful history keeps, and that a
template without live employee can be recruited once no call is running.
-/
import AiTeam.Recruit.Accounts

namespace AiTeam.Recruit

variable {runtime : Runtime} {state : State} {db db' : Db}

/-! ### Generated slugs -/

theorem mem_spaced {c : Char} {inGap : Bool} {text : List Char}
    (h : c ∈ spaced inGap text) : c = '_' ∨ c ∈ text := by
  induction text generalizing inGap with
  | nil => exact nomatch h
  | cons head tail ih =>
      rw [spaced] at h
      split at h
      · split at h
        · exact (ih h).imp_right (List.mem_cons_of_mem _)
        · rcases List.mem_cons.mp h with rfl | htail
          · exact Or.inl rfl
          · exact (ih htail).imp_right (List.mem_cons_of_mem _)
      · rcases List.mem_cons.mp h with rfl | htail
        · exact Or.inr List.mem_cons_self
        · exact (ih htail).imp_right (List.mem_cons_of_mem _)

theorem mem_strip {c : Char} {p : Char → Bool} {text : List Char}
    (h : c ∈ strip p text) : c ∈ text := by
  have hback := (List.dropWhile_sublist p).subset (List.mem_reverse.mp h)
  exact (List.dropWhile_sublist p).subset (List.mem_reverse.mp hback)

theorem not_mem_slugify (text : List Char) : ':' ∉ slugify text := by
  intro h
  rcases mem_spaced (mem_strip h) with heq | hmem
  · exact absurd heq (by decide)
  · exact absurd (List.mem_filter.mp hmem).2 (by decide)

theorem not_mem_hex (digits : List (Fin 16)) (length : Nat) :
    ':' ∉ hex digits length := by
  intro h
  obtain ⟨digit, -, hdigit⟩ := List.mem_map.mp h
  revert digit
  decide

theorem not_mem_toDigits (n : Nat) : ':' ∉ Nat.toDigits 10 n := by
  intro h
  have hdigit := Nat.isDigit_of_mem_toDigits (by decide) (by decide) h
  exact absurd hdigit (by decide)

theorem not_mem_slugBase (runtime : Runtime) (draws : Draws)
    (template : Template) : ':' ∉ slugBase runtime draws template := by
  intro h
  have hbase := List.mem_of_mem_take h
  split at hbase
  · exact not_mem_slugify _ hbase
  · split at hbase
    · exact not_mem_slugify _ hbase
    · rcases List.mem_append.mp hbase with hstart | hhex
      · exact absurd hstart (by decide)
      · exact not_mem_hex _ _ hhex

theorem candidate_plain {base : List Char} (h : ':' ∉ base) (tried : Nat) :
    Plain (candidate base tried) := by
  cases tried with
  | zero =>
      rw [Plain, candidate, String.toList_ofList]
      exact h
  | succ tried =>
      rw [Plain, candidate, String.toList_ofList]
      intro hmem
      rcases List.mem_append.mp hmem with hfront | hback
      · exact h (List.mem_of_mem_take hfront)
      · rcases List.mem_cons.mp hback with heq | hdigits
        · exact absurd heq (by decide)
        · exact not_mem_toDigits _ hdigits

theorem lastCandidate_plain {base : List Char} (h : ':' ∉ base)
    (draws : Draws) : Plain (lastCandidate draws base) := by
  rw [Plain, lastCandidate, String.toList_ofList]
  intro hmem
  rcases List.mem_append.mp hmem with hfront | hback
  · exact h (List.mem_of_mem_take hfront)
  · rcases List.mem_cons.mp hback with heq | hhex
    · exact absurd heq (by decide)
    · exact not_mem_hex _ _ hhex

/-! ### A call on its own -/

/-- The steps of one call, with an Operator that always answers the same. -/
def solo (runtime : Runtime) (operator : Operator) :
    Nat → Db × Phase → Db × Phase
  | 0, now => now
  | n + 1, now =>
      let done := proceed runtime operator now.1 now.2
      solo runtime operator n (done.1, done.2.1)

def Leads (runtime : Runtime) (operator : Operator)
    (now later : Db × Phase) : Prop :=
  ∃ n, solo runtime operator n now = later

theorem solo_add (runtime : Runtime) (operator : Operator) (m n : Nat)
    (now : Db × Phase) : solo runtime operator (m + n) now =
      solo runtime operator n (solo runtime operator m now) := by
  induction m generalizing now with
  | zero => rw [Nat.zero_add, solo]
  | succ m ih =>
      rw [Nat.succ_add]
      exact ih _

theorem Leads.trans {operator : Operator} {first second third : Db × Phase}
    (h : Leads runtime operator first second)
    (h' : Leads runtime operator second third) :
    Leads runtime operator first third := by
  obtain ⟨m, rfl⟩ := h
  obtain ⟨n, rfl⟩ := h'
  exact ⟨m + n, solo_add runtime operator m n first⟩

theorem Leads.step {operator : Operator} {phase phase' : Phase}
    (h : ((proceed runtime operator db phase).1,
      (proceed runtime operator db phase).2.1) = (db', phase')) :
    Leads runtime operator (db, phase) (db', phase') :=
  ⟨1, h⟩

/-- A call that nothing interferes with. -/
theorem solo_run (runtime : Runtime) (operator : Operator) (n call : Nat)
    {calls : List Phase} {phase : Phase} (h : calls[call]? = some phase) :
    (machine runtime).run ⟨db, calls⟩
        (List.replicate n (.advance call (.answered operator))) =
      ⟨(solo runtime operator n (db, phase)).1,
        calls.set call (solo runtime operator n (db, phase)).2⟩ := by
  induction n generalizing db calls phase with
  | zero =>
      obtain ⟨hlt, rfl⟩ := List.getElem?_eq_some_iff.mp h
      rw [List.replicate_zero, Machine.run, solo, List.set_getElem_self]
  | succ n ih =>
      have hlt : call < calls.length := (List.getElem?_eq_some_iff.mp h).1
      rw [List.replicate_succ, Machine.run]
      have hnext : (machine runtime).next ⟨db, calls⟩
          (.advance call (.answered operator)) =
          ⟨(proceed runtime operator db phase).1,
            calls.set call (proceed runtime operator db phase).2.1⟩ := by
        change (step runtime ⟨db, calls⟩ (.advance call
          (.answered operator))).1 = _
        simp only [step, h, advance]
      rw [hnext, ih (List.getElem?_set_self hlt), List.set_set]
      rfl

/-! ### A recruit that succeeds -/

/-- All calls have come to an end. -/
def Quiet (state : State) : Prop :=
  ∀ phase ∈ state.calls, phase.done = true

instance (state : State) : Decidable (Quiet state) :=
  inferInstanceAs (Decidable (∀ phase ∈ state.calls, phase.done = true))

theorem Quiet.not_running (hquiet : Quiet state) (h : Invariant state) :
    ∀ order ∈ state.db.orders, order.status ≠ .provisioning := by
  intro order hmem hstatus
  obtain ⟨phase, hphase, hheld⟩ := h.owned order hmem hstatus
  have hdone := hquiet phase hphase
  cases phase
  case finished => exact nomatch hheld
  case crashed => exact nomatch hheld
  all_goals exact absurd hdone Bool.false_ne_true

/-- What a recruit of the template needs: no live employee of it, subjects and
skills that fit, and a drawn slug that is free should all others be taken. -/
structure Ready (runtime : Runtime) (db : Db) (request : RecruitRequest)
    (operator : Operator) : Prop where
  automatic : request.employeeSlug.getD "" = ""
  answers : operator.template.templateId = request.templateId
  free : ∀ employee ∈ db.employees, employee.live = true →
    employee.sourceTemplateId ≠ some request.templateId
  subjects : ∃ subjects, validateGrantSubjects runtime request.departmentIds
    request.memberIds db = .ok subjects
  skills : ∃ installed, installSkillPlan operator.plan db = .ok installed
  drawn : getBySlug (lastCandidate request.draws
    (slugBase runtime request.draws operator.template)) db = none

/-- A free slug is found among the candidates. -/
theorem naming_leads (operator : Operator) (request : RecruitRequest)
    (template : Template) (hdrawn : getBySlug (lastCandidate request.draws
      (slugBase runtime request.draws template)) db = none)
    (left tried : Nat) (hleft : tries - tried = left) :
    ∃ slug, Plain slug ∧ getBySlug slug db = none ∧
      Leads runtime operator (db, .naming request template tried)
        (db, .confirming request template slug) := by
  have hbase := not_mem_slugBase runtime request.draws template
  have hlast : ∀ tried, tries ≤ tried →
      Leads runtime operator (db, .naming request template tried)
        (db, .confirming request template (lastCandidate request.draws
          (slugBase runtime request.draws template))) := by
    intro tried hle
    refine Leads.step ?_
    simp only [proceed]
    rw [if_pos hle]
  induction left generalizing tried with
  | zero =>
      exact ⟨_, lastCandidate_plain hbase request.draws, hdrawn,
        hlast tried (by omega)⟩
  | succ left ih =>
      have hlt : ¬ tries ≤ tried := by omega
      cases hslug : getBySlug (candidate (slugBase runtime request.draws
          template) tried) db with
      | none =>
          refine ⟨_, candidate_plain hbase tried, hslug, Leads.step ?_⟩
          simp only [proceed]
          rw [if_neg hlt, hslug]
          rfl
      | some taken =>
          obtain ⟨slug, hplain, hfree, hleads⟩ := ih (tried + 1) (by omega)
          refine ⟨slug, hplain, hfree, Leads.trans (Leads.step ?_) hleads⟩
          simp only [proceed]
          rw [if_neg hlt, hslug]
          rfl

/-- The order of a free slug can be claimed. -/
theorem claim_free (hsound : Sound db)
    (hrunning : ∀ order ∈ db.orders, order.status ≠ .provisioning)
    (templateId : String) {slug : String} (hplain : Plain slug)
    (hfree : getBySlug slug db = none) (user : String) :
    ∃ claimed order, claimProvisioning (idempotencyKey templateId slug)
      .recruitExpert templateId none user db = .ok (claimed, order) := by
  unfold claimProvisioning
  cases hfound : lookup Order.idempotencyKey (idempotencyKey templateId slug)
      db.orders with
  | none => exact ⟨_, _, rfl⟩
  | some order =>
      have hmem := lookup_mem hfound
      rcases hsound.ledger.statuses order hmem with hs | hs | hs
      · exact absurd hs (hrunning order hmem)
      · -- the employee of a succeeded order has the slug
        obtain ⟨employee, hemployee, -, hkey⟩ :=
          hsound.ledger.succeeded order hmem hs
        obtain ⟨slug', hplain', hnamed⟩ := hsound.ledger.named order hmem
        obtain ⟨-, hslug⟩ := idempotencyKey_inj hplain' hplain
          (hnamed.symm.trans (lookup_key hfound))
        have hsame : employee.slug = slug' := by
          have hlist := congrArg String.toList (hkey.symm.trans hnamed)
          simp only [idempotencyKey, String.toList_append, List.append_assoc,
            List.append_cancel_left_eq] at hlist
          exact String.toList_injective hlist
        have htaken := hsound.people.slugs employee hemployee
        rw [hsame, hslug] at htaken
        rw [getBySlug, htaken] at hfree
        cases hfree
      · exact ⟨_, _, by simp only [hs]; rfl⟩

theorem installPrepared_congr {prepared : String × String}
    {installed db' : Db} (hskills : db'.skills = db.skills)
    (h : installPrepared prepared db = .ok installed) :
    ∃ installed', installPrepared prepared db' = .ok installed' ∧
      installed'.skills = installed.skills := by
  unfold installPrepared at h ⊢
  rw [hskills]
  split at h
  · exact ⟨_, rfl, by rw [← Except.ok.inj h]⟩
  · split at h
    · next hsame =>
        refine ⟨db', if_pos hsame, ?_⟩
        rw [← Except.ok.inj h, hskills]
    · exact nomatch h

theorem installAll_congr {prepared : List (String × String)}
    {installed db' : Db} (hskills : db'.skills = db.skills)
    (h : prepared.foldlM (fun db item => installPrepared item db) db =
      .ok installed) :
    ∃ installed', prepared.foldlM (fun db item => installPrepared item db)
      db' = .ok installed' := by
  induction prepared generalizing db db' with
  | nil => exact ⟨db', rfl⟩
  | cons item rest ih =>
      rw [List.foldlM_cons] at h
      obtain ⟨between, hitem, hrest⟩ := bind_ok h
      obtain ⟨between', hitem', hsame⟩ := installPrepared_congr hskills hitem
      obtain ⟨installed', hrest'⟩ := ih hsame hrest
      exact ⟨installed', by rw [List.foldlM_cons, hitem']; exact hrest'⟩

theorem installSkillPlan_congr {plan : SkillPlan} {db' : Db}
    (hskills : db'.skills = db.skills)
    (h : ∃ installed, installSkillPlan plan db = .ok installed) :
    ∃ installed, installSkillPlan plan db' = .ok installed := by
  obtain ⟨installed, h⟩ := h
  cases plan with
  | named given => exact ⟨_, rfl⟩
  | packages prepared =>
      obtain ⟨between, hall, -⟩ := bind_ok h
      obtain ⟨installed', hall'⟩ := installAll_congr hskills hall
      exact ⟨(installed', prepared.map Prod.fst), by
        simp only [installSkillPlan, hall']; rfl⟩

theorem bind_of_ok {α β : Type} {x : Result α} {f : α → Result β} {a : α}
    {r : β} (h : x = .ok a) (h' : f a = .ok r) : x >>= f = .ok r := by
  rw [h]
  exact h'

/-- With everything in place the publication goes through. -/
theorem publishExpert_succeeds (hsound : Sound db) {request : RecruitRequest}
    {template : Template} {plan : SkillPlan} {order : Order} {slug : String}
    (hsubjects : ∃ subjects, validateGrantSubjects runtime
      request.departmentIds request.memberIds db = .ok subjects)
    (hskills : ∃ installed, installSkillPlan plan db = .ok installed)
    (hfree : ∀ employee ∈ db.employees, employee.live = true →
      employee.sourceTemplateId ≠ some template.templateId)
    (hslug : getBySlug slug db = none) (hstatus : order.status = .provisioning) :
    ∃ published id, publishExpert runtime request template plan order slug db =
      .ok (published, id) := by
  obtain ⟨⟨departmentIds, memberIds⟩, hsubjects⟩ := hsubjects
  obtain ⟨⟨installed, skills⟩, hinstall⟩ := hskills
  have haside := installSkillPlan_aside hinstall
  have hnone : getBySourceTemplate template.templateId installed = none := by
    rw [getBySourceTemplate, haside.employees, List.find?_eq_none]
    intro employee hmem hfound
    simp only [Bool.and_eq_true, decide_eq_true_eq] at hfound
    exact hfree employee hmem hfound.2 hfound.1
  have hslug' : getBySlug slug installed = none := by
    rw [getBySlug, haside.employees]
    exact hslug
  obtain ⟨created, row, hcreate⟩ : ∃ created row, createEmployee slug
      (displayName request.displayNameOverride template.displayName)
      (some (template.templateId, template.version)) departmentIds skills
      installed = .ok (created, row) := by
    simp [createEmployee, hslug', hnone]
  obtain ⟨hhired, hrow⟩ := createEmployee_ok hcreate
  obtain ⟨moved, hmove, -⟩ :=
    hhired.activate (haside.sound hsound) (by rw [hrow])
  have hdone : order.markSucceeded row.id = .ok { order with
      status := .succeeded, createdEmployeeId := some row.id } := by
    rw [Order.markSucceeded, if_pos hstatus]
  unfold publishExpert
  exact ⟨_, _, bind_of_ok hsubjects (bind_of_ok hinstall (bind_of_ok hcreate
    (bind_of_ok hmove (bind_of_ok hdone rfl))))⟩

/-- From a quiet state a recruit that nothing interferes with succeeds. -/
theorem recruit_leads (h : Invariant state) (hquiet : Quiet state)
    {request : RecruitRequest} {operator : Operator}
    (hready : Ready runtime state.db request operator) :
    ∃ final id, Leads runtime operator
        (state.db, .checkingSubjects request) (final, .finished (.ok id)) ∧
      ∃ row ∈ final.employees, row.id = id ∧ row.status = .active ∧
        row.sourceTemplateId = some request.templateId := by
  obtain ⟨subjects, hsubjects⟩ := hready.subjects
  have hnone : getBySourceTemplate operator.template.templateId state.db =
      none := by
    rw [getBySourceTemplate, List.find?_eq_none]
    intro employee hmem hfound
    simp only [Bool.and_eq_true, decide_eq_true_eq, hready.answers] at hfound
    exact hready.free employee hmem hfound.2 hfound.1
  obtain ⟨slug, hplain, hfree, hnaming⟩ := naming_leads operator request
    operator.template hready.drawn tries 0 rfl
  obtain ⟨claimed, order, hclaim⟩ := claim_free h.sound
    (hquiet.not_running h) operator.template.templateId hplain hfree
    request.user
  have hclaimed := claimProvisioning_claimed h.sound.ledger hplain hclaim
  have hsound := hclaimed.sound h.sound
  obtain ⟨published, id, hpublish⟩ : ∃ published id, publishExpert runtime
      request operator.template operator.plan order slug claimed =
        .ok (published, id) := by
    refine publishExpert_succeeds hsound ?_ ?_ ?_ ?_ hclaimed.status
    · rw [hclaimed.frame]
      exact hready.subjects
    · refine installSkillPlan_congr ?_ hready.skills
      rw [hclaimed.frame]
    · rw [hclaimed.frame, hready.answers]
      exact hready.free
    · rw [hclaimed.frame]
      exact hfree
  have hcheck : Leads runtime operator (state.db, .checkingSubjects request)
      (state.db, .pullingTemplate request) := by
    refine Leads.step ?_
    simp only [proceed, hsubjects]
    rfl
  have hpull : Leads runtime operator (state.db, .pullingTemplate request)
      (state.db, .lookingUp request operator.template) := Leads.step rfl
  have hlook : Leads runtime operator
      (state.db, .lookingUp request operator.template)
      (state.db, .naming request operator.template 0) := by
    refine Leads.step ?_
    have hauto := hready.automatic
    simp only [proceed, hnone]
    cases hslug : request.employeeSlug with
    | none => rfl
    | some given =>
        rw [hslug, Option.getD_some] at hauto
        rw [hauto]
        rfl
  have hconfirm : Leads runtime operator
      (state.db, .confirming request operator.template slug)
      (state.db, .claiming request operator.template slug) := by
    refine Leads.step ?_
    simp only [proceed, hfree]
    rfl
  have htake : Leads runtime operator
      (state.db, .claiming request operator.template slug)
      (claimed, .resolving request operator.template slug order) := by
    refine Leads.step ?_
    simp only [proceed, hclaim]
  have hresolve : Leads runtime operator
      (claimed, .resolving request operator.template slug order)
      (claimed, .publishing request operator.template slug order
        operator.plan) := Leads.step rfl
  have hfinish : Leads runtime operator
      (claimed, .publishing request operator.template slug order
        operator.plan) (published, .finished (.ok id)) := by
    refine Leads.step ?_
    simp only [proceed, hpublish]
  refine ⟨published, id, ?_, ?_⟩
  · exact hcheck.trans (hpull.trans (hlook.trans (hnaming.trans
      (hconfirm.trans (htake.trans (hresolve.trans hfinish))))))
  · obtain ⟨-, departmentIds, memberIds, hpublished⟩ :=
      publishExpert_ok hsound ⟨hclaimed.mem, hclaimed.status,
        hclaimed.template, hclaimed.key⟩ hpublish
    obtain ⟨row, hrow, hid, -, hstatus, hsource, -⟩ := hpublished.hired
    refine ⟨row, ?_, hid, hstatus, by rw [hsource, hready.answers]⟩
    rw [hrow]
    exact List.mem_append_right _ (List.mem_singleton_self row)

/-! ### Whole runs -/

/-- The state a history leaves. -/
abbrev reached (runtime : Runtime) (actions : List Action) : State :=
  (machine runtime).run empty actions

/-- What is published besides the orders. -/
def published (db : Db) :=
  (db.employees, db.grants, db.events, db.instances, db.applyRecords)

/-- A publication writes all of its rows or none, and nothing else publishes.
-/
def Whole (db db' : Db) : Phase → Prop
  | .publishing request template slug order _ =>
      db' = db ∨ ∃ departmentIds memberIds id, ExpertPublished request template
        order slug departmentIds memberIds db db' id
  | .publishingSolution application =>
      db' = db ∨ ∃ departmentIds memberIds row created,
        SolutionPublished application.request application.package
          application.prepared departmentIds memberIds db db' row created
  | _ => published db' = published db

theorem proceed_whole (h : Sound db) {phase : Phase} (hok : PhaseOk db phase)
    (operator : Operator) (reply : Reply) (hcareful : CarefulReply phase reply) :
    Whole db (proceed runtime operator db phase).1 phase := by
  cases phase with
  | claiming request template slug =>
      change published (proceed runtime operator db
        (.claiming request template slug)).1 = published db
      simp only [proceed]
      split
      · rfl
      · next claimed order hclaim =>
          have hclaimed := claimProvisioning_claimed h.ledger
            (show Plain slug from hcareful.1) hclaim
          rw [hclaimed.frame]
          rfl
  | publishing request template slug order plan =>
      simp only [proceed, Whole]
      split
      · exact Or.inl rfl
      · next final id hpublish =>
          obtain ⟨-, departmentIds, memberIds, hpublished⟩ :=
            publishExpert_ok h hok hpublish
          exact Or.inr ⟨departmentIds, memberIds, id, hpublished⟩
  | failing order failure =>
      change published (proceed runtime operator db
        (.failing order failure)).1 = published db
      simp only [proceed]
      split <;> rfl
  | publishingSolution application =>
      simp only [proceed, Whole]
      split
      · exact Or.inl rfl
      · next final row created hpublish =>
          have hled : application.coordinator ∈ application.prepared.map
              fun item => item.template.templateId := by
            have happ : Led application [] := hok
            simpa [Led] using happ
          obtain ⟨-, departmentIds, memberIds, hpublished⟩ :=
            publishSolution_ok h hcareful hled hpublish
          exact Or.inr ⟨departmentIds, memberIds, row, created, hpublished⟩
  | _ =>
      rw [proceed_reads runtime operator db rfl]
      rfl

theorem Whole.refl (db : Db) (phase : Phase) : Whole db db phase := by
  cases phase
  case publishing => exact Or.inl rfl
  case publishingSolution => exact Or.inl rfl
  all_goals rfl

theorem advance_whole (h : Sound db) {phase : Phase} (hok : PhaseOk db phase)
    (reply : Reply) (hcareful : CarefulReply phase reply) :
    Whole db (advance runtime reply db phase).1 phase := by
  cases reply with
  | answered operator => exact proceed_whole h hok operator _ hcareful
  | refused failure => exact Whole.refl db phase
  | lost operator failure => exact proceed_whole h hok operator _ hcareful

/-- A succeeded order is in the table for good. -/
theorem succeeded_step (h : Invariant state) {action : Action}
    (hcareful : Careful state action) {order : Order}
    (hmem : order ∈ state.db.orders) (hdone : order.status = .succeeded) :
    order ∈ ((machine runtime).next state action).db.orders := by
  cases action with
  | advance call reply =>
      change order ∈ (step runtime state (.advance call reply)).1.db.orders
      simp only [step]
      split
      · exact hmem
      · next phase hcall =>
          have hok := h.phases phase (List.mem_of_getElem? hcall)
          have hadvanced : Advanced state.db phase
              (advance runtime reply state.db phase).1
              (advance runtime reply state.db phase).2.1 :=
            advance_advanced h.sound hok reply (hcareful phase hcall)
          refine hadvanced.kept order hmem (Or.inr hdone) fun held hheld hid => ?_
          obtain ⟨hmem', hstatus⟩ := hok.held hheld
          rw [← h.sound.ledger.ids.eq_of_key hmem hmem' hid, hdone] at hstatus
          cases hstatus
  | recruit request => exact hmem
  | apply request => exact hmem
  | crash call => exact hmem
  | hire slug name departmentIds skills =>
      have hwritten := (written_sound h _ hcareful).2
      exact hwritten ▸ hmem
  | transition id fromStatus transition =>
      have hwritten := (written_sound h _ hcareful).2
      exact hwritten ▸ hmem
  | delete id => exact hmem
  | installSkill prepared =>
      have hwritten := (written_sound h _ hcareful).2
      exact hwritten ▸ hmem
  | setSubjects departments members => exact hmem

/-- What a history of recruitments promises. -/
structure Recruited (runtime : Runtime) (actions : List Action) : Prop where
  /-- A publication writes all of its rows or none of them. -/
  whole : ∀ {past rest call reply phase},
    actions = past ++ .advance call reply :: rest →
    (reached runtime past).calls[call]? = some phase →
    Whole (reached runtime past).db
      (reached runtime (past ++ [.advance call reply])).db phase
  /-- An order has at most one employee for each time it was claimed. -/
  once : ∀ orderId, creations orderId ((machine runtime).trace empty actions) ≤
    claims orderId ((machine runtime).trace empty actions)
  /-- A succeeded order never changes again. -/
  final : ∀ {past rest order}, actions = past ++ rest →
    order ∈ (reached runtime past).db.orders → order.status = .succeeded →
    order ∈ (reached runtime actions).db.orders
  /-- At most one live employee comes from a template. -/
  live : ∀ {left right templateId}, left ∈ (reached runtime actions).db.employees →
    right ∈ (reached runtime actions).db.employees → left.live = true →
    right.live = true → left.sourceTemplateId = some templateId →
    right.sourceTemplateId = some templateId → left = right
  /-- The coordinator of a solution is one of its experts. -/
  coordinated : ∀ row ∈ (reached runtime actions).db.instances,
    ∃ id ∈ row.expertEmployeeIds, row.coordinatorEmployeeId = some id
  /-- With no call running, a template without live employee is recruited. -/
  recruits : ∀ {request operator}, Quiet (reached runtime actions) →
    Ready runtime (reached runtime actions).db request operator →
    ∃ n id, ∃ after, (machine runtime).run (reached runtime actions)
        (.recruit request :: List.replicate n (.advance
          (reached runtime actions).calls.length (.answered operator))) =
          after ∧
      after.calls[(reached runtime actions).calls.length]? =
        some (.finished (.ok id)) ∧
      ∃ row ∈ after.db.employees, row.id = id ∧ row.status = .active ∧
        row.sourceTemplateId = some request.templateId

theorem careful_invariant {actions : List Action}
    (hrun : (machine runtime).Admissible Careful empty actions) :
    Invariant (reached runtime actions) :=
  (machine runtime).stateInvariant Invariant
    (fun _ action h hcareful => h.step action hcareful) actions
    Invariant.empty hrun

/-- Recruitment keeps its promises in every history in which the answer to a
claim, to the publication of an expert and to the report of a failure reaches
a caller that is still there, no explicit slug has a colon, and no employee is
deleted that a succeeded order names. -/
theorem careful_history_recruits (runtime : Runtime) (actions : List Action)
    (hrun : (machine runtime).Admissible Careful empty actions) :
    Recruited runtime actions where
  whole := by
    rintro past rest call reply phase rfl hcall
    have hpast := careful_invariant (Machine.admissible_left hrun)
    have hcareful := (Machine.admissible_right hrun).1 phase hcall
    have hwhole : Whole _ (advance runtime reply
        (reached runtime past).db phase).1 phase :=
      advance_whole hpast.sound
        (hpast.phases phase (List.mem_of_getElem? hcall)) reply hcareful
    have hnext : reached runtime (past ++ [.advance call reply]) =
        (step runtime (reached runtime past) (.advance call reply)).1 := by
      rw [reached, Machine.run_append]
      rfl
    rw [hnext]
    simp only [step, hcall]
    exact hwhole
  once := creations_le_claims runtime actions
  final := by
    rintro past rest order rfl hmem hdone
    have hpast := careful_invariant (Machine.admissible_left hrun)
    rw [reached, Machine.run_append]
    have hkept := (machine runtime).stateInvariant
      (fun state => Invariant state ∧ order ∈ state.db.orders)
      (fun _ action h hcareful => ⟨h.1.step action hcareful,
        succeeded_step h.1 hcareful h.2 hdone⟩)
      rest ⟨hpast, hmem⟩ (Machine.admissible_right hrun)
    exact hkept.2
  live := fun hleft hright hl hr hsl hsr =>
    (careful_invariant hrun).sound.people.live _ hleft _ hright hl hr _ hsl hsr
  coordinated := (careful_invariant hrun).sound.coordinated
  recruits := by
    intro request operator hquiet hready
    obtain ⟨final, id, ⟨n, hsolo⟩, hrow⟩ :=
      recruit_leads (careful_invariant hrun) hquiet hready
    refine ⟨n, id, _, rfl, ?_⟩
    have hlast : ((reached runtime actions).calls ++
        [.checkingSubjects request])[(reached runtime actions).calls.length]? =
          some (.checkingSubjects request) := by
      rw [List.getElem?_concat_length]
    have hsteps : (machine runtime).run
        ((machine runtime).next (reached runtime actions) (.recruit request))
        (List.replicate n (.advance (reached runtime actions).calls.length
          (.answered operator))) = _ :=
      solo_run runtime operator n _ hlast
    rw [Machine.run, hsteps, hsolo]
    refine ⟨?_, hrow⟩
    rw [List.getElem?_set_self (by simp)]

namespace OrdersWitness

/-- Python's functions on the ASCII names and the absent ids below. -/
def python : Runtime := ⟨List.map Char.toLower, some⟩

def writer : Template := ⟨"writer", "1", "Copy Writer", 1, true⟩

def analyst : Template := ⟨"analyst", "1", "Analyst", 2, true⟩

def operator : Operator :=
  ⟨writer, ⟨"launch", "1.0", "Launch", "writer", [analyst, writer]⟩,
    .packages [("platform-draft", "hash")]⟩

def request : RecruitRequest :=
  ⟨"owner", "writer", none, none, [], [], ⟨[], []⟩⟩

def answers (call n : Nat) : List Action :=
  List.replicate n (.advance call (.answered operator))

def recruited : List Action := .recruit request :: answers 0 8

/-- The expert is recruited, joins a solution, is archived and recruited
again. -/
def history : List Action :=
  recruited ++ .apply ⟨"owner", "launch", none, [], []⟩ :: answers 1 9 ++
    [.transition 1 .active "archive"] ++ .recruit request :: answers 2 9

/-- The expert is recruited and its employee deleted. -/
def dismissed : State := reached python (recruited ++ [.delete 1])

end OrdersWitness

open OrdersWitness in
theorem careful_history_recruits_writer :
    Recruited python history ∧
      ((machine python).trace empty history).length = 6 :=
  ⟨careful_history_recruits python history (by decide),
    by decide⟩

open OrdersWitness in
/-- The key of the next recruit is the one of the succeeded order. -/
theorem deleted_expert_is_refused :
    Quiet dismissed ∧ Ready python dismissed.db request operator ∧
      ((machine python).run dismissed
        (.recruit request :: answers 1 6)).calls[1]? =
          some (.finished (.error (conflict
            "recruitment order is already provisioning or succeeded"))) := by
  refine ⟨by decide, ?_, by decide⟩
  refine ⟨rfl, rfl, by decide, ⟨([], []), rfl⟩, ?_, by decide⟩
  exact ⟨(dismissed.db, ["platform-draft"]), by decide⟩

end AiTeam.Recruit
