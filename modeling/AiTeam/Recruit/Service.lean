/-
Recruiting an expert and applying a solution (`recruit_service.py`), one
statement or one answer of the Operator at a time.  Every statement outside the
publication is a transaction of its own; the publication is one.
-/
import AiTeam.Recruit.Store
import AiTeam.Machine

namespace AiTeam.Recruit

/-- Python's own functions on Unicode data. -/
structure Runtime where
  lower : List Char → List Char
  /-- `str(UUID(item))`, for an item that is one. -/
  parseUuid : String → Option String

/-- What is read here of `ExpertTemplateDetail`. -/
structure Template where
  templateId : String
  version : String
  displayName : String
  sequenceNo : Nat
  enabled : Bool
deriving DecidableEq

/-- What is read here of `SolutionPackage`. -/
structure Package where
  solutionId : String
  version : String
  displayName : String
  coordinatorTemplateId : String
  experts : List Template
deriving DecidableEq

/-- Two drawn uuids, in hex. -/
structure Draws where
  first : List (Fin 16)
  second : List (Fin 16)
deriving DecidableEq

structure RecruitRequest where
  user : String
  templateId : String
  employeeSlug : Option String
  displayNameOverride : Option String
  departmentIds : List String
  memberIds : List String
  draws : Draws
deriving DecidableEq

structure ApplyRequest where
  user : String
  solutionId : String
  displayNameOverride : Option String
  departmentIds : List String
  memberIds : List String
deriving DecidableEq

/-! ### Slugs -/

/-- `str.isspace` and `\s`. -/
def isSpace (c : Char) : Bool :=
  let n := c.toNat
  (0x09 ≤ n && n ≤ 0x0D) || (0x1C ≤ n && n ≤ 0x20) || n == 0x85 ||
    n == 0xA0 || n == 0x1680 || (0x2000 ≤ n && n ≤ 0x200A) || n == 0x2028 ||
    n == 0x2029 || n == 0x202F || n == 0x205F || n == 0x3000

def isGap (c : Char) : Bool :=
  isSpace c || c == '-'

/-- What `_SLUGIFY_RE` leaves. -/
def isKept (c : Char) : Bool :=
  ('a' ≤ c && c ≤ 'z') || ('0' ≤ c && c ≤ '9') || isGap c

/-- `_SLUG_SPACER_RE.sub("_", text)`: every run of gaps becomes one mark. -/
def spaced : Bool → List Char → List Char
  | _, [] => []
  | inGap, c :: rest =>
      if isGap c then
        if inGap then spaced true rest else '_' :: spaced true rest
      else c :: spaced false rest

def strip (p : Char → Bool) (text : List Char) : List Char :=
  ((text.dropWhile p).reverse.dropWhile p).reverse

def slugify (text : List Char) : List Char :=
  strip (· == '_') (spaced false (text.filter isKept))

def hexDigit (digit : Fin 16) : Char :=
  if digit.val < 10 then Char.ofNat (digit.val + 48)
  else Char.ofNat (digit.val + 87)

def hex (digits : List (Fin 16)) (length : Nat) : List Char :=
  (digits.take length).map hexDigit

/-- The base of the slugs of a template. -/
def slugBase (runtime : Runtime) (draws : Draws) (template : Template) :
    List Char :=
  let named := slugify (runtime.lower (strip isSpace
    template.displayName.toList))
  let fallback := slugify (runtime.lower template.templateId.toList)
  let base := if named ≠ [] then named
    else if fallback ≠ [] then fallback
    else "emp_".toList ++ hex draws.first 8
  base.take 64

/-- The candidates of `_generate_unique_slug`, and what it falls back to. -/
def candidate (base : List Char) : Nat → String
  | 0 => String.ofList base
  | i + 1 =>
      let suffix := '_' :: Nat.toDigits 10 (i + 1)
      String.ofList (base.take (64 - suffix.length) ++ suffix)

def lastCandidate (draws : Draws) (base : List Char) : String :=
  String.ofList (base.take 56 ++ '_' :: hex draws.second 7)

def tries : Nat := 50

def solutionExpertSlug (runtime : Runtime) (package : Package) (index : Nat) :
    String :=
  let sid := runtime.lower
    (package.solutionId.toList.map fun c => if c = '-' then '_' else c)
  let ver := runtime.lower
    (package.version.toList.map fun c => if c = '.' ∨ c = '-' then '_' else c)
  String.ofList ("sol_".toList ++ sid ++ '_' :: ver ++ "_e".toList ++
    Nat.toDigits 10 index)

/-- `_idempotency_key`. -/
def idempotencyKey (templateId slug : String) : String :=
  "recruit:" ++ templateId ++ ":" ++ slug

/-! ### Subjects -/

def validateUuids (runtime : Runtime) : List String → Option (List String)
  | [] => some []
  | item :: rest => do
      let head ← runtime.parseUuid item
      let tail ← validateUuids runtime rest
      return head :: tail

/-- `list(dict.fromkeys(items))`. -/
def unique (items : List String) : List String :=
  items.foldl (fun seen item =>
    if item ∈ seen then seen else seen ++ [item]) []

/-- `_validate_grant_subjects`. -/
def validateGrantSubjects (runtime : Runtime) (departmentIds memberIds :
    List String) (db : Db) : Result (List String × List String) :=
  match validateUuids runtime departmentIds,
      validateUuids runtime memberIds with
  | some departments, some members =>
      if departments.any fun id => id ∉ db.departments then
        .error (notFound "department not found in this tenant")
      else if members.any fun id => id ∉ db.members then
        .error (notFound "member not found in this tenant")
      else .ok (unique departments, unique members)
  | _, _ =>
      .error ⟨"validation_error",
        "department_ids and member_ids must contain non-empty UUIDs"⟩

/-! ### Publication -/

def displayName (override : Option String) (name : String) : String :=
  match override with
  | none => name
  | some given => if given = "" then name else given

/-- `_publish_expert`: the new employee's id. -/
def publishExpert (runtime : Runtime) (request : RecruitRequest)
    (template : Template) (plan : SkillPlan) (order : Order) (slug : String)
    (db : Db) : Result (Db × Nat) := do
  let (departmentIds, memberIds) ← validateGrantSubjects runtime
    request.departmentIds request.memberIds db
  let (db, skills) ← installSkillPlan plan db
  let (db, row) ← createEmployee slug
    (displayName request.displayNameOverride template.displayName)
    (some (template.templateId, template.version)) departmentIds skills db
  let (db, _) ← transitionStatus row.id .draft .active db
  let db := if departmentIds = [] ∧ memberIds = [] then db
    else upsertGrant ⟨.expert, row.id, departmentIds, memberIds⟩ db
  let db := appendRecruitEvent ⟨.recruitExpert, request.user,
    template.templateId, template.version, [row.id], none⟩ db
  let completed ← order.markSucceeded row.id
  return (updateOrder completed db, row.id)

/-- One entry of `prepared`: the template, the employee to reuse, and the slug
and skills of a new one. -/
structure Prepared where
  template : Template
  previous : Option Nat
  slug : String
  plan : SkillPlan
deriving DecidableEq

/-- What the loop of `_publish_solution` has gathered. -/
structure Gathered where
  employeeIds : List Nat
  coordinatorEmployeeId : Option Nat
  /-- The orders claimed and the employees created for them. -/
  created : List (Nat × Nat)
deriving DecidableEq

def claimAction (solutionId : String) : OrderAction :=
  if solutionId = "" then .recruitExpert else .applySolution

/-- One turn of the loop. -/
def publishPrepared (user : String) (package : Package)
    (coordinator : String) (departmentIds : List String) (item : Prepared)
    (db : Db) (gathered : Gathered) : Result (Db × Gathered) :=
  let gather (db : Db) (id : Nat) (created : List (Nat × Nat)) :=
    (db, ({
      employeeIds := gathered.employeeIds ++ [id]
      coordinatorEmployeeId :=
        if item.template.templateId = coordinator then some id
        else gathered.coordinatorEmployeeId
      created := gathered.created ++ created } : Gathered))
  let existing := getBySourceTemplate item.template.templateId db
  if item.previous ≠ none ∧ existing.map Employee.id ≠ item.previous then
    .error (conflict
      "reused employee changed during solution preflight; retry")
  else
    match existing with
    | some row => .ok (gather db row.id [])
    | none => do
        let (db, order) ← claimProvisioning
          (idempotencyKey item.template.templateId item.slug)
          (claimAction package.solutionId) item.template.templateId
          (some package.solutionId) user db
        let (db, skills) ← installSkillPlan item.plan db
        let (db, row) ← createEmployee item.slug item.template.displayName
          (some (item.template.templateId, item.template.version))
          departmentIds skills db
        let (db, _) ← transitionStatus row.id .draft .active db
        let completed ← order.markSucceeded row.id
        return gather (updateOrder completed db) row.id [(order.id, row.id)]

def publishAll (user : String) (package : Package) (coordinator : String)
    (departmentIds : List String) :
    List Prepared → Db → Gathered → Result (Db × Gathered)
  | [], db, gathered => .ok (db, gathered)
  | item :: rest, db, gathered => do
      let (db, gathered) ← publishPrepared user package coordinator
        departmentIds item db gathered
      publishAll user package coordinator departmentIds rest db gathered

/-- `_apply_solution_grants`. -/
def applySolutionGrants (employeeIds : List Nat)
    (departmentIds memberIds : List String) (db : Db) : Db :=
  if departmentIds = [] ∧ memberIds = [] then db
  else
    employeeIds.foldl (fun db id =>
      extendGrant ⟨.expert, id, departmentIds, memberIds⟩ db) db

/-- `_publish_solution`: the instance, and what was created on the way. -/
def publishSolution (runtime : Runtime) (request : ApplyRequest)
    (package : Package) (prepared : List Prepared) (coordinator : String)
    (db : Db) : Result (Db × SolutionInstance × List (Nat × Nat)) := do
  let (departmentIds, memberIds) ← validateGrantSubjects runtime
    request.departmentIds request.memberIds db
  if (findSolutionInstance package.solutionId package.version db).isSome then
    throw (conflict "solution instance already applied in this tenant")
  let (db, gathered) ← publishAll request.user package coordinator
    departmentIds prepared db ⟨[], none, []⟩
  let db := applySolutionGrants gathered.employeeIds departmentIds memberIds db
  let (db, row) ← createSolutionInstance package.solutionId package.version
    (displayName request.displayNameOverride package.displayName)
    gathered.employeeIds gathered.coordinatorEmployeeId db
  let db := if departmentIds = [] ∧ memberIds = [] then db
    else upsertGrant ⟨.solution, row.id, departmentIds, memberIds⟩ db
  let db := appendRecruitEvent ⟨.applySolution, request.user,
    package.solutionId, package.version, gathered.employeeIds, some row.id⟩ db
  let db := createSolutionApplyRecord ⟨package.solutionId, package.version,
    request.user, gathered.employeeIds, row.id⟩ db
  return (db, row, gathered.created)

/-! ### Preflight of a solution -/

/-- `(sequence_no, template_id)` of two experts in order. -/
def Template.before (left right : Template) : Prop :=
  left.sequenceNo < right.sequenceNo ∨
    left.sequenceNo = right.sequenceNo ∧ left.templateId ≤ right.templateId

instance : DecidableRel Template.before := fun _ _ =>
  inferInstanceAs (Decidable (_ ∨ _ ∧ _))

def orderedExperts (package : Package) : List Template :=
  (package.experts.filter Template.enabled).insertionSort Template.before

def coordinatorOf (package : Package) (experts : List Template) : String :=
  if package.coordinatorTemplateId = "" then
    (experts.head?.map Template.templateId).getD ""
  else package.coordinatorTemplateId

/-- The checks of a package before its experts are prepared. -/
def checkPackage (package : Package) : Result (List Template × String) :=
  let experts := orderedExperts package
  let coordinator := coordinatorOf package experts
  if experts = [] then
    .error (conflict "solution package has no enabled experts")
  else if coordinator ∉ experts.map Template.templateId then
    .error (conflict "solution coordinator must be one of the enabled experts")
  else .ok (experts, coordinator)

/-! ### Calls -/

/-- An application between its package and its publication. -/
structure Application where
  request : ApplyRequest
  package : Package
  coordinator : String
  prepared : List Prepared
deriving DecidableEq

inductive Phase where
  | checkingSubjects (request : RecruitRequest)
  | pullingTemplate (request : RecruitRequest)
  | lookingUp (request : RecruitRequest) (template : Template)
  | naming (request : RecruitRequest) (template : Template) (tried : Nat)
  | confirming (request : RecruitRequest) (template : Template)
      (slug : String)
  | claiming (request : RecruitRequest) (template : Template) (slug : String)
  | resolving (request : RecruitRequest) (template : Template)
      (slug : String) (order : Order)
  | publishing (request : RecruitRequest) (template : Template)
      (slug : String) (order : Order) (plan : SkillPlan)
  | failing (order : Order) (failure : Failure)
  | checkingApplication (request : ApplyRequest)
  | pullingPackage (request : ApplyRequest)
  | finding (request : ApplyRequest) (package : Package)
  | preparing (application : Application) (rest : List Template)
  | slugging (application : Application) (template : Template)
      (rest : List Template)
  | packing (application : Application) (template : Template) (slug : String)
      (rest : List Template)
  | publishingSolution (application : Application)
  | finished (result : Result Nat)
  | crashed
deriving DecidableEq

/-- What the Operator answers: a template, a package, and what its access and
skill checks come to. -/
structure Operator where
  template : Template
  package : Package
  plan : SkillPlan
deriving DecidableEq

/-- A statement or a request that answers, one that fails with no effect, and
one whose effect stands though the caller sees a failure. -/
inductive Reply where
  | answered (operator : Operator)
  | refused (failure : Failure)
  | lost (operator : Operator) (failure : Failure)
deriving DecidableEq

inductive Event where
  | claimed (orderId : Nat)
  | created (orderId employeeId : Nat)
deriving DecidableEq

def next (result : Result Phase) : Phase :=
  match result with
  | .ok phase => phase
  | .error failure => .finished (.error failure)

/-- A step that went well. -/
def proceed (runtime : Runtime) (operator : Operator) (db : Db) :
    Phase → Db × Phase × List Event
  | .checkingSubjects request =>
      (db, next ((validateGrantSubjects runtime request.departmentIds
        request.memberIds db).map fun _ => .pullingTemplate request), [])
  | .pullingTemplate request =>
      (db, .lookingUp request operator.template, [])
  | .lookingUp request template =>
      if (getBySourceTemplate template.templateId db).isSome then
        (db, .finished (.error (conflict
          "expert template already recruited in this tenant")), [])
      else
        match request.employeeSlug with
        | none => (db, .naming request template 0, [])
        | some slug =>
            if slug = "" then (db, .naming request template 0, [])
            else (db, .confirming request template slug, [])
  | .naming request template tried =>
      let base := slugBase runtime request.draws template
      if tries ≤ tried then
        (db, .confirming request template (lastCandidate request.draws base),
          [])
      else if (getBySlug (candidate base tried) db).isSome then
        (db, .naming request template (tried + 1), [])
      else (db, .confirming request template (candidate base tried), [])
  | .confirming request template slug =>
      if (getBySlug slug db).isSome then
        (db, .finished (.error (conflict
          "employee slug already exists in this tenant")), [])
      else (db, .claiming request template slug, [])
  | .claiming request template slug =>
      match claimProvisioning (idempotencyKey template.templateId slug)
          .recruitExpert template.templateId none request.user db with
      | .error failure => (db, .finished (.error failure), [])
      | .ok (claimed, order) =>
          (claimed, .resolving request template slug order,
            [.claimed order.id])
  | .resolving request template slug order =>
      (db, .publishing request template slug order operator.plan, [])
  | .publishing request template slug order plan =>
      match publishExpert runtime request template plan order slug db with
      | .error failure => (db, .failing order failure, [])
      | .ok (published, id) =>
          (published, .finished (.ok id), [.created order.id id])
  | .failing order failure =>
      match order.markFailed ⟨failure.code,
          String.ofList (failure.message.toList.take 1000)⟩ with
      | .error other => (db, .finished (.error other), [])
      | .ok failed =>
          (updateOrder failed db, .finished (.error failure), [])
  | .checkingApplication request =>
      (db, next ((validateGrantSubjects runtime request.departmentIds
        request.memberIds db).map fun _ => .pullingPackage request), [])
  | .pullingPackage request => (db, .finding request operator.package, [])
  | .finding request package =>
      if (findSolutionInstance package.solutionId package.version
          db).isSome then
        (db, .finished (.error (conflict
          "solution instance already applied in this tenant")), [])
      else
        (db, next ((checkPackage package).map fun checked =>
          .preparing ⟨request, package, checked.2, []⟩ checked.1), [])
  | .preparing application [] => (db, .publishingSolution application, [])
  | .preparing application (template :: rest) =>
      if template.templateId ∈ application.prepared.map fun item =>
          item.template.templateId then
        (db, .finished (.error (conflict
          ("solution contains duplicate expert template: " ++
            template.templateId))), [])
      else
        match getBySourceTemplate template.templateId db with
        | some existing =>
            (db, .preparing { application with
              prepared := application.prepared ++
                [⟨template, some existing.id, existing.slug, .named []⟩] }
              rest, [])
        | none => (db, .slugging application template rest, [])
  | .slugging application template rest =>
      let slug := solutionExpertSlug runtime application.package
        application.prepared.length
      if (getBySlug slug db).isSome then
        (db, .finished (.error (conflict
          ("employee slug collision during solution expansion: " ++ slug))),
          [])
      else (db, .packing application template slug rest, [])
  | .packing application template slug rest =>
      (db, .preparing { application with
        prepared := application.prepared ++
          [⟨template, none, slug, operator.plan⟩] } rest, [])
  | .publishingSolution application =>
      match publishSolution runtime application.request application.package
          application.prepared application.coordinator db with
      | .error failure => (db, .finished (.error failure), [])
      | .ok (published, row, created) =>
          (published, .finished (.ok row.id), created.flatMap fun entry =>
            [.claimed entry.1, .created entry.1 entry.2])
  | .finished result => (db, .finished result, [])
  | .crashed => (db, .crashed, [])

/-- What a failure makes of a call: a claimed order is marked failed first. -/
def broken (failure : Failure) : Phase → Phase
  | .resolving _ _ _ order => .failing order failure
  | .publishing _ _ _ order _ => .failing order failure
  | .finished result => .finished result
  | .crashed => .crashed
  | _ => .finished (.error failure)

/-- One step of a call. -/
def advance (runtime : Runtime) (reply : Reply) (db : Db) (phase : Phase) :
    Db × Phase × List Event :=
  match reply with
  | .answered operator => proceed runtime operator db phase
  | .refused failure => (db, broken failure phase, [])
  | .lost operator failure =>
      let done := proceed runtime operator db phase
      (done.1, broken failure phase, done.2.2)

/-- The process of a call dies. -/
def killed : Phase → Phase
  | .finished result => .finished result
  | _ => .crashed

structure State where
  db : Db
  calls : List Phase

inductive Action where
  | recruit (request : RecruitRequest)
  | apply (request : ApplyRequest)
  | advance (call : Nat) (reply : Reply)
  | crash (call : Nat)
  | hire (slug displayName : String) (departmentIds skills : List String)
  | transition (id : Nat) (fromStatus : EmployeeStatus) (transition : String)
  | delete (id : Nat)
  | installSkill (prepared : String × String)
  | setSubjects (departments members : List String)

/-- What a request on its own does to the tables. -/
def written (db : Db) : Action → Db
  | .hire slug name departmentIds skills =>
      match createEmployee slug name none departmentIds skills db with
      | .ok (created, _) => created
      | .error _ => db
  | .transition id fromStatus transition =>
      match targetStatus fromStatus transition with
      | .error _ => db
      | .ok toStatus =>
          match transitionStatus id fromStatus toStatus db with
          | .ok (moved, _) => moved
          | .error _ => db
  | .delete id => deleteEmployee id db
  | .installSkill prepared =>
      match installPrepared prepared db with
      | .ok installed => installed
      | .error _ => db
  | .setSubjects departments members => { db with departments, members }
  | _ => db

def step (runtime : Runtime) (state : State) (action : Action) :
    State × List Event :=
  match action with
  | .recruit request =>
      ({ state with calls := state.calls ++ [.checkingSubjects request] }, [])
  | .apply request =>
      ({ state with
        calls := state.calls ++ [.checkingApplication request] }, [])
  | .advance call reply =>
      match state.calls[call]? with
      | none => (state, [])
      | some phase =>
          let done := advance runtime reply state.db phase
          (⟨done.1, state.calls.set call done.2.1⟩, done.2.2)
  | .crash call =>
      ({ state with calls := state.calls.modify call killed }, [])
  | other => ({ state with db := written state.db other }, [])

def machine (runtime : Runtime) : Machine State Action Event where
  step := step runtime

/-- An enterprise before anything was recruited. -/
def empty : State := ⟨⟨[], [], [], [], [], [], [], [], [], 0⟩, []⟩

end AiTeam.Recruit
