/-
One enterprise's tables of recruitment and the statements on them
(`recruit_order_repository.py`, `employee_config_repository.py`,
`recruit_repository.py`, `repository_member.py`).  Columns that nothing here
reads are left out; ids are drawn from a counter.
-/
import Mathlib.Data.List.Dedup
import Mathlib.Data.List.Sort
import AiTeam.Table

namespace AiTeam.Recruit

inductive EmployeeStatus where
  | draft
  | provisioning
  | provisioningFailed
  | active
  | paused
  | archived
deriving DecidableEq

def EmployeeStatus.value : EmployeeStatus → String
  | draft => "draft"
  | provisioning => "provisioning"
  | provisioningFailed => "provisioning_failed"
  | active => "active"
  | paused => "paused"
  | archived => "archived"

structure Employee where
  id : Nat
  slug : String
  displayName : String
  status : EmployeeStatus
  sourceTemplateId : Option String
  sourceTemplateVersion : Option String
  departmentIds : List String
  skills : List String
deriving DecidableEq

/-- `status <> 'archived'`. -/
def Employee.live (employee : Employee) : Bool :=
  employee.status != .archived

inductive OrderStatus where
  | pending
  | provisioning
  | succeeded
  | failed
  | cancelled
deriving DecidableEq

def OrderStatus.value : OrderStatus → String
  | pending => "pending"
  | provisioning => "provisioning"
  | succeeded => "succeeded"
  | failed => "failed"
  | cancelled => "cancelled"

inductive OrderAction where
  | recruitExpert
  | applySolution
deriving DecidableEq

/-- `RecruitmentOrderRow`. -/
structure Order where
  id : Nat
  idempotencyKey : String
  action : OrderAction
  templateId : String
  solutionId : Option String
  requestedBy : String
  createdEmployeeId : Option Nat
  status : OrderStatus
  errorCode : Option String
  errorMessage : Option String
deriving DecidableEq

inductive ResourceType where
  | expert
  | solution
deriving DecidableEq

structure Grant where
  resourceType : ResourceType
  resourceId : Nat
  departmentIds : List String
  memberIds : List String
deriving DecidableEq

structure RecruitEvent where
  action : OrderAction
  actorUserId : String
  sourceId : String
  sourceVersion : String
  targetEmployeeIds : List Nat
  targetSolutionInstanceId : Option Nat
deriving DecidableEq

structure SolutionInstance where
  id : Nat
  solutionId : String
  solutionVersion : String
  displayName : String
  expertEmployeeIds : List Nat
  coordinatorEmployeeId : Option Nat
deriving DecidableEq

structure ApplyRecord where
  solutionId : String
  solutionVersion : String
  appliedBy : String
  expertInstanceIds : List Nat
  solutionInstanceId : Nat
deriving DecidableEq

structure Db where
  employees : List Employee
  orders : List Order
  grants : List Grant
  events : List RecruitEvent
  instances : List SolutionInstance
  applyRecords : List ApplyRecord
  skills : List (String × String)
  departments : List String
  members : List String
  next : Nat
deriving DecidableEq

structure Failure where
  code : String
  message : String
deriving DecidableEq

abbrev Result := Except Failure

def conflict (message : String) : Failure := ⟨"conflict", message⟩

def notFound (message : String) : Failure := ⟨"not_found", message⟩

/-! ### `recruitment_order` -/

/-- `claim_provisioning`: an insert, or on conflict of the key an update of an
order that is neither running nor done. -/
def claimProvisioning (key : String) (action : OrderAction)
    (templateId : String) (solutionId : Option String) (user : String)
    (db : Db) : Result (Db × Order) :=
  match lookup Order.idempotencyKey key db.orders with
  | none =>
      let order : Order :=
        ⟨db.next, key, action, templateId, solutionId, user, none,
          .provisioning, none, none⟩
      .ok ({ db with orders := db.orders ++ [order], next := db.next + 1 },
        order)
  | some order =>
      if order.status = .pending || order.status = .failed ||
          order.status = .cancelled then
        let claimed := { order with
          status := .provisioning, createdEmployeeId := none
          errorCode := none, errorMessage := none, requestedBy := user }
        .ok ({ db with
          orders := updateWhere (fun row => row.id = order.id)
            (fun _ => claimed) db.orders }, claimed)
      else
        .error (conflict
          "recruitment order is already provisioning or succeeded")

/-- `update`. -/
def updateOrder (order : Order) (db : Db) : Db :=
  { db with
    orders := updateWhere (fun row => row.id = order.id)
      (fun row => { row with
        status := order.status
        createdEmployeeId := order.createdEmployeeId
        errorCode := order.errorCode
        errorMessage := order.errorMessage }) db.orders }

def invalidTransition (message : String) : Failure :=
  ⟨"invalid_transition", message⟩

def Order.markSucceeded (order : Order) (employeeId : Nat) : Result Order :=
  if order.status = .provisioning then
    .ok { order with
      status := .succeeded, createdEmployeeId := some employeeId }
  else
    .error (invalidTransition
      ("Cannot mark succeeded from " ++ order.status.value))

def Order.markFailed (order : Order) (failure : Failure) : Result Order :=
  if order.status = .provisioning then
    .ok { order with
      status := .failed, errorCode := some failure.code
      errorMessage := some failure.message }
  else
    .error (invalidTransition
      ("Cannot mark failed from " ++ order.status.value))

/-! ### `employee` -/

/-- `_TRANSITIONS` and `target_status`. -/
def targetStatus (fromStatus : EmployeeStatus) (transition : String) :
    Result EmployeeStatus :=
  if fromStatus = .archived then
    .error (conflict "employee is archived; no further transitions allowed")
  else if transition = "archive" then .ok .archived
  else
    match fromStatus, transition with
    | .draft, "provision" => .ok .provisioning
    | .draft, "activate" => .ok .active
    | .provisioning, "activate" => .ok .active
    | .provisioning, "mark_provisioning_failed" => .ok .provisioningFailed
    | .provisioningFailed, "retry_provision" => .ok .provisioning
    | .active, "pause" => .ok .paused
    | .paused, "resume" => .ok .active
    | _, _ => .error (conflict ("transition '" ++ transition ++
        "' not allowed from status=" ++ fromStatus.value))

def getBySlug (slug : String) (db : Db) : Option Employee :=
  lookup Employee.slug slug db.employees

def getBySourceTemplate (templateId : String) (db : Db) : Option Employee :=
  db.employees.find? fun employee =>
    employee.sourceTemplateId = some templateId && employee.live

/-- `create`, with `uq_employee_slug` and `uq_employee_live_direct_template`. -/
def createEmployee (slug displayName : String)
    (source : Option (String × String)) (departmentIds skills : List String)
    (db : Db) : Result (Db × Employee) :=
  if (getBySlug slug db).isSome then
    .error ⟨"UniqueViolation", "uq_employee_slug"⟩
  else if source.any fun source =>
      (getBySourceTemplate source.1 db).isSome then
    .error (conflict "expert template already recruited in this tenant")
  else
    let employee : Employee :=
      ⟨db.next, slug, displayName, .draft, source.map Prod.fst,
        source.map Prod.snd, departmentIds, skills⟩
    .ok ({ db with
      employees := db.employees ++ [employee], next := db.next + 1 }, employee)

def setStatus (id : Nat) (status : EmployeeStatus) (db : Db) : Db :=
  { db with
    employees := updateWhere (fun row => row.id = id)
      (fun row => { row with status }) db.employees }

/-- `transition_status`. -/
def transitionStatus (id : Nat) (fromStatus toStatus : EmployeeStatus)
    (db : Db) : Result (Db × Option Employee) :=
  match lookup Employee.id id db.employees with
  | none => .ok (db, none)
  | some row =>
      if row.status ≠ fromStatus then
        .error (conflict ("employee status conflict: expected=" ++
          fromStatus.value ++ ", actual=" ++ row.status.value))
      else
        .ok (setStatus id toStatus db, some { row with status := toStatus })

/-- `delete`. -/
def deleteEmployee (id : Nat) (db : Db) : Db :=
  { db with employees := db.employees.filter fun row => row.id ≠ id }

/-! ### `member_grant` -/

def grantOf (resourceType : ResourceType) (resourceId : Nat) (grant : Grant) :
    Bool :=
  grant.resourceType = resourceType && grant.resourceId = resourceId

def upsertGrant (grant : Grant) (db : Db) : Db :=
  let same := grantOf grant.resourceType grant.resourceId
  { db with
    grants := if db.grants.any same then updateWhere same (fun _ => grant) db.grants
      else db.grants ++ [grant] }

/-- `ARRAY(SELECT DISTINCT value FROM unnest(...) ORDER BY value)`. -/
def merged (old new : List String) : List String :=
  (old ++ new).dedup.insertionSort (· ≤ ·)

def extendGrant (grant : Grant) (db : Db) : Db :=
  let same := grantOf grant.resourceType grant.resourceId
  { db with
    grants := if db.grants.any same then
        updateWhere same (fun row => { row with
          departmentIds := merged row.departmentIds grant.departmentIds
          memberIds := merged row.memberIds grant.memberIds }) db.grants
      else db.grants ++ [grant] }

/-! ### `recruit_event`, `solution_apply_record` -/

def appendRecruitEvent (event : RecruitEvent) (db : Db) : Db :=
  { db with events := db.events ++ [event] }

def createSolutionApplyRecord (record : ApplyRecord) (db : Db) : Db :=
  { db with applyRecords := db.applyRecords ++ [record] }

/-! ### `solution_instance` -/

def findSolutionInstance (solutionId version : String) (db : Db) :
    Option SolutionInstance :=
  db.instances.find? fun row =>
    row.solutionId = solutionId && row.solutionVersion = version

/-- `create_solution_instance`, with `uq_solution_instance`. -/
def createSolutionInstance (solutionId version displayName : String)
    (expertEmployeeIds : List Nat) (coordinatorEmployeeId : Option Nat)
    (db : Db) : Result (Db × SolutionInstance) :=
  if (findSolutionInstance solutionId version db).isSome then
    .error ⟨"UniqueViolation", "uq_solution_instance"⟩
  else
    let row : SolutionInstance :=
      ⟨db.next, solutionId, version, displayName, expertEmployeeIds,
        coordinatorEmployeeId⟩
    .ok ({ db with
      instances := db.instances ++ [row], next := db.next + 1 }, row)

/-! ### The tenant's skills -/

/-- `install_prepared` of a tenant skill id and its immutable package. -/
def installPrepared (prepared : String × String) (db : Db) : Result Db :=
  match valueAt prepared.1 db.skills with
  | none => .ok { db with skills := db.skills ++ [prepared] }
  | some package =>
      if package = prepared.2 then .ok db
      else
        .error (conflict
          "existing tenant skill does not match the immutable Operator package")

inductive SkillPlan where
  | named (skills : List String)
  | packages (prepared : List (String × String))
deriving DecidableEq

/-- `_install_skill_plan`. -/
def installSkillPlan (plan : SkillPlan) (db : Db) :
    Result (Db × List String) :=
  match plan with
  | .named skills => .ok (db, skills)
  | .packages prepared => do
      let db ← prepared.foldlM (fun db item => installPrepared item db) db
      return (db, prepared.map Prod.fst)

end AiTeam.Recruit
