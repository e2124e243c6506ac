/-
`MemberDeptRepository`: the department table of one tenant and the
transactions that write its hierarchy.  The advisory lock of the tenant makes
them one after the other.
-/
import AiTeam.Department.Tree
import AiTeam.Machine

namespace AiTeam.Department

structure DepartmentRow where
  id : String
  departmentSlug : String
  displayName : String
  parentId : Option String
deriving DecidableEq

/-- A row of `app_user`, `employee` or `member_grant`. -/
structure Assigned where
  id : String
  departmentIds : List String
deriving DecidableEq

structure SpaceBinding where
  knowledgeSpaceId : String
  resourceType : String
  resourceId : String
deriving DecidableEq

structure Tenant where
  departments : List DepartmentRow
  users : List Assigned
  employees : List Assigned
  grants : List Assigned
  spaceBindings : List SpaceBinding
deriving DecidableEq

/-- `_parents`. -/
def parents (tenant : Tenant) : Parents :=
  tenant.departments.map fun row => (row.id, row.parentId)

/-- How a call ends: `absent` is its `None` or `False`, a problem or a unique
violation is raised and rolls the transaction back. -/
inductive Outcome where
  | done
  | absent
  | problem (problem : Problem)
  | uniqueViolation
deriving DecidableEq

/-- `INSERT INTO department`; the id is generated and the slug is unique. -/
def insertDepartment (tenant : Tenant) (row : DepartmentRow) :
    Tenant × Outcome :=
  if tenant.departments.any fun other => other.id == row.id ||
      other.departmentSlug == row.departmentSlug then
    (tenant, .uniqueViolation)
  else ({ tenant with departments := tenant.departments ++ [row] }, .done)

def createDepartment (tenant : Tenant) (row : DepartmentRow) :
    Tenant × Outcome :=
  if row.parentId.isNone then insertDepartment tenant row
  else
    match checkParent (parents tenant) row.parentId none with
    | .error problem => (tenant, .problem problem)
    | .ok _ => insertDepartment tenant row

/-- `UPDATE department SET parent_id = ... WHERE id = ...`. -/
def updateParent (departments : List DepartmentRow) (id : String)
    (parentId : Option String) : List DepartmentRow :=
  updateWhere (·.id == id) (fun row => { row with parentId }) departments

def moveDepartment (tenant : Tenant) (departmentId : String)
    (parentId displayName : Option String) : Tenant × Outcome :=
  if !has (parents tenant) departmentId then (tenant, .absent)
  else
    match checkParent (parents tenant) parentId (some departmentId) with
    | .error problem => (tenant, .problem problem)
    | .ok _ =>
        ({ tenant with
            departments := updateWhere (·.id == departmentId)
              (fun row => { row with
                parentId, displayName := displayName.getD row.displayName })
              tenant.departments }, .done)

def promoteDepartment (tenant : Tenant) (departmentId childId : String) :
    Tenant × Outcome :=
  if !has (parents tenant) departmentId || !has (parents tenant) childId then
    (tenant, .absent)
  else
    match checkPromote (parents tenant) departmentId childId with
    | .error problem => (tenant, .problem problem)
    | .ok updated =>
        ({ tenant with
            departments := updateParent
              (updateParent tenant.departments childId
                (parentOf updated childId)) departmentId (some childId) },
          .done)

/-- `array_remove(department_ids, id)`. -/
def unassign (departmentId : String) (row : Assigned) : Assigned :=
  { row with departmentIds := row.departmentIds.filter (· != departmentId) }

def deleteDepartment (tenant : Tenant) (departmentId : String) :
    Tenant × Outcome :=
  let above := (tenant.departments.find? (·.id == departmentId)).bind
    DepartmentRow.parentId
  let departments := updateWhere (·.parentId == some departmentId)
    (fun row => { row with parentId := above }) tenant.departments
  ({ departments := departments.filter (·.id != departmentId)
     users := tenant.users.map (unassign departmentId)
     employees := tenant.employees.map (unassign departmentId)
     grants := tenant.grants.map (unassign departmentId)
     spaceBindings := tenant.spaceBindings.filter fun row =>
       !(row.resourceType == "department" && row.resourceId == departmentId) },
    if departments.any (·.id == departmentId) then .done else .absent)

inductive Operation where
  | create (row : DepartmentRow)
  | move (departmentId : String) (parentId displayName : Option String)
  | promote (departmentId childId : String)
  | delete (departmentId : String)
deriving DecidableEq

def apply (tenant : Tenant) : Operation → Tenant × Outcome
  | .create row => createDepartment tenant row
  | .move departmentId parentId displayName =>
      moveDepartment tenant departmentId parentId displayName
  | .promote departmentId childId =>
      promoteDepartment tenant departmentId childId
  | .delete departmentId => deleteDepartment tenant departmentId

def hierarchy : Machine Tenant Operation Outcome where
  step tenant operation :=
    ((apply tenant operation).1, [(apply tenant operation).2])

def empty : Tenant := ⟨[], [], [], [], []⟩

end AiTeam.Department
