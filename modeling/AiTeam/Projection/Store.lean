/-
What an Agent keeps of the Manager's master data: employees, frozen snapshots
and solutions, each row under its tenant and member with its payload as JSON,
and the sync that rewrites them.
-/
import AiTeam.Table

namespace AiTeam.Projection

/-- A JavaScript value of a payload.  Fractions, lists and objects are passed
on as they are; `unserializable` is what `JSON.stringify` throws on. -/
inductive Value where
  | undefined
  | null
  | bool (value : Bool)
  | integer (value : Int)
  | str (text : String)
  | other (json : String)
  | unserializable
deriving DecidableEq

/-- An object by its own properties. -/
abbrev Fields := List (String × Value)

def property (name : String) (fields : Fields) : Value :=
  (valueAt name fields).getD .undefined

/-- `{ ...base, ...over }`. -/
def spread (base added : Fields) : Fields :=
  added.foldl (fun fields field => assign field.1 field.2 fields) base

/-- `JSON.stringify`, as the object its text is read back as. -/
def stringify (fields : Fields) : Option Fields :=
  if fields.any (fun field => field.2 = .unserializable) then none
  else some (fields.filter fun field => field.2 ≠ .undefined)

/-- A `projection_json` column, as `JSON.parse` reads it. -/
inductive ProjectionJson where
  | malformed
  | object (fields : Fields)
deriving DecidableEq

/-- The primary key of each of the three tables. -/
structure ProjectionKey where
  id : String
  tenantId : String
  memberId : String
deriving DecidableEq

/-- `loaded_employee_projection`. -/
structure ExpertRow where
  key : ProjectionKey
  version : String
  projectionJson : ProjectionJson
  revoked : Bool
  syncedAt : String
deriving DecidableEq

/-- `loaded_solution_projection`. -/
structure SolutionRow where
  key : ProjectionKey
  version : String
  projectionJson : ProjectionJson
  syncedAt : String
deriving DecidableEq

/-- `frozen_snapshot`. -/
structure SnapshotRow where
  key : ProjectionKey
  snapshotVersion : String
  version : String
  projectionJson : ProjectionJson
  syncedAt : String
deriving DecidableEq

structure Store where
  experts : List ExpertRow
  solutions : List SolutionRow
  snapshots : List SnapshotRow
deriving DecidableEq

/-- `owner`. -/
structure Owner where
  tenantId : String
  memberId : String
deriving DecidableEq

/-! ### What is listed -/

/-- `(member_id = ? OR member_id = '')`. -/
def ofMember (memberId : String) (key : ProjectionKey) : Bool :=
  key.memberId = memberId || key.memberId = ""

/-- The rows `listLoadedExperts` selects of an owner. -/
def loadedExperts (store : Store) (owner : Owner) : List ExpertRow :=
  store.experts.filter fun row =>
    !row.revoked && row.key.tenantId = owner.tenantId &&
      ofMember owner.memberId row.key

/-- `(tenant_id = '' OR tenant_id = ?) AND (member_id = '' OR member_id = ?)`. -/
def listed (owner : Owner) (key : ProjectionKey) : Bool :=
  (key.tenantId = "" || key.tenantId = owner.tenantId) &&
    ofMember owner.memberId key

/-- The rows of `listSnapshots`. -/
def listSnapshots (store : Store) (owner : Owner) : List SnapshotRow :=
  store.snapshots.filter fun row => listed owner row.key

/-- The rows of `listSolutions`. -/
def listSolutions (store : Store) (owner : Owner) : List SolutionRow :=
  store.solutions.filter fun row => listed owner row.key

/-! ### Avatars in payloads -/

/-- `LOCAL_AVATAR_PATH_FIELD` and the other fields only the Agent writes. -/
def localAvatarPathField : String := "local_avatar_path"

def localAvatarMimeField : String := "local_avatar_mime_type"

def localAvatarVersionField : String := "local_avatar_version"

def localAvatarUrlField : String := "local_avatar_url"

def localAvatarFields : List String :=
  [localAvatarPathField, localAvatarMimeField, localAvatarVersionField,
    localAvatarUrlField]

def avatarSourceField : String := "avatar_source"

/-- `typeof value === "string"` and not empty. -/
def Value.filled : Value → Option String
  | .str text => if text = "" then none else some text
  | _ => none

def Value.isInteger : Value → Bool
  | .integer _ => true
  | _ => false

/-- `${Number.isInteger(value) ? value : 0}`. -/
def Value.numeral : Value → String
  | .integer value => toString value
  | _ => "0"

def avatarSyncVersion (value : Fields) : String :=
  match (property "avatar_sync_version" value).filled with
  | some version => version
  | none =>
      match (property "version" value).filled with
      | some version =>
          version ++ ":avatar-" ++ (property "avatar_version" value).numeral
      | none => ""

/-- A string or null stays, any other value is `null`. -/
def Value.textOrNull : Value → Value
  | .str text => .str text
  | _ => .null

def managerAvatarUrl (existing incoming : Fields) : Value :=
  match valueAt "avatar_url" incoming with
  | some url => url.textOrNull
  | none => (property "manager_avatar_url" existing).textOrNull

def managerAvatarVersion (existing incoming : Fields) : Value :=
  if (property "avatar_version" incoming).isInteger then
    property "avatar_version" incoming
  else if (property "manager_avatar_version" existing).isInteger then
    property "manager_avatar_version" existing
  else .integer 0

def managerSyncVersion (existing incoming : Fields) : String :=
  if avatarSyncVersion incoming = "" then avatarSyncVersion existing
  else avatarSyncVersion incoming

/-- The path and url of an avatar the member set on this machine. -/
def localOverride (existing : Fields) : Option (String × String) :=
  match (property localAvatarPathField existing).filled,
      (property localAvatarUrlField existing).filled with
  | some path, some url =>
      if property avatarSourceField existing = .str "local" then
        some (path, url)
      else none
  | _, _ => none

/-- Malformed legacy JSON is replaced by the verified pull. -/
def existingFields : Option ProjectionJson → Fields
  | some (.object fields) => fields
  | _ => []

/-- The Manager's payload without the fields that are not the Manager's. -/
def managerFields (existing incoming : Fields) : Fields :=
  localAvatarFields.foldl (fun fields name => discard name fields)
    (spread incoming
      [("manager_avatar_url", managerAvatarUrl existing incoming),
        ("manager_avatar_version", managerAvatarVersion existing incoming),
        ("avatar_sync_version", .str (managerSyncVersion existing incoming))])

def mergeAvatarProjection (existingJson : Option ProjectionJson)
    (incoming : Fields) : Fields :=
  let existing := existingFields existingJson
  match localOverride existing with
  | some (path, url) =>
      spread (managerFields existing incoming)
        [("avatar_url", .str url), (avatarSourceField, .str "local"),
          (localAvatarPathField, .str path), (localAvatarUrlField, .str url),
          (localAvatarMimeField, property localAvatarMimeField existing),
          (localAvatarVersionField, property localAvatarVersionField existing)]
  | none =>
      assign avatarSourceField
        (if (managerAvatarUrl existing incoming).filled.isSome
          then .str "manager" else .str "template")
        (managerFields existing incoming)

/-! ### The sync -/

/-- An employee of a pull; `rest` holds the properties the store only passes
on. -/
structure LoadedExpertProjection where
  employeeId : String
  tenantId : String
  memberId : Option String
  version : String
  syncedAt : Option String
  rest : Fields
deriving DecidableEq

structure LoadedSolutionProjection where
  solutionInstanceId : String
  tenantId : Option String
  memberId : Option String
  version : String
  rest : Fields
deriving DecidableEq

structure FrozenSnapshot where
  employeeId : String
  tenantId : Option String
  memberId : Option String
  version : String
  snapshotVersion : String
  rest : Fields
deriving DecidableEq

/-- A property that may be missing. -/
def optional (name : String) : Option String → Fields
  | some text => [(name, .str text)]
  | none => []

/-- `...(text ? { name: text } : {})`. -/
def truthy (name : String) (text : Option String) : Fields :=
  optional name (text.filter fun text => text ≠ "")

def LoadedExpertProjection.fields (expert : LoadedExpertProjection) : Fields :=
  spread expert.rest
    ([("employee_id", .str expert.employeeId),
      ("tenant_id", .str expert.tenantId), ("version", .str expert.version)] ++
      optional "member_id" expert.memberId ++
      optional "synced_at" expert.syncedAt)

def LoadedSolutionProjection.fields (solution : LoadedSolutionProjection) :
    Fields :=
  spread solution.rest
    ([("solution_instance_id", .str solution.solutionInstanceId),
      ("version", .str solution.version)] ++
      optional "tenant_id" solution.tenantId ++
      optional "member_id" solution.memberId)

def FrozenSnapshot.fields (snapshot : FrozenSnapshot) : Fields :=
  spread snapshot.rest
    ([("employee_id", .str snapshot.employeeId),
      ("version", .str snapshot.version),
      ("snapshot_version", .str snapshot.snapshotVersion)] ++
      optional "tenant_id" snapshot.tenantId ++
      optional "member_id" snapshot.memberId)

def LoadedExpertProjection.key (expert : LoadedExpertProjection) :
    ProjectionKey :=
  ⟨expert.employeeId, expert.tenantId, expert.memberId.getD ""⟩

def LoadedSolutionProjection.key (solution : LoadedSolutionProjection) :
    ProjectionKey :=
  ⟨solution.solutionInstanceId, solution.tenantId.getD "",
    solution.memberId.getD ""⟩

def FrozenSnapshot.key (snapshot : FrozenSnapshot) : ProjectionKey :=
  ⟨snapshot.employeeId, snapshot.tenantId.getD "", snapshot.memberId.getD ""⟩

/-- The arguments of a sync. -/
structure Pull where
  experts : List LoadedExpertProjection
  solutions : List LoadedSolutionProjection
  snapshots : List FrozenSnapshot
  revokedIds : List String
deriving DecidableEq

/-- Whether SQLite takes a row. -/
abbrev Accepts := ProjectionKey → Fields → Bool

/-- `JSON.stringify` and the binding of the row, either of which may throw. -/
def encoded (accepts : Accepts) (key : ProjectionKey) (fields : Fields) :
    Option ProjectionJson :=
  match stringify fields with
  | some json => if accepts key json then some (.object json) else none
  | none => none

/-- The projection of `existingExpert`. -/
def Store.expertJson (store : Store) (key : ProjectionKey) :
    Option ProjectionJson :=
  (lookup ExpertRow.key key store.experts).map ExpertRow.projectionJson

/-- The projection of `existingSnapshot`. -/
def Store.snapshotJson (store : Store) (key : ProjectionKey) :
    Option ProjectionJson :=
  (lookup SnapshotRow.key key store.snapshots).map SnapshotRow.projectionJson

def expertProjection (now : String) (store : Store)
    (expert : LoadedExpertProjection) : Fields :=
  mergeAvatarProjection (store.expertJson expert.key)
    (spread expert.fields
      ([("tenant_id", .str expert.tenantId)] ++
        truthy "member_id" expert.memberId ++
        [("synced_at", .str (expert.syncedAt.getD now)),
          ("revoked", .bool false)]))

def upsertExpert (accepts : Accepts) (now : String)
    (expert : LoadedExpertProjection) (store : Store) : Option Store :=
  (encoded accepts expert.key (expertProjection now store expert)).map
    fun json =>
      { store with
        experts := upsert ExpertRow.key
          ⟨expert.key, expert.version, json, false, now⟩ store.experts }

def upsertSolution (accepts : Accepts) (now : String)
    (solution : LoadedSolutionProjection) (store : Store) : Option Store :=
  (encoded accepts solution.key
    (spread solution.fields (truthy "tenant_id" solution.tenantId ++
      truthy "member_id" solution.memberId))).map fun json =>
    { store with
      solutions := upsert SolutionRow.key
        ⟨solution.key, solution.version, json, now⟩ store.solutions }

/-- An avatar set before the first snapshot is carried over from the
employee. -/
def snapshotProjection (store : Store) (snapshot : FrozenSnapshot) : Fields :=
  mergeAvatarProjection
    ((store.snapshotJson snapshot.key).or (store.expertJson snapshot.key))
    (spread snapshot.fields (truthy "tenant_id" snapshot.tenantId ++
      truthy "member_id" snapshot.memberId))

def upsertSnapshot (accepts : Accepts) (now : String)
    (snapshot : FrozenSnapshot) (store : Store) : Option Store :=
  (encoded accepts snapshot.key (snapshotProjection store snapshot)).map
    fun json =>
      { store with
        snapshots := upsert SnapshotRow.key
          ⟨snapshot.key, snapshot.snapshotVersion, snapshot.version, json,
            now⟩ store.snapshots }

/-- `removeLegacyExpert`, `removeLegacySnapshot`. -/
def removeLegacy (owner : Owner) (store : Store) (employeeId : String) :
    Store :=
  let legacy : ProjectionKey := ⟨employeeId, owner.tenantId, ""⟩
  { store with
    experts := store.experts.filter fun row => row.key ≠ legacy
    snapshots := store.snapshots.filter fun row => row.key ≠ legacy }

/-- The employees of the owner in the pull, and all the revoked ones. -/
def superseded (pull : Pull) (owner : Owner) : List String :=
  ((pull.experts.filter fun expert =>
      expert.tenantId = owner.tenantId &&
        expert.memberId = some owner.memberId).map
    LoadedExpertProjection.employeeId) ++ pull.revokedIds

/-- A sync without an authenticated owner cleans nothing up. -/
def clearLegacy (pull : Pull) (owner : Option Owner) (store : Store) : Store :=
  match owner with
  | some owner => (superseded pull owner).foldl (removeLegacy owner) store
  | none => store

/-- The rows `revoke`, `removeSnapshots` and `removeSolutions` are about. -/
def revokes (owner : Option Owner) (id : String) (key : ProjectionKey) : Bool :=
  match owner with
  | some owner =>
      key.id = id && key.tenantId = owner.tenantId &&
        ofMember owner.memberId key
  | none => key.id = id

def revoke (owner : Option Owner) (now : String) (store : Store)
    (id : String) : Store where
  experts := updateWhere (fun row => revokes owner id row.key)
    (fun row => { row with revoked := true, syncedAt := now }) store.experts
  solutions := store.solutions.filter fun row => !revokes owner id row.key
  snapshots := store.snapshots.filter fun row => !revokes owner id row.key

/-- A statement for each item, up to the first that throws. -/
def forEach {α : Type} (statement : α → Store → Option Store) :
    List α → Store → Store × Bool
  | [], store => (store, true)
  | item :: rest, store =>
      match statement item store with
      | some next => forEach statement rest next
      | none => (store, false)

structure SyncResult where
  upserted : Nat
  revoked : Nat
deriving DecidableEq

/-- What the transaction has written when it ends, and the result unless a
statement threw. -/
def replaceProjectionRows (accepts : Accepts) (store : Store) (pull : Pull)
    (owner : Option Owner) (now : String) : Store × Option SyncResult :=
  match forEach (upsertExpert accepts now) pull.experts
      (clearLegacy pull owner store) with
  | (written, false) => (written, none)
  | (written, true) =>
    match forEach (upsertSolution accepts now) pull.solutions written with
    | (written, false) => (written, none)
    | (written, true) =>
      match forEach (upsertSnapshot accepts now) pull.snapshots written with
      | (written, false) => (written, none)
      | (written, true) =>
          (pull.revokedIds.foldl (revoke owner now) written,
            some ⟨pull.experts.length + pull.solutions.length +
              pull.snapshots.length, pull.revokedIds.length⟩)

/-- `none` when it throws, after the `ROLLBACK`. -/
def replaceProjections (accepts : Accepts) (store : Store) (pull : Pull)
    (owner : Option Owner) (now : String) : Store × Option SyncResult :=
  match replaceProjectionRows accepts store pull owner now with
  | (written, some result) => (written, some result)
  | (_, none) => (store, none)

end AiTeam.Projection
