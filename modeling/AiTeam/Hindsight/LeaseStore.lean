/-
Hindsight facade leases: `HindsightLeaseRepository`, which keeps rows in
PostgreSQL and raw tokens in the process, and `HindsightLeaseStore`, its
process-local double with four maps of shared objects.  Clock readings, tokens
and lease ids are inputs.
-/
import AiTeam.Machine
import AiTeam.Table

namespace AiTeam.Hindsight

structure Scope where
  tenantId : String
  memberId : String
  employeeId : String
deriving DecidableEq

/-- `HindsightLease`. -/
structure Lease where
  leaseId : String
  token : String
  scope : Scope
  snapshotVersion : String
  policyFingerprint : String
  bankId : String
  version : Nat
  issuedAt : Int
  expiresAt : Int
  revokedAt : Option Int
  allowedOperations : List String
  policyRevision : Int
  clientProtocol : Option String
deriving DecidableEq

def Lease.active (lease : Lease) (now : Int) : Bool :=
  lease.revokedAt.isNone && now < lease.expiresAt

/-- What the stores are built with: their lifetime, and the functions of
policies and tokens both of them use. -/
structure Settings (P : Type) where
  ttlSeconds : Int
  ttl_pos : 1 ≤ ttlSeconds
  policyFingerprint : String → P → String
  allowedOperations : P → List String
  /-- `int(policy.get("revision", 0))`, which raises on what is no number. -/
  policyRevision : P → Option Int
  tokenSha256 : String → String
  /-- The `uuid` value of a text as PostgreSQL writes it back. -/
  uuid : String → Option String

structure IssueRequest (P : Type) where
  scope : Scope
  snapshotVersion : String
  policy : P
  bankId : String
  forceRotate : Bool
  clientProtocol : Option String
deriving DecidableEq

/-- The calls, with the clock they read and what the factories would give. -/
inductive Operation (P : Type) where
  | issue (request : IssueRequest P) (now : Int) (token leaseId : String)
  | get (leaseId : String)
  | revoke (leaseId : String) (scope : Option Scope) (now : Int)
  | revokeScope (scope : Scope) (now : Int)
  | resolve (token bankId : String) (now : Int)
deriving DecidableEq

inductive Response where
  | lease (lease : Option Lease)
  /-- `HindsightLeaseUnauthorized`. -/
  | unauthorized
  /-- `HindsightLeaseForbidden`: the lease is for another bank. -/
  | forbidden
  /-- The database refused a row or an argument. -/
  | violation
  /-- The revision of the policy is not read. -/
  | raised
deriving DecidableEq

variable {P : Type}

/-- The lease an issue creates when it does not reuse one. -/
def newLease (settings : Settings P) (request : IssueRequest P)
    (revision : Int) (version : Nat) (now : Int) (token leaseId : String) :
    Lease where
  leaseId
  token
  scope := request.scope
  snapshotVersion := request.snapshotVersion
  policyFingerprint :=
    settings.policyFingerprint request.snapshotVersion request.policy
  bankId := request.bankId
  version
  issuedAt := now
  expiresAt := now + settings.ttlSeconds
  revokedAt := none
  allowedOperations := settings.allowedOperations request.policy
  policyRevision := revision
  clientProtocol := request.clientProtocol

/-- The conditions under which both stores hand out a lease again. -/
def reusable (settings : Settings P) (request : IssueRequest P) (now : Int)
    (lease : Lease) : Bool :=
  lease.active now && !request.forceRotate &&
    lease.policyFingerprint ==
      settings.policyFingerprint request.snapshotVersion request.policy &&
    lease.bankId == request.bankId &&
    lease.clientProtocol == request.clientProtocol

/-- How a found lease answers for a bank. -/
def answer (found : Option Lease) (bankId : String) (now : Int) : Response :=
  match found with
  | none => .unauthorized
  | some lease =>
      if !lease.active now then .unauthorized
      else if lease.bankId != bankId then .forbidden
      else .lease (some lease)

/-! ### The PostgreSQL store -/

/-- A text PostgreSQL keeps. -/
def textual (text : String) : Bool := !text.toList.contains '\x00'

/-- The columns hold the lease: `version integer`, `policy_revision bigint`,
the others texts. -/
def Lease.storable (lease : Lease) : Bool :=
  textual lease.leaseId && textual lease.snapshotVersion &&
    textual lease.bankId && lease.clientProtocol.all textual &&
    lease.version ≤ 2147483647 &&
    decide (-9223372036854775808 ≤ lease.policyRevision ∧
      lease.policyRevision ≤ 9223372036854775807)

/-- The scope as the `uuid` columns keep it. -/
def Scope.stored (settings : Settings P) (scope : Scope) : Option Scope := do
  return ⟨← settings.uuid scope.tenantId, ← settings.uuid scope.memberId,
    ← settings.uuid scope.employeeId⟩

/-- A call with its arguments as the statements compare them with the columns;
`none` where a statement fails on one. -/
def Operation.stored (settings : Settings P) :
    Operation P → Option (Operation P)
  | .issue request now token leaseId => do
      let scope ← request.scope.stored settings
      return .issue { request with scope } now token leaseId
  | .get leaseId => if textual leaseId then some (.get leaseId) else none
  | .revoke leaseId none now =>
      if textual leaseId then some (.revoke leaseId none now) else none
  | .revoke leaseId (some scope) now => do
      let scope ← scope.stored settings
      if textual leaseId then some (.revoke leaseId (some scope) now) else none
  | .revokeScope scope now => do
      return .revokeScope (← scope.stored settings) now
  | .resolve token bankId now => some (.resolve token bankId now)

/-- A row of `hindsight_lease`: the lease with the digest of its token. -/
structure Row where
  tokenSha256 : String
  /-- The columns; the token is not one of them. -/
  stored : Lease
deriving DecidableEq

structure PgStore where
  rows : List Row
  rawTokens : List (String × String)
deriving DecidableEq

namespace PgStore

/-- `_row_to_lease` with the raw token this process knows. -/
def leaseOf (store : PgStore) (row : Row) : Lease :=
  { row.stored with
    token := (valueAt row.stored.leaseId store.rawTokens).getD "" }

/-- `ORDER BY version DESC LIMIT 1` for one scope. -/
def newest (rows : List Row) (scope : Scope) : Option Row :=
  rows.find? fun row => row.stored.scope == scope &&
    rows.all fun other => other.stored.scope != scope ||
      other.stored.version ≤ row.stored.version

/-- `UPDATE hindsight_lease SET revoked_at = COALESCE(revoked_at, now)`. -/
def revokeWhere (guard : Row → Bool) (now : Int) (rows : List Row) :
    List Row :=
  updateWhere guard (fun row => { row with
    stored := { row.stored with
      revokedAt := row.stored.revokedAt.or (some now) } }) rows

/-- The constraints of the table on a new row. -/
def refuses (rows : List Row) (row : Row) : Bool :=
  !row.stored.storable || row.stored.bankId == "" || rows.any fun other =>
    other.stored.leaseId == row.stored.leaseId ||
      other.tokenSha256 == row.tokenSha256 ||
      (other.stored.scope == row.stored.scope &&
        other.stored.revokedAt.isNone)

/-- The new row in the place of the old one; the session is rolled back when
it fails. -/
def rotate (settings : Settings P) (store : PgStore)
    (request : IssueRequest P) (now : Int) (token leaseId : String)
    (rows : List Row) (version : Nat) : PgStore × Response :=
  match settings.policyRevision request.policy with
  | none => (store, .raised)
  | some revision =>
      let lease := newLease settings request revision version now token leaseId
      let row : Row := ⟨settings.tokenSha256 token, { lease with token := "" }⟩
      if refuses rows row then (store, .violation)
      else
        (⟨rows ++ [row], assign leaseId token store.rawTokens⟩,
          .lease (some lease))

def issue (settings : Settings P) (store : PgStore)
    (request : IssueRequest P) (now : Int) (token leaseId : String) :
    PgStore × Response :=
  match newest store.rows request.scope with
  | none => rotate settings store request now token leaseId store.rows 1
  | some row =>
      let existing := store.leaseOf row
      if reusable settings request now existing && existing.token != "" then
        (store, .lease (some existing))
      else
        let rows := revokeWhere
          (fun other => other.stored.leaseId == existing.leaseId &&
            other.stored.revokedAt.isNone) now store.rows
        rotate settings store request now token leaseId rows
          (existing.version + 1)

def get (store : PgStore) (leaseId : String) : Option Lease :=
  (store.rows.find? (·.stored.leaseId == leaseId)).map store.leaseOf

def revoke (store : PgStore) (leaseId : String) (scope : Option Scope)
    (now : Int) : PgStore × Response :=
  match scope.or ((store.get leaseId).map Lease.scope) with
  | none => (store, .lease none)
  | some scope =>
      let guard := fun row : Row =>
        row.stored.leaseId == leaseId && row.stored.scope == scope
      let rows := revokeWhere guard now store.rows
      ({ store with rows }, .lease ((rows.find? guard).map store.leaseOf))

def revokeScope (store : PgStore) (scope : Scope) (now : Int) :
    PgStore × Response :=
  let guard := fun row : Row =>
    row.stored.scope == scope && row.stored.revokedAt.isNone
  let revoked := (store.rows.find? guard).map fun row =>
    { store.leaseOf row with revokedAt := some now }
  ({ store with rows := revokeWhere guard now store.rows }, .lease revoked)

def resolve (settings : Settings P) (store : PgStore) (token bankId : String)
    (now : Int) : Response :=
  answer ((store.rows.find?
    (·.tokenSha256 == settings.tokenSha256 token)).map store.leaseOf)
    bankId now

def perform (settings : Settings P) (store : PgStore) :
    Operation P → PgStore × Response
  | .issue request now token leaseId =>
      store.issue settings request now token leaseId
  | .get leaseId => (store, .lease (store.get leaseId))
  | .revoke leaseId scope now => store.revoke leaseId scope now
  | .revokeScope scope now => store.revokeScope scope now
  | .resolve token bankId now =>
      (store, store.resolve settings token bankId now)

def step (settings : Settings P) (store : PgStore)
    (operation : Operation P) : PgStore × Response :=
  match operation.stored settings with
  | none => (store, .violation)
  | some stored => store.perform settings stored

end PgStore

/-! ### The store in memory -/

/-- The maps hold references to lease objects: positions in `objects`. -/
structure MemoryStore where
  objects : List Lease
  byTokenHash : List (String × Nat)
  byId : List (String × Nat)
  activeByScope : List (Scope × Nat)
  versions : List (Scope × Nat)
deriving DecidableEq

namespace MemoryStore

def deref (store : MemoryStore) (reference : Option Nat) : Option Lease :=
  reference.bind (store.objects[·]?)

/-- `if lease.revoked_at is None: lease.revoked_at = now`. -/
def markRevoked (objects : List Lease) (reference : Nat) (now : Int) :
    List Lease :=
  objects.modify reference fun lease =>
    { lease with revokedAt := lease.revokedAt.or (some now) }

def issue (settings : Settings P) (store : MemoryStore)
    (request : IssueRequest P) (now : Int) (token leaseId : String) :
    MemoryStore × Response :=
  let reference := valueAt request.scope store.activeByScope
  match (store.deref reference).filter (reusable settings request now) with
  | some current => (store, .lease (some current))
  | none =>
      let objects := match reference with
        | some current => markRevoked store.objects current now
        | none => store.objects
      let version := (valueAt request.scope store.versions).getD 0 + 1
      let versions := assign request.scope version store.versions
      match settings.policyRevision request.policy with
      | none => ({ store with objects, versions }, .raised)
      | some revision =>
          let lease :=
            newLease settings request revision version now token leaseId
          let created := objects.length
          ({ objects := objects ++ [lease]
             byTokenHash := assign (settings.tokenSha256 token) created
               store.byTokenHash
             byId := assign leaseId created store.byId
             activeByScope := assign request.scope created store.activeByScope
             versions },
            .lease (some lease))

def get (store : MemoryStore) (leaseId : String) : Option Lease :=
  store.deref (valueAt leaseId store.byId)

def revoke (store : MemoryStore) (leaseId : String) (scope : Option Scope)
    (now : Int) : MemoryStore × Response :=
  match valueAt leaseId store.byId with
  | none => (store, .lease none)
  | some reference =>
      match store.objects[reference]? with
      | none => (store, .lease none)
      | some lease =>
          if scope.any (· != lease.scope) then (store, .lease none)
          else
            let objects := markRevoked store.objects reference now
            let activeByScope :=
              if valueAt lease.scope store.activeByScope = some reference
                then discard lease.scope store.activeByScope
                else store.activeByScope
            ({ store with objects, activeByScope },
              .lease objects[reference]?)

def revokeScope (store : MemoryStore) (scope : Scope) (now : Int) :
    MemoryStore × Response :=
  match valueAt scope store.activeByScope with
  | none => (store, .lease none)
  | some reference =>
      let objects := markRevoked store.objects reference now
      ({ store with
          objects, activeByScope := discard scope store.activeByScope },
        .lease objects[reference]?)

def resolve (settings : Settings P) (store : MemoryStore)
    (token bankId : String) (now : Int) : Response :=
  let digest := settings.tokenSha256 token
  answer ((store.deref (valueAt digest store.byTokenHash)).filter fun lease =>
    digest == settings.tokenSha256 lease.token) bankId now

def step (settings : Settings P) (store : MemoryStore) :
    Operation P → MemoryStore × Response
  | .issue request now token leaseId =>
      store.issue settings request now token leaseId
  | .get leaseId => (store, .lease (store.get leaseId))
  | .revoke leaseId scope now => store.revoke leaseId scope now
  | .revokeScope scope now => store.revokeScope scope now
  | .resolve token bankId now =>
      (store, store.resolve settings token bankId now)

end MemoryStore

def pgMachine (settings : Settings P) :
    Machine PgStore (Operation P) Response where
  step store operation :=
    ((store.step settings operation).1, [(store.step settings operation).2])

def memoryMachine (settings : Settings P) :
    Machine MemoryStore (Operation P) Response where
  step store operation :=
    ((store.step settings operation).1, [(store.step settings operation).2])

def PgStore.empty : PgStore := ⟨[], []⟩

def MemoryStore.empty : MemoryStore := ⟨[], [], [], [], []⟩

end AiTeam.Hindsight
