/-
Accounts and sessions of one tenant: the rows that its row-level security
shows, and the statements of `TenantAuthRepository`,
`ManagerAuthSessionRepository` and `ManagerIdempotencyRepository`.
-/
import AiTeam.Table

namespace AiTeam.AuthSession

abbrev Text := List Char

/-- Clock readings count microseconds. -/
def second : Nat := 1000000

/-- `AUTH_SESSION_TTL_SECONDS`. -/
def accessTtlSeconds : Nat := 2592000

/-- Password rules and hashing: `validate_password_complexity`,
`hash_password` with its salt, `verify_password` and `max_age_days`. -/
structure Policy where
  complex : Text → Bool
  hash : Text → Nat → Text
  verify : Text → Text → Bool
  maxAgeDays : Nat

/-- A row of `app_user`. -/
structure User where
  id : Nat
  displayName : Text
  roles : List Text
  active : Bool
deriving DecidableEq

/-- A row of `auth_identity` with provider `phone`.  `serial` counts the
secrets the row has had. -/
structure Identity where
  account : Text
  userId : Nat
  secret : Text
  mustReset : Bool
  passwordChangedAt : Nat
  serial : Nat
deriving DecidableEq

/-- One of the passwords an account has had. -/
structure Credential where
  account : Text
  serial : Nat
deriving DecidableEq

/-- A row of `manager_auth_session`.  `origin` is the credential that the login
verified which created the session. -/
structure SessionRow where
  jti : Nat
  userId : Nat
  issuedAt : Nat
  expiresAt : Nat
  revokedAt : Option Nat
  revokeReason : Option Text
  origin : Option Credential
deriving DecidableEq

/-- A completed row of `manager_idempotency_receipt`. -/
structure Receipt where
  key : Text
  fingerprint : Text
  userId : Nat
deriving DecidableEq

structure Db where
  now : Nat
  users : List User
  identities : List Identity
  receipts : List Receipt
  sessions : List SessionRow
  /-- The credentials that resets and replacements have put in force, once
  they have dealt with the sessions. -/
  closed : List Credential
deriving DecidableEq

def empty (now : Nat) : Db := ⟨now, [], [], [], [], []⟩

/-- `IdentityRow`. -/
structure IdentityRow where
  userId : Nat
  secret : Text
  mustReset : Bool
  roles : List Text
  passwordChangedAt : Nat
  active : Bool
  serial : Nat
deriving DecidableEq

/-! ### Accounts -/

def joinUser (users : List User) (identity : Identity) : Option IdentityRow :=
  (lookup User.id identity.userId users).map fun user =>
    { userId := identity.userId
      secret := identity.secret
      mustReset := identity.mustReset
      roles := user.roles
      passwordChangedAt := identity.passwordChangedAt
      active := user.active
      serial := identity.serial }

/-- `find_identity` of a phone account. -/
def findIdentity (db : Db) (account : Text) : Option IdentityRow :=
  (lookup Identity.account account db.identities).bind (joinUser db.users)

/-- `find_user`. -/
def findUser (db : Db) (userId : Nat) : Option IdentityRow :=
  (db.identities.find? fun identity => identity.userId == userId).bind
    (joinUser db.users)

/-- `update_secret`. -/
def updateSecret (db : Db) (account secret : Text) (mustReset : Bool) : Db :=
  { db with
    identities := updateWhere (fun identity => identity.account == account)
      (fun identity => { identity with
        secret, mustReset
        passwordChangedAt := db.now
        serial := identity.serial + 1 }) db.identities }

/-- The number of the secret in force. -/
def serialOf (db : Db) (account : Text) : Nat :=
  ((lookup Identity.account account db.identities).map Identity.serial).getD 0

/-- `create_user_with_identity`; `none` when the account is taken. -/
def createUserWithIdentity (db : Db) (account secret displayName : Text)
    (roles : List Text) (mustReset : Bool) : Option (Db × Nat) :=
  if db.identities.any (·.account == account) then none
  else
    let userId := db.users.length
    some ({ db with
      users := db.users ++ [⟨userId, displayName, roles, true⟩]
      identities := db.identities ++
        [⟨account, userId, secret, mustReset, db.now, 0⟩] }, userId)

/-! ### Sessions -/

/-- `create`: the new `jti` is one that no session has. -/
def createSession (db : Db) (userId issuedAt expiresAt : Nat)
    (origin : Option Credential) : Db × Nat :=
  ({ db with
    sessions := db.sessions ++
      [⟨db.sessions.length, userId, issuedAt, expiresAt, none, none,
        origin⟩] }, db.sessions.length)

def SessionRow.live (now : Nat) (row : SessionRow) : Bool :=
  row.revokedAt.isNone && decide (now < row.expiresAt)

/-- `is_active`. -/
def isActive (db : Db) (jti userId : Nat) : Bool :=
  (lookup SessionRow.jti jti db.sessions).any fun row =>
    row.userId == userId && row.live db.now

/-- `COALESCE(revoked_at, now()), COALESCE(revoke_reason, reason)`. -/
def SessionRow.revoke (now : Nat) (reason : Text) (row : SessionRow) :
    SessionRow :=
  { row with
    revokedAt := row.revokedAt.or (some now)
    revokeReason := row.revokeReason.or (some reason) }

/-- The `UPDATE` of both revocations. -/
def revokeWhere (db : Db) (guard : SessionRow → Bool) (reason : Text) : Db :=
  { db with
    sessions :=
      updateWhere guard (SessionRow.revoke db.now reason) db.sessions }

/-- `revoke`. -/
def revoke (db : Db) (jti userId : Nat) (reason : Text) : Db :=
  revokeWhere db (fun row => row.jti == jti && row.userId == userId) reason

/-- `revoke_user`. -/
def revokeUser (db : Db) (userId : Nat) (reason : Text) : Db :=
  revokeWhere db (fun row => row.userId == userId && row.revokedAt.isNone)
    reason

/-! ### Owner bootstrap in one transaction -/

def ownerRoles : List Text := ["owner".toList]

/-- `sync_owner_bootstrap_in_session`; an error rolls the transaction back. -/
def syncOwnerBootstrapInSession (db : Db) (account secret : Text)
    (mustReset : Bool) : Option (Db × Nat × Bool) :=
  match findIdentity db account with
  | none =>
      (createUserWithIdentity db account secret "owner".toList ownerRoles
        mustReset).map fun (next, userId) => (next, userId, false)
  | some row =>
      if row.active then
        some (updateSecret db account secret mustReset, row.userId, true)
      else none

/-- `execute` with the effect of `sync_owner_bootstrap_idempotent`: the user id
of the receipt, and whether this call replaced the credential. -/
def executeBootstrap (db : Db) (account secret : Text) (mustReset : Bool)
    (key fingerprint : Text) : Option (Db × Nat × Bool) :=
  match lookup Receipt.key key db.receipts with
  | some receipt =>
      if receipt.fingerprint == fingerprint then some (db, receipt.userId, false)
      else none
  | none =>
      (syncOwnerBootstrapInSession db account secret mustReset).map
        fun (next, userId, replaced) =>
          ({ next with
            receipts := next.receipts ++ [⟨key, fingerprint, userId⟩] },
            userId, replaced)

end AiTeam.AuthSession
