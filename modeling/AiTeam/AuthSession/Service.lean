/-
The calls of `AuthService` that sign in, reset and replace passwords, each a
sequence of transactions that interleave over the tenant's rows.
-/
import AiTeam.AuthSession.Store
import AiTeam.Interleaving

namespace AiTeam.AuthSession

inductive Request where
  | login (account password : Text)
  | ownerReset (account oldPassword newPassword : Text)
  /-- `sync_owner_bootstrap_result`. -/
  | syncOwnerBootstrapResult (account bootstrapPassword : Text)
  | syncOwnerBootstrapIdempotent (account bootstrapPassword : Text)
      (mustReset : Bool) (key fingerprint : Text)
  /-- `create_member`, and the owner's first account. -/
  | create (account password displayName : Text) (roles : List Text)
      (mustReset : Bool)
  /-- The exits of the passkey and OAuth logins. -/
  | issue (userId : Nat)
deriving DecidableEq

/-- What a session is issued for: the credential that a login verified, or the
one that a reset has put in force. -/
structure Grant where
  userId : Nat
  verified : Option Credential
  reset : Option Credential
deriving DecidableEq

/-- The transaction a call runs next. -/
inductive Stage where
  | start (request : Request)
  /-- The second look of `provision_owner` at the account. -/
  | provision (account password : Text)
  | create (account password displayName : Text) (roles : List Text)
      (mustReset : Bool)
  /-- `update_secret` of `owner_reset`. -/
  | resetSecret (account password : Text) (identity : IdentityRow)
  /-- `update_secret` of `sync_owner_bootstrap_result`. -/
  | replaceSecret (account password : Text)
  | revokeUser (userId : Nat) (credential : Credential)
  | findUser (grant : Grant)
  | createSession (grant : Grant) (roles : List Text) (issuedAt : Nat)
  | returned
  | failed
deriving DecidableEq

inductive Event where
  /-- A call returned a token with these claims. -/
  | issued (userId jti exp : Nat) (roles : List Text)
  /-- `owner_reset` or a replacement returned: the credential is in force. -/
  | replaced (credential : Credential)
  | checked (jti userId : Nat) (active : Bool)
deriving DecidableEq

inductive Outside where
  | isActive (jti userId : Nat)
  | revoke (jti userId : Nat) (reason : Text)
  | setActive (userId : Nat) (active : Bool)
  | tick (microseconds : Nat)
deriving DecidableEq

/-- `not identity.secret or not verify_password(...)`, negated. -/
def verifies (policy : Policy) (password : Text) (row : IdentityRow) : Bool :=
  !row.secret.isEmpty && policy.verify password row.secret

/-- `assert_password_not_expired`. -/
def passwordExpired (policy : Policy) (now : Nat) (row : IdentityRow) : Bool :=
  decide (policy.maxAgeDays * 86400 * second < now - row.passwordChangedAt)

/-- What `login` does with the identity it found. -/
def login (policy : Policy) (db : Db) (account password : Text) : Stage :=
  match findIdentity db account with
  | none => .failed
  | some row =>
      if !verifies policy password row then .failed
      else if !row.active then .failed
      else if row.mustReset then .failed
      else if passwordExpired policy db.now row then .failed
      else .findUser ⟨row.userId, some ⟨account, row.serial⟩, none⟩

/-- What `owner_reset` does with the identity it found. -/
def ownerReset (policy : Policy) (db : Db)
    (account oldPassword newPassword : Text) : Stage :=
  if !policy.complex newPassword then .failed
  else
    match findIdentity db account with
    | none => .failed
    | some row =>
        if !verifies policy oldPassword row then .failed
        else if !row.active then .failed
        else .resetSecret account newPassword row

/-- What `sync_owner_bootstrap_result` does with the identity it found. -/
def syncOwnerBootstrapResult (policy : Policy) (db : Db)
    (account bootstrapPassword : Text) : Stage :=
  if !policy.complex bootstrapPassword then .failed
  else
    match findIdentity db account with
    | none => .provision account bootstrapPassword
    | some row =>
        if row.active then .replaceSecret account bootstrapPassword
        else .failed

/-- `_create` up to its insert. -/
def checkCreate (policy : Policy) (db : Db) (account password displayName : Text)
    (roles : List Text) (mustReset : Bool) : Stage :=
  if !policy.complex password then .failed
  else if (findIdentity db account).isSome then .failed
  else .create account password displayName roles mustReset

/-- `jti`, `exp` and the roles of the token that ends a call. -/
def issueSession (db : Db) (grant : Grant) (roles : List Text)
    (issuedAt : Nat) : Db × Stage × List Event :=
  let expiresAt := issuedAt + accessTtlSeconds * second
  let (next, jti) :=
    createSession db grant.userId issuedAt expiresAt grant.verified
  (next, .returned,
    .issued grant.userId jti (expiresAt / second) roles ::
      (grant.reset.map Event.replaced).toList)

def passwordReset : Text := "password_reset".toList

/-- `salt` is the salt that the call hashes its password with.  A reset goes on
to the sessions after `update_secret`, a bootstrap replacement is over. -/
def statement (policy : Policy) (db : Db) (salt : Nat) :
    Stage → Db × Stage × List Event
  | .start (.login account password) =>
      (db, login policy db account password, [])
  | .start (.ownerReset account oldPassword newPassword) =>
      (db, ownerReset policy db account oldPassword newPassword, [])
  | .start (.syncOwnerBootstrapResult account bootstrapPassword) =>
      (db, syncOwnerBootstrapResult policy db account bootstrapPassword, [])
  | .start (.syncOwnerBootstrapIdempotent account bootstrapPassword mustReset
      key fingerprint) =>
      if !policy.complex bootstrapPassword then (db, .failed, [])
      else
        match executeBootstrap db account (policy.hash bootstrapPassword salt)
          mustReset key fingerprint with
        | none => (db, .failed, [])
        | some (next, _, false) => (next, .returned, [])
        | some (next, _, true) =>
            let credential := ⟨account, serialOf next account⟩
            ({ next with closed := credential :: next.closed }, .returned,
              [.replaced credential])
  | .start (.create account password displayName roles mustReset) =>
      (db, checkCreate policy db account password displayName roles mustReset,
        [])
  | .start (.issue userId) => (db, .findUser ⟨userId, none, none⟩, [])
  | .provision account password =>
      (db, checkCreate policy db account password "owner".toList ownerRoles
        true, [])
  | .create account password displayName roles mustReset =>
      match createUserWithIdentity db account (policy.hash password salt)
        displayName roles mustReset with
      | none => (db, .failed, [])
      | some (next, _) => (next, .returned, [])
  | .resetSecret account password identity =>
      let next := updateSecret db account (policy.hash password salt) false
      (next, .revokeUser identity.userId ⟨account, serialOf next account⟩, [])
  | .replaceSecret account password =>
      let next := updateSecret db account (policy.hash password salt) true
      let credential := ⟨account, serialOf next account⟩
      ({ next with closed := credential :: next.closed }, .returned,
        [.replaced credential])
  | .revokeUser userId credential =>
      let next := revokeUser db userId passwordReset
      ({ next with closed := credential :: next.closed },
        .findUser ⟨userId, none, some credential⟩, [])
  | .findUser grant =>
      match findUser db grant.userId with
      | none => (db, .failed, [])
      | some row =>
          if row.active then
            (db, .createSession grant row.roles db.now, [])
          else (db, .failed, [])
  | .createSession grant roles issuedAt =>
      issueSession db grant roles issuedAt
  | .returned => (db, .returned, [])
  | .failed => (db, .failed, [])

def outside (db : Db) : Outside → Db × List Event
  | .isActive jti userId =>
      (db, [.checked jti userId (isActive db jti userId)])
  | .revoke jti userId reason => (revoke db jti userId reason, [])
  | .setActive userId active =>
      ({ db with
        users := updateWhere (fun user => user.id == userId)
          (fun user => { user with active }) db.users }, [])
  | .tick microseconds => ({ db with now := db.now + microseconds }, [])

def service (policy : Policy) :
    Service Db Stage Request Nat Outside Event where
  start _ request := .start request
  statement := statement policy
  outside := outside

end AiTeam.AuthSession
