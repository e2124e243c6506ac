/-
Login methods of the users of one tenant: the rows that its row-level security
shows, and the transactions of `OAuthConnectionStore`, `PasskeyStore` and
`TenantAuthRepository` on them.
-/
import AiTeam.Table

namespace AiTeam.LoginMethod

abbrev Text := List Char

/-- The OAuth providers there are adapters for. -/
inductive Provider where
  | google
  | github
deriving DecidableEq

def Provider.name : Provider → Text
  | .google => "google".toList
  | .github => "github".toList

/-- `OAuthProfile`. -/
structure OAuthProfile where
  provider : Provider
  providerUserId : Text
  email : Option Text
deriving DecidableEq

def OAuthProfile.externalId (profile : OAuthProfile) : Text :=
  profile.provider.name ++ ':' :: profile.providerUserId

/-- `split_part(external_id, ':', 1)`, and `external_id.split(":", 1)[0]`. -/
def providerOf (externalId : Text) : Text :=
  externalId.takeWhile (· != ':')

/-- `_suffix`. -/
def suffix (externalId : Text) : Text :=
  if ':' ∈ externalId then (externalId.dropWhile (· != ':')).drop 1
  else externalId

theorem Provider.name_colonless (provider : Provider) :
    ∀ c ∈ provider.name, (c != ':') = true := by
  apply List.all_eq_true.mp
  cases provider <;> decide

@[simp] theorem providerOf_externalId (profile : OAuthProfile) :
    providerOf profile.externalId = profile.provider.name := by
  rw [providerOf, OAuthProfile.externalId,
    List.takeWhile_append_of_pos profile.provider.name_colonless]
  exact List.append_nil _

@[simp] theorem suffix_externalId (profile : OAuthProfile) :
    suffix profile.externalId = profile.providerUserId := by
  have hcolon : ':' ∈ profile.externalId :=
    List.mem_append_right _ List.mem_cons_self
  rw [suffix, if_pos hcolon, OAuthProfile.externalId,
    List.dropWhile_append_of_pos profile.provider.name_colonless]
  rfl

theorem Provider.name_inj {first second : Provider}
    (h : first.name = second.name) : first = second := by
  cases first <;> cases second <;> first | rfl | exact absurd h (by decide)

/-! ### Rows -/

inductive AuthProvider where
  | phone
  | password
  | oauth
  | passkey
deriving DecidableEq

/-- A row of `app_user`. -/
structure User where
  id : Nat
  active : Bool
deriving DecidableEq

/-- A row of `auth_identity`. -/
structure Identity where
  userId : Nat
  provider : AuthProvider
  externalId : Text
  secret : Option Text
deriving DecidableEq

/-- `uq_auth_identity`. -/
def Identity.key (row : Identity) : AuthProvider × Text :=
  (row.provider, row.externalId)

/-- A row of `oauth_connection`. -/
structure Connection where
  userId : Nat
  provider : Provider
  providerUserId : Text
  profileEmail : Option Text
deriving DecidableEq

/-- `uq_oauth_connection`. -/
def Connection.key (row : Connection) : Provider × Text :=
  (row.provider, row.providerUserId)

def Connection.externalId (row : Connection) : Text :=
  row.provider.name ++ ':' :: row.providerUserId

/-- A row of `passkey_credential`. -/
structure Passkey where
  userId : Nat
  credentialId : Text
deriving DecidableEq

structure Db where
  users : List User
  identities : List Identity
  connections : List Connection
  passkeys : List Passkey
  /-- How many login callbacks have started. -/
  started : Nat
deriving DecidableEq

/-! ### Queries -/

/-- `find_user`: any identity of the user, joined with the user. -/
def findUser (db : Db) (userId : Nat) : Option User :=
  if db.identities.any (·.userId == userId) then
    lookup User.id userId db.users
  else none

/-- `require_active(find_user(...))`. -/
def isActiveUser (db : Db) (userId : Nat) : Bool :=
  (findUser db userId).any User.active

/-- `find_oauth_identity`: the identity, joined with its user. -/
def findOAuthIdentity (db : Db) (externalId : Text) :
    Option (Identity × User) :=
  (lookup Identity.key (.oauth, externalId) db.identities).bind
    fun identity => (lookup User.id identity.userId db.users).map
      fun user => (identity, user)

/-- `find` of the connections. -/
def findConnection (db : Db) (externalId : Text) : Option Connection :=
  db.connections.find? fun row =>
    row.provider.name == providerOf externalId &&
      row.providerUserId == suffix externalId

/-! ### Transactions -/

/-- `INSERT INTO oauth_connection ... ON CONFLICT ... DO UPDATE SET
profile_email ... WHERE user_id = EXCLUDED.user_id`; `none` when the row is
another user's. -/
def putConnection (connections : List Connection) (profile : OAuthProfile)
    (userId : Nat) : Option (List Connection) :=
  let key := (profile.provider, profile.providerUserId)
  match lookup Connection.key key connections with
  | none => some (connections ++
      [⟨userId, profile.provider, profile.providerUserId, profile.email⟩])
  | some row =>
      if row.userId = userId then
        some (updateWhere (fun row => row.key == key)
          (fun row => { row with profileEmail := profile.email }) connections)
      else none

/-- `upsert` of the connections. -/
def upsert (db : Db) (profile : OAuthProfile) (userId : Nat) : Option Db :=
  (putConnection db.connections profile userId).map
    fun connections => { db with connections }

/-- The identity that `link` writes; a conflict with one of the user's own
leaves it as it is. -/
def putIdentity (identities : List Identity) (externalId : Text)
    (userId : Nat) : Option (List Identity) :=
  match lookup Identity.key (.oauth, externalId) identities with
  | none => some (identities ++ [⟨userId, .oauth, externalId, none⟩])
  | some row => if row.userId = userId then some identities else none

/-- `link` of the connections: both rows or none. -/
def link (db : Db) (profile : OAuthProfile) (userId : Nat) : Option Db :=
  (putIdentity db.identities profile.externalId userId).bind
    fun identities => (putConnection db.connections profile userId).map
      fun connections => { db with identities, connections }

/-- `provider IN ('phone', 'password') AND secret IS NOT NULL`. -/
def Identity.hasSecret (row : Identity) : Bool :=
  (row.provider == .phone || row.provider == .password) && row.secret.isSome

/-- `provider = 'oauth'` with that provider in the external id. -/
def Identity.isOf (row : Identity) (provider : Text) : Bool :=
  row.provider == .oauth && providerOf row.externalId == provider

/-- The alternatives that `delete` of the connections looks for. -/
def hasOtherThanProvider (db : Db) (userId : Nat) (provider : Text) : Bool :=
  db.identities.any (fun row => row.userId == userId &&
      (row.hasSecret || row.provider == .oauth && !row.isOf provider)) ||
    db.passkeys.any (·.userId == userId)

/-- What a removal does: nothing to remove, no alternative, or done. -/
inductive Removal where
  | absent
  | conflict
  | removed (db : Db)

/-- `delete` of the connections. -/
def unlink (db : Db) (provider : Text) (userId : Nat) : Removal :=
  let identities := db.identities.filter fun row =>
    row.userId == userId && row.isOf provider
  let connections := db.connections.filter fun row =>
    row.userId == userId && row.provider.name == provider
  if identities.isEmpty && connections.isEmpty then .absent
  else if !hasOtherThanProvider db userId provider then .conflict
  else .removed { db with
    connections := db.connections.filter fun row =>
      !(row.provider.name == provider && row.userId == userId)
    identities := db.identities.filter fun row =>
      !(row.userId == userId && row.isOf provider) }

/-- `insert` of a passkey; `none` when the tenant has the credential. -/
def insertPasskey (db : Db) (userId : Nat) (credentialId : Text) :
    Option Db :=
  if db.passkeys.any (·.credentialId == credentialId) then none
  else some { db with passkeys := db.passkeys ++ [⟨userId, credentialId⟩] }

def passkeyExternalId (userId : Nat) : Text :=
  "passkey:".toList ++ Nat.toDigits 10 userId

/-- `find_or_create_passkey_identity`. -/
def findOrCreatePasskeyIdentity (db : Db) (userId : Nat) : Db :=
  if db.identities.any (fun row =>
      row.userId == userId && row.provider == .passkey) ||
    (lookup Identity.key (.passkey, passkeyExternalId userId)
      db.identities).isSome then db
  else { db with
    identities := db.identities ++
      [⟨userId, .passkey, passkeyExternalId userId, none⟩] }

/-- The alternatives that `delete` of the passkeys looks for. -/
def hasOtherThanPasskey (db : Db) (userId : Nat) (credentialId : Text) :
    Bool :=
  db.identities.any (fun row => row.userId == userId &&
      (row.hasSecret || row.provider == .oauth)) ||
    db.passkeys.any fun row =>
      row.userId == userId && row.credentialId != credentialId

/-- `delete` of the passkeys. -/
def deletePasskey (db : Db) (userId : Nat) (credentialId : Text) : Removal :=
  if !db.passkeys.any fun row =>
      row.credentialId == credentialId && row.userId == userId then .absent
  else if !hasOtherThanPasskey db userId credentialId then .conflict
  else .removed { db with
    passkeys := db.passkeys.filter fun row =>
      !(row.credentialId == credentialId && row.userId == userId) }

end AiTeam.LoginMethod
