/-
The calls of `PasskeyService` of every tenant, interleaving over one process's
challenges and the credential table.
-/
import AiTeam.Interleaving
import AiTeam.Passkey.Ceremony

namespace AiTeam.Passkey

/-- A user with the phone account that `find_identity` finds it by. -/
structure User where
  tenantId : Text
  id : Text
  account : Text
  active : Bool
deriving DecidableEq

structure Db where
  users : List User
  credentials : List Credential
  challenges : Challenges
  /-- How many tokens `secrets.token_bytes` has drawn. -/
  drawn : Nat
deriving DecidableEq

def empty : Db := ⟨[], [], [], 0⟩

/-- A JSON field: `missing` is an absent one or an empty one of another type,
`other` any other value that is no text. -/
inductive Field where
  | missing
  | text (value : Text)
  | other
deriving DecidableEq

structure LoginPayload where
  id : Field
  rawId : Field
  response : Assertion
deriving DecidableEq

/-- `payload.get("id") or payload.get("rawId")`, when it is a text that is not
empty. -/
def LoginPayload.credentialId (payload : LoginPayload) : Option Text :=
  match payload.id, payload.rawId with
  | .text (head :: tail), _ => some (head :: tail)
  | .other, _ => none
  | _, .text (head :: tail) => some (head :: tail)
  | _, _ => none

/-- `payload.get("id")` as the credential list is searched for it. -/
def LoginPayload.listedId (payload : LoginPayload) : Option Text :=
  match payload.id with
  | .text value => some value
  | _ => none

/-- The challenge that the client answers. -/
def LoginPayload.challenge (payload : LoginPayload) : Option Nat :=
  payload.response.clientData.bind ClientData.challenge

inductive Request where
  | authenticationOptions (origin : AuthOrigin) (tenantId : Text)
      (account : Option Text)
  | finishLogin (origin : AuthOrigin) (tenantId : Text)
      (payload : LoginPayload)
  | registrationOptions (origin : AuthOrigin) (tenantId userId : Text)
  | finishRegistration (origin : AuthOrigin) (tenantId userId label : Text)
      (attestation : Attestation)
deriving DecidableEq

/-- A login whose assertion passed: when and with what. -/
structure Login where
  origin : AuthOrigin
  tenantId : Text
  userId : Text
  credentialId : Text
  challenge : Nat
  signCount : Nat
  acceptedAt : Int
deriving DecidableEq

/-- The statement a call runs next. -/
inductive Stage where
  | start (request : Request)
  | listLogin (origin : AuthOrigin) (tenantId userId : Text)
  | makeLogin (origin : AuthOrigin) (tenantId : Text) (allow : List Text)
  | checkUser (origin : AuthOrigin) (tenantId : Text)
      (payload : LoginPayload) (credential : Credential)
  | finishLogin (origin : AuthOrigin) (tenantId : Text)
      (payload : LoginPayload) (credential : Credential)
  | updateUsage (login : Login) (credential : Credential)
  | findUser (login : Login)
  | listRegistered (origin : AuthOrigin) (tenantId userId : Text)
  | makeRegistration (origin : AuthOrigin) (tenantId userId : Text)
      (existing : List Text)
  | finishRegistration (origin : AuthOrigin) (tenantId userId label : Text)
      (attestation : Attestation)
  | checkRegistered (row : Credential)
  | insert (row : Credential)
  | returned
  | failed
deriving DecidableEq

inductive Event where
  | made (challenge : Nat) (entry : Entry)
  | loggedIn (login : Login)
deriving DecidableEq

/-- Accounts come and change as other services write them. -/
inductive Outside where
  | accounts (users : List User)
  /-- The process starts anew without the challenges. -/
  | restart
deriving DecidableEq

def findUser (db : Db) (tenantId userId : Text) : Option User :=
  db.users.find? fun user => user.tenantId == tenantId && user.id == userId

def findIdentity (db : Db) (tenantId account : Text) : Option User :=
  db.users.find? fun user =>
    user.tenantId == tenantId && user.account == account

/-- `_active_user`. -/
def isActiveUser (db : Db) (tenantId userId : Text) : Bool :=
  (findUser db tenantId userId).any User.active

/-- Draws a token and stores its entry. -/
def makeChallenge (db : Db) (entry : Entry) : Db × Stage × List Event :=
  ({ db with
    challenges := storeChallenge db.challenges db.drawn entry
    drawn := db.drawn + 1 }, .returned, [.made db.drawn entry])

def registrationScope (tenantId userId : Text) : Text :=
  tenantId ++ ':' :: userId

/-- `now` is the clock reading of the statement. -/
def statement (crypto : Crypto) (db : Db) (now : Int) :
    Stage → Db × Stage × List Event
  | .start (.authenticationOptions origin tenantId account) =>
      match account with
      | none | some [] => (db, .makeLogin origin tenantId [], [])
      | some account =>
          match findIdentity db tenantId account with
          | none => (db, .failed, [])
          | some user =>
              (db, if user.active then .listLogin origin tenantId user.id
                else .failed, [])
  | .listLogin origin tenantId userId =>
      let allow := (listForUser db.credentials tenantId userId).map
        Credential.credentialId
      (db, if allow = [] then .failed else .makeLogin origin tenantId allow,
        [])
  | .makeLogin origin tenantId allow =>
      makeChallenge db
        ⟨.login, origin.rpId, origin.origin, tenantId, allow, now⟩
  | .start (.finishLogin origin tenantId payload) =>
      match payload.credentialId with
      | none => (db, .failed, [])
      | some credentialId =>
          match findByCredential db.credentials tenantId credentialId with
          | none => (db, .failed, [])
          | some credential =>
              (db, .checkUser origin tenantId payload credential, [])
  | .checkUser origin tenantId payload credential =>
      (db, if isActiveUser db tenantId credential.userId then
          .finishLogin origin tenantId payload credential else .failed, [])
  | .finishLogin origin tenantId payload credential =>
      let (challenges, passed) := finishLogin crypto db.challenges now
        payload.listedId payload.response origin tenantId
        credential.publicKeyPem credential.signCount
      let next := { db with challenges }
      match passed, payload.challenge with
      | some signCount, some challenge =>
          (next, .updateUsage ⟨origin, tenantId, credential.userId,
            credential.credentialId, challenge, signCount, now⟩ credential, [])
      | _, _ => (next, .failed, [])
  | .updateUsage login _ =>
      match updateUsage db.credentials login.tenantId login.credentialId
        login.signCount with
      | none => (db, .failed, [])
      | some credentials => ({ db with credentials }, .findUser login, [])
  | .findUser login =>
      if isActiveUser db login.tenantId login.userId then
        (db, .returned, [.loggedIn login])
      else (db, .failed, [])
  | .start (.registrationOptions origin tenantId userId) =>
      (db, if isActiveUser db tenantId userId then
          .listRegistered origin tenantId userId else .failed, [])
  | .listRegistered origin tenantId userId =>
      (db, .makeRegistration origin tenantId userId
        ((listForUser db.credentials tenantId userId).map
          Credential.credentialId), [])
  | .makeRegistration origin tenantId userId existing =>
      makeChallenge db ⟨.register, origin.rpId, origin.origin,
        registrationScope tenantId userId, existing, now⟩
  | .start (.finishRegistration origin tenantId userId label attestation) =>
      (db, if isActiveUser db tenantId userId then
          .finishRegistration origin tenantId userId label attestation
        else .failed, [])
  | .finishRegistration origin tenantId userId label attestation =>
      let (challenges, passed) := finishRegistration crypto db.challenges now
        attestation origin (registrationScope tenantId userId)
      let next := { db with challenges }
      match passed with
      | none => (next, .failed, [])
      | some (credentialId, publicKeyPem, signCount) =>
          (next, .checkRegistered
            ⟨tenantId, userId, credentialId, publicKeyPem, signCount, label⟩,
            [])
  | .checkRegistered row =>
      (db, if (findByCredential db.credentials row.tenantId
          row.credentialId).isSome then .failed else .insert row, [])
  | .insert row =>
      match insertCredential db.credentials row with
      | none => (db, .failed, [])
      | some credentials => ({ db with credentials }, .returned, [])
  | .returned => (db, .returned, [])
  | .failed => (db, .failed, [])

/-- What has ended stays as it is. -/
theorem statement_ended (crypto : Crypto) (db : Db) (now : Int) {stage : Stage}
    (h : stage = .returned ∨ stage = .failed) :
    statement crypto db now stage = (db, stage, []) := by
  rcases h with rfl | rfl <;> simp only [statement]

def outside (db : Db) : Outside → Db × List Event
  | .accounts users => ({ db with users }, [])
  | .restart => ({ db with challenges := [] }, [])

def service (crypto : Crypto) :
    Service Db Stage Request Int Outside Event where
  start _ request := .start request
  statement := statement crypto
  outside := outside

end AiTeam.Passkey
