/-
The calls that bind, remove and use login methods, each a sequence of
transactions that interleave over the tenant's rows.  A callback and a link
come with the profile that the provider has answered with.
-/
import AiTeam.Interleaving
import AiTeam.LoginMethod.Store

namespace AiTeam.LoginMethod

inductive Request where
  | callback (profile : OAuthProfile)
  | link (userId : Nat) (profile : OAuthProfile)
  | unlink (userId : Nat) (provider : Text)
  | registerPasskey (userId : Nat) (credentialId : Text)
  | deletePasskey (userId : Nat) (credentialId : Text)
deriving DecidableEq

/-- The transaction a call runs next.  `ticket` numbers the callbacks. -/
inductive Stage where
  | start (request : Request)
  | findConnection (ticket : Nat) (profile : OAuthProfile)
  | findUser (ticket : Nat) (profile : OAuthProfile) (userId : Nat)
  | findIdentity (ticket : Nat) (profile : OAuthProfile)
  | upsert (ticket : Nat) (profile : OAuthProfile) (userId : Nat)
  | issue (ticket : Nat) (profile : OAuthProfile) (userId : Nat)
  | linkConnection (userId : Nat) (profile : OAuthProfile)
  | linkIdentity (userId : Nat) (profile : OAuthProfile)
  | linkActive (userId : Nat) (profile : OAuthProfile)
  | link (userId : Nat) (profile : OAuthProfile)
  | unlink (userId : Nat) (provider : Text)
  | findCredential (userId : Nat) (credentialId : Text)
  | insertPasskey (userId : Nat) (credentialId : Text)
  | createIdentity (userId : Nat)
  | returned
  | failed
deriving DecidableEq

inductive Event where
  | started (ticket : Nat)
  | loggedIn (ticket userId : Nat) (externalId : Text)
  | linked (userId : Nat) (externalId : Text)
  /-- `unlink` returned, whether or not there was something to remove. -/
  | unlinked (userId : Nat) (provider : Text)
deriving DecidableEq

/-- Other services change the status of a user. -/
inductive Outside where
  | setActive (userId : Nat) (active : Bool)
deriving DecidableEq

/-- What follows a read of the user. -/
def whenActive (db : Db) (userId : Nat) (next : Stage) :
    Db × Stage × List Event :=
  (db, if isActiveUser db userId then next else .failed, [])

def statement (db : Db) (_ : Unit) : Stage → Db × Stage × List Event
  | .start (.callback profile) =>
      ({ db with started := db.started + 1 },
        .findConnection db.started profile, [.started db.started])
  | .findConnection ticket profile =>
      match findConnection db profile.externalId with
      | some row => (db, .findUser ticket profile row.userId, [])
      | none => (db, .findIdentity ticket profile, [])
  | .findUser ticket profile userId =>
      whenActive db userId (.upsert ticket profile userId)
  | .findIdentity ticket profile =>
      match findOAuthIdentity db profile.externalId with
      | none => (db, .failed, [])
      | some (identity, user) =>
          (db, if user.active then .upsert ticket profile identity.userId
            else .failed, [])
  | .upsert ticket profile userId =>
      match upsert db profile userId with
      | none => (db, .failed, [])
      | some next => (next, .issue ticket profile userId, [])
  | .issue ticket profile userId =>
      if isActiveUser db userId then
        (db, .returned, [.loggedIn ticket userId profile.externalId])
      else (db, .failed, [])
  | .start (.link userId profile) =>
      whenActive db userId (.linkConnection userId profile)
  | .linkConnection userId profile =>
      -- An identity that is bound to another user is refused.
      (db, if (findConnection db profile.externalId).any
          (·.userId != userId) then .failed
        else .linkIdentity userId profile, [])
  | .linkIdentity userId profile =>
      (db, if (findOAuthIdentity db profile.externalId).any
          (·.1.userId != userId) then .failed
        else .linkActive userId profile, [])
  | .linkActive userId profile => whenActive db userId (.link userId profile)
  | .link userId profile =>
      match link db profile userId with
      | none => (db, .failed, [])
      | some next => (next, .returned, [.linked userId profile.externalId])
  | .start (.unlink userId provider) =>
      whenActive db userId (.unlink userId provider)
  | .unlink userId provider =>
      match unlink db provider userId with
      | .absent => (db, .returned, [.unlinked userId provider])
      | .conflict => (db, .failed, [])
      | .removed next => (next, .returned, [.unlinked userId provider])
  | .start (.registerPasskey userId credentialId) =>
      whenActive db userId (.findCredential userId credentialId)
  | .findCredential userId credentialId =>
      (db, if db.passkeys.any (·.credentialId == credentialId) then .failed
        else .insertPasskey userId credentialId, [])
  | .insertPasskey userId credentialId =>
      match insertPasskey db userId credentialId with
      | none => (db, .failed, [])
      | some next => (next, .createIdentity userId, [])
  | .createIdentity userId =>
      (findOrCreatePasskeyIdentity db userId, .returned, [])
  | .start (.deletePasskey userId credentialId) =>
      match deletePasskey db userId credentialId with
      | .absent => (db, .returned, [])
      | .conflict => (db, .failed, [])
      | .removed next => (next, .returned, [])
  | .returned => (db, .returned, [])
  | .failed => (db, .failed, [])

def outside (db : Db) : Outside → Db × List Event
  | .setActive userId active =>
      ({ db with
        users := updateWhere (fun user => user.id == userId)
          (fun user => { user with active }) db.users }, [])

def service : Service Db Stage Request Unit Outside Event where
  start _ request := .start request
  statement := statement
  outside := outside

end AiTeam.LoginMethod
