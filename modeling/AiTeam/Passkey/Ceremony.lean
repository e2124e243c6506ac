/-
WebAuthn ceremonies of the manager: the challenges in memory, what a client
has to answer, and the statements of `PasskeyStore`.
-/
import AiTeam.Table

namespace AiTeam.Passkey

abbrev Text := List Char

abbrev Bytes := List UInt8

/-- `_CHALLENGE_TTL`, in microseconds. -/
def challengeTtl : Int := 300000000

/-- What the ceremonies take from libraries: `encode("idna")`, SHA-256, the
signature check of a public key in PEM. -/
structure Crypto where
  idna : Text → Option Bytes
  sha256 : Bytes → Bytes
  verify : Text → Bytes → Bytes → Bool

/-- `AuthOrigin`. -/
structure AuthOrigin where
  rpId : Text
  origin : Text
deriving DecidableEq

/-! ### Challenges -/

inductive Kind where
  | register
  | login
deriving DecidableEq

/-- An entry of `_challenges`. -/
structure Entry where
  kind : Kind
  rpId : Text
  origin : Text
  scope : Text
  credentialIds : List Text
  ts : Int
deriving DecidableEq

/-- `_challenges`.  A token is given by the number of its drawing. -/
abbrev Challenges := List (Nat × Entry)

/-- `_cleanup_challenges`. -/
def cleanupChallenges (challenges : Challenges) (now : Int) : Challenges :=
  challenges.filter fun item => !decide (challengeTtl < now - item.2.ts)

/-- `_store_challenge`. -/
def storeChallenge (challenges : Challenges) (challenge : Nat)
    (entry : Entry) : Challenges :=
  assign challenge entry (cleanupChallenges challenges entry.ts)

/-- `_consume_challenge`: what is left, and the entry. -/
def consumeChallenge (challenges : Challenges) (now : Int) (challenge : Nat)
    (kind : Kind) : Challenges × Option Entry :=
  let live := cleanupChallenges challenges now
  (discard challenge live,
    (valueAt challenge live).filter fun entry => entry.kind == kind)

/-! ### Responses -/

/-- The decoded `clientDataJSON`; fields of another type are `none`.
`crossOrigin` tells anything other than a missing field or `false`. -/
structure ClientData where
  type : Option Text
  challenge : Option Nat
  origin : Option Text
  crossOrigin : Bool
deriving DecidableEq

/-- `payload["response"]` of a login: the raw and the decoded client data, the
decoded authenticator data and signature. -/
structure Assertion where
  clientRaw : Bytes
  clientData : Option ClientData
  authenticatorData : Option Bytes
  signature : Option Bytes
deriving DecidableEq

/-- `_validate_client` with `_client_data`. -/
def validateClient (challenges : Challenges) (now : Int)
    (clientData : Option ClientData) (expectedType : Text) (kind : Kind)
    (origin : AuthOrigin) (scope : Text) : Challenges × Option Entry :=
  match clientData with
  | none => (challenges, none)
  | some data =>
      if data.type ≠ some expectedType then (challenges, none)
      else
        match data.challenge with
        | none => (challenges, none)
        | some challenge =>
            let (left, entry) := consumeChallenge challenges now challenge kind
            (left, entry.filter fun entry =>
              entry.rpId == origin.rpId && entry.origin == origin.origin &&
                entry.scope == scope && data.origin == some origin.origin &&
                !data.crossOrigin)

/-- `int.from_bytes(..., "big")`. -/
def fromBytes (bytes : Bytes) : Nat :=
  bytes.foldl (fun value byte => value * 256 + byte.toNat) 0

/-- `_parse_auth_data`: the flags and the sign count. -/
def parseAuthData (crypto : Crypto) (authData : Bytes) (rpId : Text) :
    Option (UInt8 × Nat) :=
  if authData.length < 37 then none
  else
    match crypto.idna rpId with
    | none => none
    | some name =>
        if authData.take 32 ≠ crypto.sha256 name then none
        else
          let flags := authData.getD 32 0
          if flags &&& 5 ≠ 5 then none
          else some (flags, fromBytes ((authData.drop 33).take 4))

/-- What `finish_login` checks once the challenge is consumed. -/
def checkAssertion (crypto : Crypto) (payloadId : Option Text)
    (assertion : Assertion) (entry : Entry) (origin : AuthOrigin)
    (storedPem : Text) (oldSignCount : Nat) : Option Nat :=
  if entry.credentialIds ≠ [] ∧
      ¬ payloadId.any (fun id => entry.credentialIds.contains id) then none
  else
    match assertion.authenticatorData with
    | none => none
    | some authData =>
        match parseAuthData crypto authData origin.rpId,
          assertion.signature with
        | some (_, newCount), some signature =>
            if !crypto.verify storedPem signature
                (authData ++ crypto.sha256 assertion.clientRaw) then none
            else if newCount ≠ 0 ∧ oldSignCount ≠ 0 ∧
                newCount ≤ oldSignCount then none
            else some newCount
        | _, _ => none

/-- `finish_login` of the ceremony: the challenges it leaves, and the sign
count of an assertion that passes. -/
def finishLogin (crypto : Crypto) (challenges : Challenges) (now : Int)
    (payloadId : Option Text) (assertion : Assertion) (origin : AuthOrigin)
    (scope storedPem : Text) (oldSignCount : Nat) : Challenges × Option Nat :=
  let (left, entry) := validateClient challenges now assertion.clientData
    "webauthn.get".toList .login origin scope
  (left, entry.bind fun entry => checkAssertion crypto payloadId assertion
    entry origin storedPem oldSignCount)

/-- `payload["response"]` of a registration.  `attested` is what
`_credential_from_rest` reads: the credential id and the key in PEM. -/
structure Attestation where
  clientData : Option ClientData
  authData : Option Bytes
  attested : Option (Text × Text)
deriving DecidableEq

/-- `finish_registration` of the ceremony: the credential id, the key and the
sign count. -/
def finishRegistration (crypto : Crypto) (challenges : Challenges)
    (now : Int) (attestation : Attestation) (origin : AuthOrigin)
    (scope : Text) : Challenges × Option (Text × Text × Nat) :=
  let (left, entry) := validateClient challenges now attestation.clientData
    "webauthn.create".toList .register origin scope
  (left, entry.bind fun _ => attestation.authData.bind fun authData =>
    (parseAuthData crypto authData origin.rpId).bind fun (flags, count) =>
      if flags &&& 64 = 0 then none
      else attestation.attested.map fun (credentialId, publicKeyPem) =>
        (credentialId, publicKeyPem, count))

/-! ### Credentials -/

/-- A row of `passkey_credential`. -/
structure Credential where
  tenantId : Text
  userId : Text
  credentialId : Text
  publicKeyPem : Text
  signCount : Nat
  label : Text
deriving DecidableEq

/-- `uq_passkey_credential`. -/
def Credential.key (row : Credential) : Text × Text :=
  (row.tenantId, row.credentialId)

/-- `list_for_user`, oldest first. -/
def listForUser (credentials : List Credential) (tenantId userId : Text) :
    List Credential :=
  credentials.filter fun row => row.tenantId == tenantId && row.userId == userId

/-- `find_by_credential`. -/
def findByCredential (credentials : List Credential)
    (tenantId credentialId : Text) : Option Credential :=
  lookup Credential.key (tenantId, credentialId) credentials

/-- What the column `sign_count` holds: four-byte integers. -/
def fitsColumn (signCount : Nat) : Bool :=
  decide (signCount < 2147483648)

/-- `insert`; `none` when the tenant has the credential. -/
def insertCredential (credentials : List Credential) (row : Credential) :
    Option (List Credential) :=
  if fitsColumn row.signCount &&
      (lookup Credential.key row.key credentials).isNone then
    some (credentials ++ [row])
  else none

/-- `update_usage`. -/
def updateUsage (credentials : List Credential)
    (tenantId credentialId : Text) (signCount : Nat) :
    Option (List Credential) :=
  if fitsColumn signCount then
    some (updateWhere (fun row => row.key == (tenantId, credentialId))
      (fun row => { row with signCount }) credentials)
  else none

end AiTeam.Passkey
