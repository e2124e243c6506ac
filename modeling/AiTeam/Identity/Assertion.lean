/-
`ServiceIdentityVerifier.verify` up to its replay check: what a trusted key
registers, what a decoded assertion has to claim, and the errors of each check.
-/
import Mathlib.Data.Rat.Floor
import AiTeam.Rag.Payload

namespace AiTeam.Identity

open Rag (Json isSpace)

def maxAssertionTtlSeconds : Int := 60

def maxClockSkewSeconds : Int := 30

def requiredClaims : List String :=
  ["iss", "sub", "aud", "purpose", "deployment_id", "iat", "nbf", "exp", "jti"]

def allowedClaims : List String :=
  requiredClaims ++ ["enterprise_id", "tenant_id", "scope", "path",
    "body_sha256", "origin", "capability", "idempotency_key"]

inductive Failure where
  | unauthorized (detail : String)
  | forbidden (detail : String)
deriving DecidableEq

/-- What `jwt.decode` raises. -/
inductive JwtFailure where
  | expiredSignature
  | immatureSignature
  | pyJwt
  | other
deriving DecidableEq

/-- The parts `urlsplit` finds; `port` is missing where reading it raises. -/
structure SplitUrl where
  scheme : String
  hostname : Option String
  username : Option String
  password : Option String
  path : String
  query : String
  fragment : String
  port : Option (Option Nat)
deriving DecidableEq

/-- PyJWT and what the verifier takes from the standard library. -/
structure Runtime where
  getUnverifiedHeader : String → Option (List (String × Json))
  /-- `jwt.decode(token, key, issuer, audience, leeway)` at a time. -/
  decode : String → String → String → String → Int → Rat →
    Except JwtFailure (List (String × Json))
  /-- The error is the text of its `ValueError`. -/
  urlsplit : String → Except String SplitUrl
  lower : String → String
  sha256 : List UInt8 → String

/-! ### Texts -/

/-- `text.strip()`. -/
def strip (text : String) : String :=
  String.ofList ((text.toList.dropWhile isSpace).reverse.dropWhile
    isSpace).reverse

/-- `not text.strip()`. -/
def blank (text : String) : Bool := text.toList.all isSpace

/-- `"*" in text`. -/
def wildcard (text : String) : Bool := text.toList.contains '*'

/-- `text.split()`. -/
def words (text : String) : List String :=
  (text.toList.splitBy (fun left right => isSpace left == isSpace right))
    |>.filter (fun word => !word.all isSpace) |>.map String.ofList

/-- `not value`, of a text or `None`. -/
def absent (value : Option String) : Bool := value.getD "" == ""

/-- `first or second`. -/
def orElse (first second : Option String) : Option String :=
  if absent first then second else first

/-- `_normalise_pem`. -/
def normalisePem (value : String) : String :=
  strip (value.replace "\\n" "\n")

def bodySha256 (runtime : Runtime) : Option (List UInt8) → Option String
  | some (byte :: bytes) => some (runtime.sha256 (byte :: bytes))
  | _ => none

def canonicalOrigin (runtime : Runtime) (value : String)
    (requireHttps : Bool) : Except String String := do
  if blank value then throw "service origin is required"
  let parsed ← runtime.urlsplit (strip value)
  let scheme := runtime.lower parsed.scheme
  if ! ["http", "https"].contains scheme || absent parsed.hostname then
    throw "service origin must be an absolute HTTP(S) URL"
  if requireHttps && scheme != "https" then
    throw "production service origin must use HTTPS"
  if !absent parsed.username || !absent parsed.password ||
      parsed.query != "" || parsed.fragment != "" then
    throw ("service origin must not contain credentials, query, " ++
      "or fragment")
  if parsed.path != "" && parsed.path != "/" then
    throw "service origin must not contain a path"
  let some port := parsed.port | throw "service origin has an invalid port"
  let host := runtime.lower (parsed.hostname.getD "")
  let host := if host.toList.contains ':' then "[" ++ host ++ "]" else host
  let netloc := match port with
    | none => host
    | some port =>
        if (scheme == "http" && port == 80) ||
            (scheme == "https" && port == 443) then host
        else host ++ ":" ++ toString port
  return scheme ++ "://" ++ netloc

/-! ### Trust -/

/-- The enterprise, the tenant and the origin of a target binding. -/
structure TargetBinding where
  enterpriseId : Option String
  tenantId : Option String
  origin : String
deriving DecidableEq

structure TrustedServiceKey where
  publicKey : String
  issuer : Option String
  subject : Option String
  deploymentId : Option String
  audiences : List String
  origins : List String
  enterpriseIds : List String
  tenantIds : List String
  targetBindings : List TargetBinding
  scopes : List String
  provisioningCapabilities : List String
  status : Option String
  notBefore : Option Int
  expiresAt : Option Int
  revokedAt : Option Int
deriving DecidableEq

/-- A verifier as its constructor leaves it. -/
structure Verifier where
  keys : List (String × TrustedServiceKey)
  expectedIssuer : Option String
  expectedAudience : Option String
  expectedOrigin : Option String
  allowedOrigins : List String
  allowedEnterprises : List String
  allowedTenants : List String
  allowedScopes : List String
  requireScopeBinding : Bool
  requireOriginBinding : Bool
  singleInstance : Bool
  clockSkewSeconds : Int
  skewBounded : 0 ≤ clockSkewSeconds ∧ clockSkewSeconds ≤ maxClockSkewSeconds

/-- The arguments of one `verify`. -/
structure Request where
  token : String
  path : String
  body : Option (List UInt8)
  requiredScope : Option String
  requiredEnterpriseId : Option String
  requiredTenantId : Option String
  requireEnterpriseScope : Bool
  rejectEnterpriseScope : Bool
  targetBinding : Option String
  requiredCapability : Option String
  expectedOrigin : Option String
  expectedIdempotencyKey : Option String
  audience : Option String
deriving DecidableEq

/-- The readings of the clock in one call: by `verify`, by `jwt.decode` and by
the replay cache. -/
structure Clock where
  verify : Rat
  decode : Rat
  replay : Rat
deriving DecidableEq

/-- `int(value)`. -/
def truncate (value : Rat) : Int :=
  if 0 ≤ value then value.floor else value.ceil

/-! ### Checks -/

abbrev Checked := Except Failure

def unauthorizedIf (refused : Bool) (detail : String) : Checked Unit :=
  if refused then .error (.unauthorized detail) else .ok ()

def forbiddenIf (refused : Bool) (detail : String) : Checked Unit :=
  if refused then .error (.forbidden detail) else .ok ()

abbrev Claims := List (String × Json)

/-- `payload.get(name)`, null read as missing. -/
def claim (payload : Claims) (name : String) : Option Json :=
  Rag.present (valueAt name payload)

/-- The claim is this text. -/
def claims (payload : Claims) (name value : String) : Bool :=
  match claim payload name with
  | some (.str found) => found == value
  | _ => false

/-- A claim that is missing or a text that passes. -/
def textClaim (payload : Claims) (name : String) (passes : String → Bool)
    (detail : String) : Checked (Option String) :=
  match claim payload name with
  | none => .ok none
  | some (.str value) =>
      if passes value then .ok (some value) else .error (.unauthorized detail)
  | some _ => .error (.unauthorized detail)

/-- A target id or a capability: not blank, no wildcard. -/
def exactText (value : String) : Bool := !blank value && !wildcard value

/-- `_required_int`. -/
def requiredInt (payload : Claims) (name : String) : Checked Int :=
  match claim payload name with
  | some (.int value) => .ok value
  | _ => .error (.unauthorized "invalid service identity time claims")

def scopeItem : Json → Checked String
  | .str value => do
      unauthorizedIf (blank value) "invalid service identity scope"
      return value
  | _ => .error (.unauthorized "invalid service identity scope")

/-- The texts of the scope claim, before they are stripped. -/
def rawScope (payload : Claims) : Checked (List String) :=
  match claim payload "scope" with
  | none => .ok []
  | some (.str value) => .ok (words value)
  | some (.list items) => items.mapM scopeItem
  | some _ => .error (.unauthorized "invalid service identity scope")

/-- The id of the signing key, taken from the header. -/
def selectKey (runtime : Runtime) (verifier : Verifier) (token : String) :
    Checked (String × TrustedServiceKey) := do
  unauthorizedIf (token == "" || token.toList.count '.' != 2)
    "invalid service identity"
  let some header := runtime.getUnverifiedHeader token
    | throw (.unauthorized "invalid service identity")
  unauthorizedIf (!claims header "alg" "RS256")
    "invalid service identity algorithm"
  unauthorizedIf (header.any fun entry =>
      ! ["alg", "kid", "typ"].contains entry.1)
    "untrusted service identity key reference"
  unauthorizedIf (header.any fun entry =>
      ["jku", "jwk", "x5u", "x5c"].contains entry.1)
    "untrusted service identity key reference"
  match claim header "kid" with
  | some (.str kid) =>
      match valueAt kid verifier.keys with
      | some trusted =>
          if blank kid then throw (.unauthorized "unknown service identity key")
          else return (kid, trusted)
      | none => throw (.unauthorized "unknown service identity key")
  | _ => throw (.unauthorized "unknown service identity key")

/-- In production a key has to be active and the topology approved. -/
def checkKey (verifier : Verifier) (trusted : TrustedServiceKey) (now : Int) :
    Checked Unit := do
  if verifier.requireScopeBinding then
    unauthorizedIf (absent trusted.issuer || absent trusted.subject ||
        absent trusted.deploymentId)
      "service identity trust metadata is incomplete"
    unauthorizedIf (trusted.status != some "active" &&
        trusted.status != some "next")
      "service identity key is not active"
    match trusted.notBefore, trusted.expiresAt with
    | some notBefore, some expiresAt =>
        unauthorizedIf (now + verifier.clockSkewSeconds < notBefore)
          "service identity key is not active"
        unauthorizedIf (expiresAt ≤ now - verifier.clockSkewSeconds)
          "service identity key has expired"
    | _, _ =>
        throw (.unauthorized "service identity key validity is not configured")
    unauthorizedIf (trusted.revokedAt.any fun at_ => decide (at_ ≤ now))
      "service identity key is revoked"
    unauthorizedIf (!verifier.singleInstance)
      "service identity replay topology is not approved"

/-- Who the assertion has to come from and be meant for. -/
structure Expected where
  issuer : String
  audience : String
  origin : Option String
deriving DecidableEq

def expectations (runtime : Runtime) (verifier : Verifier)
    (trusted : TrustedServiceKey) (request : Request) :
    Checked Expected := do
  let issuer := orElse trusted.issuer verifier.expectedIssuer
  let audience := orElse (orElse request.audience verifier.expectedAudience)
    (match trusted.audiences with
      | [only] => some only
      | _ => none)
  let rawOrigin := orElse request.expectedOrigin verifier.expectedOrigin
  let origin ← if absent rawOrigin then pure none else
    match canonicalOrigin runtime (rawOrigin.getD "") false with
    | .ok origin => pure (some origin)
    | .error _ => throw (.unauthorized
        "service identity origin trust configuration is invalid")
  unauthorizedIf (absent issuer || absent audience)
    "service identity trust configuration is incomplete"
  unauthorizedIf (!trusted.audiences.isEmpty &&
      !trusted.audiences.contains (audience.getD ""))
    "service identity audience is not trusted"
  unauthorizedIf (verifier.requireOriginBinding && absent origin)
    "service identity origin trust configuration is incomplete"
  unauthorizedIf (verifier.requireOriginBinding && !absent origin &&
      !"https://".toList.isPrefixOf (origin.getD "").toList)
    "production service identity origin must use HTTPS"
  unauthorizedIf (verifier.requireOriginBinding && trusted.origins.isEmpty)
    "service identity registered origin is missing"
  unauthorizedIf (!absent origin && !verifier.allowedOrigins.isEmpty &&
      !verifier.allowedOrigins.contains (origin.getD ""))
    "service identity origin is not allowed"
  return ⟨issuer.getD "", audience.getD "", origin⟩

def decodeToken (runtime : Runtime) (verifier : Verifier)
    (trusted : TrustedServiceKey) (expected : Expected) (token : String)
    (now : Rat) : Checked Claims :=
  match runtime.decode token (normalisePem trusted.publicKey) expected.issuer
      expected.audience verifier.clockSkewSeconds now with
  | .ok payload => .ok payload
  | .error .expiredSignature =>
      .error (.unauthorized "service identity expired")
  | .error .immatureSignature =>
      .error (.unauthorized "service identity is not active")
  | .error .pyJwt => .error (.unauthorized "invalid service identity")
  | .error .other =>
      .error (.unauthorized "invalid service identity trust key")

def checkParties (trusted : TrustedServiceKey) (expected : Expected)
    (payload : Claims) : Checked Unit := do
  unauthorizedIf (payload.any fun entry => !allowedClaims.contains entry.1)
    "invalid service identity claims"
  unauthorizedIf (!claims payload "purpose" "service")
    "invalid service identity purpose"
  unauthorizedIf (!claims payload "iss" expected.issuer)
    "service identity issuer is not trusted"
  unauthorizedIf (!absent trusted.subject &&
      !claims payload "sub" (trusted.subject.getD ""))
    "service identity subject is not trusted"
  unauthorizedIf (!absent trusted.deploymentId &&
      !claims payload "deployment_id" (trusted.deploymentId.getD ""))
    "service deployment is not trusted"
  unauthorizedIf (!claims payload "aud" expected.audience)
    "service identity audience is not trusted"

def checkOrigin (runtime : Runtime) (verifier : Verifier)
    (trusted : TrustedServiceKey) (expected : Expected) (payload : Claims) :
    Checked (Option String) := do
  let raw ← textClaim payload "origin" (fun _ => true)
    "invalid service identity origin"
  let origin ← if absent raw then pure raw else
    match canonicalOrigin runtime (raw.getD "")
        verifier.requireOriginBinding with
    | .ok origin => pure (some origin)
    | .error _ => throw (.unauthorized "invalid service identity origin")
  unauthorizedIf (verifier.requireOriginBinding && absent origin)
    "service identity origin is required"
  forbiddenIf (!absent expected.origin && origin != expected.origin)
    "service identity origin does not match target"
  forbiddenIf (!trusted.origins.isEmpty &&
      !origin.any trusted.origins.contains)
    "service identity origin is not registered"
  return origin

/-- `iat`, `nbf` and `exp`. -/
structure Window where
  issuedAt : Int
  notBefore : Int
  expiresAt : Int
deriving DecidableEq

def checkWindow (payload : Claims) : Checked Window := do
  let issuedAt ← requiredInt payload "iat"
  let notBefore ← requiredInt payload "nbf"
  let expiresAt ← requiredInt payload "exp"
  unauthorizedIf (expiresAt ≤ issuedAt ||
      maxAssertionTtlSeconds < expiresAt - issuedAt)
    "service identity lifetime is too long"
  unauthorizedIf (issuedAt < notBefore)
    "invalid service identity activation window"
  return ⟨issuedAt, notBefore, expiresAt⟩

def checkScope (verifier : Verifier) (trusted : TrustedServiceKey)
    (request : Request) (payload : Claims) : Checked (List String) := do
  let scope := ((← rawScope payload).map strip).eraseDups
  forbiddenIf (!absent request.requiredScope &&
      !request.requiredScope.any scope.contains)
    "service identity scope is not authorized"
  forbiddenIf (!verifier.allowedScopes.isEmpty &&
      scope.any (!verifier.allowedScopes.contains ·))
    "service identity scope is not authorized"
  forbiddenIf (!trusted.scopes.isEmpty &&
      scope.any (!trusted.scopes.contains ·))
    "service identity scope is not authorized"
  unauthorizedIf (!absent request.requiredScope &&
      verifier.requireScopeBinding && trusted.scopes.isEmpty &&
      verifier.allowedScopes.isEmpty)
    "service identity scope registration is missing"
  return scope

/-- The target the assertion names. -/
structure Target where
  enterpriseId : Option String
  tenantId : Option String
  capability : Option String
deriving DecidableEq

def TargetBinding.matches (policy : String) (target : Target)
    (binding : TargetBinding) : Bool :=
  if policy == "provision-enterprise" then
    binding.enterpriseId == target.enterpriseId &&
      (binding.tenantId == none || binding.tenantId == target.tenantId)
  else if policy == "tenant-only" then
    binding.enterpriseId == none && binding.tenantId == target.tenantId
  else binding.enterpriseId == target.enterpriseId &&
    binding.tenantId == target.tenantId

def checkBinding (verifier : Verifier) (trusted : TrustedServiceKey)
    (request : Request) (origin : Option String) (target : Target) :
    Checked Unit := do
  let policy := request.targetBinding.getD ""
  if !absent request.targetBinding && verifier.requireScopeBinding then
    if policy == "provision-enterprise" &&
        !absent request.requiredCapability &&
        target.capability == request.requiredCapability then
      -- a registered capability authorizes the ids of this assertion
      pure ()
    else
      unauthorizedIf trusted.targetBindings.isEmpty
        "service target binding registration is missing"
      forbiddenIf (!trusted.targetBindings.any fun binding =>
          some binding.origin == origin && binding.matches policy target)
        "service target binding is not authorized"

/-- The enterprise is outside a list that is not empty; a tenant-only route
does without one. -/
def outsideEnterprises (allowed : List String) (request : Request)
    (target : Target) : Bool :=
  !allowed.isEmpty && !target.enterpriseId.any allowed.contains &&
    !(request.targetBinding == some "tenant-only" &&
      target.enterpriseId.isNone)

def outsideTenants (allowed : List String) (target : Target) : Bool :=
  !allowed.isEmpty && !target.tenantId.any allowed.contains

def checkTarget (verifier : Verifier) (trusted : TrustedServiceKey)
    (request : Request) (origin : Option String) (payload : Claims) :
    Checked Target := do
  let enterpriseId ← textClaim payload "enterprise_id" exactText
    "invalid service enterprise scope"
  let tenantId ← textClaim payload "tenant_id" exactText
    "invalid service tenant scope"
  forbiddenIf (request.rejectEnterpriseScope && enterpriseId.isSome)
    "this service route accepts tenant scope only"
  forbiddenIf (request.requireEnterpriseScope && absent enterpriseId)
    "service enterprise scope is required"
  unauthorizedIf (request.requiredTenantId.any wildcard)
    "invalid service tenant target"
  unauthorizedIf (request.requiredEnterpriseId.any wildcard)
    "invalid service enterprise target"
  forbiddenIf (!absent request.requiredTenantId &&
      tenantId != request.requiredTenantId)
    "service tenant scope does not match target"
  forbiddenIf (!absent request.requiredEnterpriseId &&
      enterpriseId != request.requiredEnterpriseId)
    "service enterprise scope does not match target"
  unauthorizedIf (request.targetBinding.any fun policy =>
      ! ["provision-enterprise", "tenant-only",
        "enterprise-tenant"].contains policy)
    "service target binding policy is invalid"
  unauthorizedIf (request.requiredCapability.any (!exactText ·))
    "service capability policy is invalid"
  let capability ← textClaim payload "capability" exactText
    "invalid service capability"
  let target : Target := ⟨enterpriseId, tenantId, capability⟩
  forbiddenIf (!absent request.requiredCapability &&
      verifier.requireScopeBinding &&
      (capability != request.requiredCapability ||
        !request.requiredCapability.any
          trusted.provisioningCapabilities.contains))
    "service provisioning capability is not authorized"
  checkBinding verifier trusted request origin target
  forbiddenIf (outsideEnterprises verifier.allowedEnterprises request target)
    "service enterprise scope is not authorized"
  forbiddenIf (outsideTenants verifier.allowedTenants target)
    "service tenant scope is not authorized"
  unauthorizedIf (verifier.requireScopeBinding &&
      (!absent enterpriseId || !absent tenantId) &&
      trusted.enterpriseIds.isEmpty && trusted.tenantIds.isEmpty &&
      trusted.targetBindings.isEmpty &&
      trusted.provisioningCapabilities.isEmpty &&
      verifier.allowedEnterprises.isEmpty && verifier.allowedTenants.isEmpty)
    "service enterprise trust registration is missing"
  unauthorizedIf (request.requireEnterpriseScope &&
      verifier.requireScopeBinding && trusted.enterpriseIds.isEmpty &&
      trusted.targetBindings.isEmpty &&
      trusted.provisioningCapabilities.isEmpty &&
      verifier.allowedEnterprises.isEmpty)
    "service enterprise trust registration is missing"
  unauthorizedIf (!absent request.requiredTenantId &&
      verifier.requireScopeBinding && !request.requireEnterpriseScope &&
      trusted.tenantIds.isEmpty && trusted.targetBindings.isEmpty &&
      verifier.allowedTenants.isEmpty)
    "service tenant trust registration is missing"
  forbiddenIf (outsideEnterprises trusted.enterpriseIds request target)
    "service enterprise scope is not authorized"
  forbiddenIf (outsideTenants trusted.tenantIds target)
    "service tenant scope is not authorized"
  return target

/-- The request an assertion is bound to. -/
structure Bound where
  bodySha256 : Option String
  idempotencyKey : Option String
deriving DecidableEq

def checkRequest (runtime : Runtime) (request : Request) (payload : Claims) :
    Checked Bound := do
  unauthorizedIf (!claims payload "path" request.path)
    "service identity request target mismatch"
  let expectedDigest := bodySha256 runtime request.body
  match expectedDigest with
  | some digest =>
      unauthorizedIf (!claims payload "body_sha256" digest)
        "service identity request body mismatch"
  | none =>
      unauthorizedIf (claim payload "body_sha256").isSome
        "service identity request body mismatch"
  let idempotencyKey ← textClaim payload "idempotency_key"
    (fun key => !blank key && key.length ≤ 200)
    "invalid service identity idempotency key"
  unauthorizedIf (request.expectedIdempotencyKey.isSome &&
      idempotencyKey != request.expectedIdempotencyKey)
    "service identity idempotency key mismatch"
  unauthorizedIf (request.expectedIdempotencyKey.isNone &&
      idempotencyKey.isSome)
    "service identity idempotency key mismatch"
  return ⟨expectedDigest, idempotencyKey⟩

/-- `ServicePrincipal`. -/
structure Principal where
  iss : String
  sub : String
  aud : String
  deploymentId : String
  enterpriseId : Option String
  tenantId : Option String
  scope : List String
  iat : Int
  nbf : Int
  exp : Int
  jti : String
  path : String
  bodySha256 : Option String
  origin : Option String
  capability : Option String
  idempotencyKey : Option String
  kid : String
deriving DecidableEq

/-- What the replay check and the principal are made from. -/
structure Assertion where
  kid : String
  jti : String
  payload : Claims
  expected : Expected
  window : Window
  scope : List String
  target : Target
  origin : Option String
  path : String
  bound : Bound

/-- `verify` up to its replay check. -/
def checkAssertion (runtime : Runtime) (verifier : Verifier)
    (request : Request) (clock : Clock) : Checked Assertion := do
  let (kid, trusted) ← selectKey runtime verifier request.token
  checkKey verifier trusted (truncate clock.verify)
  let expected ← expectations runtime verifier trusted request
  let payload ← decodeToken runtime verifier trusted expected request.token
    clock.decode
  checkParties trusted expected payload
  let origin ← checkOrigin runtime verifier trusted expected payload
  let window ← checkWindow payload
  let scope ← checkScope verifier trusted request payload
  let target ← checkTarget verifier trusted request
    (orElse origin expected.origin) payload
  let bound ← checkRequest runtime request payload
  match claim payload "jti" with
  | some (.str jti) =>
      if blank jti then
        throw (.unauthorized "invalid service identity replay id")
      return {
        kid, jti, payload, expected, window, scope, target, origin,
        path := request.path, bound }
  | _ => throw (.unauthorized "invalid service identity replay id")

/-- The last statement of `verify`: the contract of the principal wants texts
that are not empty. -/
def principal (assertion : Assertion) : Checked Principal :=
  match claim assertion.payload "sub",
      claim assertion.payload "deployment_id" with
  | some (.str sub), some (.str deploymentId) =>
      if assertion.expected.issuer == "" || sub == "" ||
          assertion.expected.audience == "" || deploymentId == "" ||
          assertion.jti == "" || assertion.path == "" ||
          assertion.kid == "" then
        .error (.unauthorized "invalid service identity claims")
      else .ok {
        iss := assertion.expected.issuer, sub,
        aud := assertion.expected.audience, deploymentId,
        enterpriseId := assertion.target.enterpriseId,
        tenantId := assertion.target.tenantId, scope := assertion.scope,
        iat := assertion.window.issuedAt, nbf := assertion.window.notBefore,
        exp := assertion.window.expiresAt, jti := assertion.jti,
        path := assertion.path, bodySha256 := assertion.bound.bodySha256,
        origin := assertion.origin, capability := assertion.target.capability,
        idempotencyKey := assertion.bound.idempotencyKey,
        kid := assertion.kid }
  | _, _ => .error (.unauthorized "invalid service identity claims")

end AiTeam.Identity
