/-
The tokens of Manager and its published keys as the Agent reads them
(`auth.ts`): the key set of a tenant, and what verifies a token.
-/
import Mathlib.Algebra.Order.Floor.Ring
import Mathlib.Data.Rat.Floor
import AiTeam.Table

namespace AiTeam.Jwks

/-- What comes from outside and is taken apart. -/
abbrev Text := List Char

/-- A decoded JSON value; a number that is not finite has no value. -/
inductive Json where
  | null
  | bool (value : Bool)
  | number (value : Option Rat)
  | str (value : String)
  | list (items : List Json)
  | object (fields : List (String × Json))

namespace Json

/-- `value[name]`, undefined unless the value is an object that has it. -/
def member (name : String) : Json → Option Json
  | .object fields => valueAt name fields
  | _ => none

def text : Option Json → Option String
  | some (.str value) => some value
  | _ => none

/-- The value is the string. -/
def isText (value : Option Json) (expected : String) : Bool :=
  text value == some expected

def finite : Option Json → Option Rat
  | some (.number value) => value
  | _ => none

def truthy : Option Json → Bool
  | none => false
  | some .null => false
  | some (.bool value) => value
  | some (.number value) => value != some 0
  | some (.str value) => value != ""
  | some (.list _) => true
  | some (.object _) => true

end Json

structure JwtJwk where
  kty : String
  alg : String
  kid : String
  n : String
  e : String
  use : Option String
deriving DecidableEq

/-- `JSON.parse`, base64url and the crypto of the runtime. -/
structure Runtime where
  parseJson : Text → Option Json
  decodeBase64Url : Text → Text
  createPublicKey : JwtJwk → Bool
  verify : JwtJwk → Text → Text → Bool

structure Options where
  issuer : String
  audience : String
deriving DecidableEq

structure AuthenticatedCaller where
  callerId : String
  accessToken : Text
  tenantId : String
  userId : String
  roles : List String
  claims : Json

/-- `String.prototype.trim` leaves nothing. -/
def blank (text : String) : Bool :=
  text.toList.all fun c =>
    let code := c.toNat
    (9 ≤ code && code ≤ 13) || code == 32 || code == 160 || code == 5760 ||
      (8192 ≤ code && code ≤ 8202) || code == 8232 || code == 8233 ||
      code == 8239 || code == 8287 || code == 12288 || code == 65279

/-- `token.split(".")`. -/
def parts (token : Text) : List Text := token.splitOn '.'

/-! ### The key set -/

def publicJwkMembers : List String := ["kty", "alg", "kid", "n", "e", "use"]

def privateJwkMembers : List String :=
  ["d", "p", "q", "dp", "dq", "qi", "oth"]

def onlyPublicKeys : String :=
  "JWT JWKS must contain only RSA RS256 public keys"

/-- One key of the document. -/
def canonicalKey (runtime : Runtime) (seen : List String) (rawKey : Json) :
    Except String JwtJwk :=
  match rawKey with
  | .object fields =>
      if fields.any (fun field => !publicJwkMembers.contains field.1) ||
          fields.any fun field => privateJwkMembers.contains field.1 then
        .error onlyPublicKeys
      else
        let use := rawKey.member "use"
        match Json.text (rawKey.member "n"), Json.text (rawKey.member "e") with
        | some n, some e =>
            if !Json.isText (rawKey.member "kty") "RSA" ||
                !Json.isText (rawKey.member "alg") "RS256" ||
                !(use.isNone || Json.isText use "sig") || n == "" ||
                e == "" then
              .error onlyPublicKeys
            else
              match Json.text (rawKey.member "kid") with
              | some kid =>
                  if blank kid || seen.contains kid then
                    .error ("JWT JWKS must not contain duplicate or empty " ++
                      "kid values")
                  else
                    let key : JwtJwk :=
                      ⟨"RSA", "RS256", kid, n, e, use.map fun _ => "sig"⟩
                    if runtime.createPublicKey key then .ok key
                    else .error "JWT JWKS contains an invalid RSA public key"
              | none =>
                  .error "JWT JWKS must not contain duplicate or empty kid values"
        | _, _ => .error onlyPublicKeys
  | _ => .error onlyPublicKeys

def canonicalKeys (runtime : Runtime) (seen : List String) :
    List Json → Except String (List JwtJwk)
  | [] => .ok []
  | rawKey :: rest => do
      let key ← canonicalKey runtime seen rawKey
      let keys ← canonicalKeys runtime (key.kid :: seen) rest
      return key :: keys

/-- `parsePublicJwks`. -/
def parsePublicJwks (runtime : Runtime) (raw : Text) :
    Except String (List JwtJwk) :=
  match runtime.parseJson raw with
  | none => .error "JWT JWKS must be valid JSON"
  | some (.object fields) =>
      if fields.any fun field => field.1 != "keys" then
        .error "JWT JWKS must contain only the keys member"
      else
        match valueAt "keys" fields with
        | some (.list (first :: rest)) =>
            canonicalKeys runtime [] (first :: rest)
        | _ => .error "JWT JWKS must contain at least one key"
  | some _ => .error "JWT JWKS must contain only the keys member"

/-! ### A token -/

/-- `audienceContains`. -/
def audienceContains (audience : Option Json) (expected : String) : Bool :=
  match audience with
  | some (.str value) => value == expected
  | some (.list items) =>
      items.any fun item => Json.isText (some item) expected
  | _ => false

/-- The checks of the claims at a time in seconds, with no clock skew. -/
def checkClaims (options : Options) (token : Text) (claims : Json)
    (now : Int) : Except String AuthenticatedCaller :=
  match Json.finite (claims.member "exp"),
      Json.finite (claims.member "iat") with
  | none, _ => .error "JWT is expired"
  | some exp, iat =>
      if exp ≤ now then .error "JWT is expired"
      else match iat with
      | none => .error "JWT issued-at claim is missing or invalid"
      | some iat =>
          let nbf := claims.member "nbf"
          if (now : Rat) < iat then
            .error "JWT issued-at claim is in the future"
          else if nbf.isSome && (Json.finite nbf).isNone then
            .error "JWT not-before claim is invalid"
          else if !Json.isText (claims.member "iss") options.issuer then
            .error "JWT issuer mismatch"
          else if !audienceContains (claims.member "aud") options.audience then
            .error "JWT audience mismatch"
          else match Json.text (claims.member "enterprise_id"),
              claims.member "roles" with
          | some _, some (.list roles) =>
              if (Json.finite nbf).any fun nbf => decide ((now : Rat) < nbf) then
                .error "JWT is not active"
              else
                let userId := ((Json.text (claims.member "user_id")).or
                  (Json.text (claims.member "sub"))).getD ""
                match Json.text (claims.member "tenant_id") with
                | some tenantId =>
                    if userId == "" || blank tenantId then
                      .error "JWT identity claims are missing"
                    else
                      .ok {
                        callerId := userId, accessToken := token, tenantId
                        userId
                        roles := roles.filterMap fun role =>
                          Json.text (some role)
                        claims }
                | none => .error "JWT identity claims are missing"
          | _, _ => .error "JWT required claims are missing"

/-- `keys.get(kid)`. -/
def keyOf (keys : List JwtJwk) (kid : String) : Option JwtJwk :=
  lookup JwtJwk.kid kid keys

/-- `verifyJwt`, at a time of Manager's clock in milliseconds. -/
def verifyJwt (runtime : Runtime) (options : Options) (token : Text)
    (keys : List JwtJwk) (managerNow : Rat) :
    Except String AuthenticatedCaller :=
  match parts token with
  | [first, second, third] =>
      match runtime.parseJson (runtime.decodeBase64Url first),
          runtime.parseJson (runtime.decodeBase64Url second) with
      | some header, some claims =>
          if !Json.isText (header.member "alg") "RS256" ||
              !Json.truthy (header.member "kid") then
            .error "Unsupported JWT signing algorithm"
          else
            match (Json.text (header.member "kid")).bind (keyOf keys) with
            | none => .error "Unknown JWT key"
            | some jwk =>
                if !runtime.verify jwk (first ++ '.' :: second) third then
                  .error "Invalid JWT signature"
                else checkClaims options token claims ⌊managerNow / 1000⌋
      | _, _ => .error "Malformed JWT payload"
  | _ => .error "Malformed JWT"

/-! ### What selects the key -/

def isHex (c : Char) : Bool :=
  ('0' ≤ c && c ≤ '9') || ('a' ≤ c && c ≤ 'f') || ('A' ≤ c && c ≤ 'F')

/-- The expression `TENANT`. -/
def isTenant (text : String) : Bool :=
  let groups := text.toList.splitOn '-'
  groups.map List.length == [8, 4, 4, 4, 12] &&
    groups.all fun group => group.all isHex

/-- `/^[1-9][0-9]{0,9}$/`. -/
def isSerial : List Char → Bool
  | [] => false
  | first :: rest =>
      '1' ≤ first && first ≤ '9' && rest.length ≤ 9 &&
        rest.all fun c => '0' ≤ c && c ≤ '9'

def scopedKid (kid tenant : String) : Bool :=
  let scope := tenant.toList ++ [':']
  scope.isPrefixOf kid.toList && isSerial (kid.toList.drop scope.length)

/-- The length in UTF-16 code units. -/
def utf16Length (text : Text) : Nat :=
  (text.map fun c => if c.toNat < 65536 then 1 else 2).sum

/-- `selector`: the tenant and the key a token names. -/
def selector (runtime : Runtime) (token : Text) :
    Except String (String × String) :=
  if 16384 < utf16Length token then .error "Invalid JWT"
  else match parts token with
  | [first, second, _] =>
      match runtime.parseJson (runtime.decodeBase64Url first),
          runtime.parseJson (runtime.decodeBase64Url second) with
      | some header, some claims =>
          match Json.text (claims.member "tenant_id"),
              Json.text (header.member "kid") with
          | some tenant, some kid =>
              if !Json.isText (header.member "alg") "RS256" ||
                  !isTenant tenant || !scopedKid kid tenant then
                .error "Invalid JWT tenant/key scope"
              else .ok (tenant, kid)
          | _, _ => .error "Invalid JWT tenant/key scope"
      | _, _ => .error "Unexpected token in JSON"
  | _ => .error "Malformed JWT"

/-! ### The key a token is accepted with -/

/-- A token that verifies names a tenant and a key, and the claims hold. -/
theorem verifyJwt_ok {runtime : Runtime} {options : Options} {token : Text}
    {keys : List JwtJwk} {managerNow : Rat} {caller : AuthenticatedCaller}
    (h : verifyJwt runtime options token keys managerNow = .ok caller) :
    ∃ first second third header claims kid key,
      parts token = [first, second, third] ∧
      runtime.parseJson (runtime.decodeBase64Url first) = some header ∧
      runtime.parseJson (runtime.decodeBase64Url second) = some claims ∧
      Json.text (header.member "kid") = some kid ∧
      keyOf keys kid = some key ∧
      runtime.verify key (first ++ '.' :: second) third = true ∧
      checkClaims options token claims ⌊managerNow / 1000⌋ = .ok caller := by
  unfold verifyJwt at h
  split at h
  · next first second third hparts =>
      split at h
      · next header claims hheader hclaims =>
          split at h
          · exact nomatch h
          · split at h
            · exact nomatch h
            · next key hkey =>
                obtain ⟨kid, hkid, hfound⟩ := Option.bind_eq_some_iff.mp hkey
                split at h
                · exact nomatch h
                · next hverify =>
                    exact ⟨first, second, third, header, claims, kid, key,
                      hparts, hheader, hclaims, hkid, hfound,
                      by simpa using hverify, h⟩
      · exact nomatch h
  · exact nomatch h

/-- The caller belongs to the tenant its claims name. -/
theorem checkClaims_ok {options : Options} {token : Text} {claims : Json}
    {now : Int} {caller : AuthenticatedCaller}
    (h : checkClaims options token claims now = .ok caller) :
    Json.text (claims.member "tenant_id") = some caller.tenantId ∧
      caller.accessToken = token := by
  unfold checkClaims at h
  split at h
  · exact nomatch h
  · split at h
    · exact nomatch h
    · split at h
      · exact nomatch h
      · simp only at h
        repeat' split at h
        all_goals try contradiction
        cases h
        exact ⟨by assumption, rfl⟩

theorem selector_ok {runtime : Runtime} {token : Text} {tenant kid : String}
    (h : selector runtime token = .ok (tenant, kid)) :
    ∃ first second third header claims, parts token = [first, second, third] ∧
      runtime.parseJson (runtime.decodeBase64Url first) = some header ∧
      runtime.parseJson (runtime.decodeBase64Url second) = some claims ∧
      Json.text (claims.member "tenant_id") = some tenant ∧
      Json.text (header.member "kid") = some kid := by
  unfold selector at h
  split at h
  · exact nomatch h
  · split at h
    · next first second third hparts =>
        split at h
        · next header claims hheader hclaims =>
            split at h
            · next htenant hkid =>
                split at h
                · exact nomatch h
                · cases h
                  exact ⟨first, second, third, header, claims, hparts, hheader,
                    hclaims, htenant, hkid⟩
            · exact nomatch h
        · exact nomatch h
    · exact nomatch h

end AiTeam.Jwks
