/-
The verification of signed skill packages by the Agent (`skills.ts`).
-/
import AiTeam.Skill.Contract

namespace AiTeam.Skill

open AiTeam.Unicode AiTeam.JsonText

/-- `node:crypto` and the dates of the runtime. -/
structure Node where
  ed : Ed25519
  sha : Sha256
  /-- `new Date(text).getTime()` where it is finite. -/
  dateOf : Text → Option Int
  /-- `new Date(instant).toISOString()`. -/
  isoOf : Int → Text

structure SkillVerificationOptions where
  publicKey : Option Text
  keyId : Option Text
  publicKeys : Option (List SkillSigningKeyMetadata)
  tenantId : Option Text
  memberId : Option Text
  /-- The clock the options name, or the present one. -/
  now : Option Int
  offlineTtlSeconds : Option Nat
deriving DecidableEq

/-! ### Segments, paths and hashes -/

/-- `sha16` of a string that may hold a surrogate without its half. -/
def sha16Units (sha : Sha256) (content : Text) : Text :=
  sha.hex16 (bufferFrom content)

def safeSegment (value : Text) (name : String) : Except String Unit :=
  if value.isEmpty || value == lit "." || value == lit ".." ||
      value == lit ".aiteam-keyring" ||
      value.any (fun c => c == backslash || c == slash) ||
      !value.all isSegmentChar then
    .error ("invalid " ++ name)
  else .ok ()

def canonicalPath (path : Text) : Except String Text :=
  if path.isEmpty || path.contains backslash || (lit "/").isPrefixOf path ||
      (lit "./").isPrefixOf path || Text.occurs path (lit "//") ||
      !path.all isPathChar then
    .error "non-canonical skill path"
  else if (pathParts path).any fun part =>
      part.isEmpty || part == lit "." || part == lit ".." then
    .error "unsafe skill path"
  else if path != lit "SKILL.md" &&
      (!(lit "references/").isPrefixOf path ||
        !(lit ".md").isSuffixOf path) then
    .error "only SKILL.md and references/*.md are accepted"
  else .ok path

/-- The order of the paths. -/
def pathLe (a b : Text × Text) : Prop := textLe a.1 b.1 = true

instance : DecidableRel pathLe := fun a b =>
  inferInstanceAs (Decidable (textLe a.1 b.1 = true))

def packageHash (sha : Sha256) (pkg : SkillPackage) : Except String Text := do
  let pairs ← pkg.files.mapM fun file => do
    return (← canonicalPath file.path, file.content)
  let files := pairs.insertionSort pathLe
  return sha.hex16 (bufferFrom (write quoteUnits (filesJson files)))

def canonicalSignedSkillPackageBytes (pkg : SkillPackage)
    (tenantId memberId : Text) : Bytes :=
  bufferFrom (stringify (signedJson pkg tenantId memberId))

/-! ### Keys -/

def verificationNow (options : SkillVerificationOptions) :
    Except String Int :=
  match options.now with
  | some now => .ok now
  | none => .error "invalid skill signing key clock"

def parseOptionalDate (node : Node) (value : Option Text) (name : String) :
    Except String (Option Int) :=
  match value with
  | none => .ok none
  | some [] => .ok none
  | some text =>
      match node.dateOf text with
      | some instant => .ok (some instant)
      | none => .error ("invalid skill signing key " ++ name)

/-- The key text is the base64 of an Ed25519 key. -/
def isPublicKey (node : Node) (publicKey : Text) : Bool :=
  let decoded := Base64.decode publicKey
  !decoded.isEmpty && Base64.encode decoded == publicKey &&
    (node.ed.createPublicKey decoded).any node.ed.isEd25519

def normalizeSkillSigningKeyMetadata (node : Node)
    (raw : SkillSigningKeyMetadata) :
    Except String SkillSigningKeyMetadata :=
  if raw.keyId.isEmpty || 200 < raw.keyId.length then
    .error "invalid skill signing key id"
  else if raw.algorithm != lit "Ed25519" then
    .error "skill signing key algorithm must be Ed25519"
  else if raw.status != .revoked && raw.publicKey.isEmpty then
    .error "invalid skill signing public key metadata"
  else if !raw.publicKey.isEmpty && !isPublicKey node raw.publicKey then
    .error "invalid skill signing public key metadata"
  else do
    let _ ← parseOptionalDate node raw.notBefore "not_before"
    let _ ← parseOptionalDate node raw.expiresAt "expires_at"
    let _ ← parseOptionalDate node raw.revokedAt "revoked_at"
    return raw

def normalizeKeySet (node : Node) (keys : List SkillSigningKeyMetadata) :
    Except String (List SkillSigningKeyMetadata) := do
  let normalized ← keys.mapM (normalizeSkillSigningKeyMetadata node)
  if (normalized.map (·.keyId)).dedup.length != normalized.length then
    .error "duplicate skill signing key id"
  else return normalized

def usableKey (node : Node) (key : SkillSigningKeyMetadata) (now : Int) :
    Except String Bool :=
  if key.status = .revoked || key.status = .expired then .ok false
  else do
    let notBefore ← parseOptionalDate node key.notBefore "not_before"
    let expiresAt ← parseOptionalDate node key.expiresAt "expires_at"
    let revokedAt ← parseOptionalDate node key.revokedAt "revoked_at"
    return notBefore.all (· ≤ now) && expiresAt.all (now < ·) &&
      revokedAt.all (now < ·)

/-- `!options.keyId`: neither there nor empty. -/
def given (text : Option Text) : Option Text :=
  text.filter fun t => !t.isEmpty

def keyForEnvelope (node : Node) (envelope : SignedSkillPackage)
    (options : SkillVerificationOptions) (now : Int) : Except String Text :=
  if envelope.keyId.isEmpty then .error "invalid skill signature envelope"
  else
    match options.publicKeys with
    | some keys => do
        let normalized ← normalizeKeySet node keys
        match normalized.find? fun item => item.keyId == envelope.keyId with
        | none => .error "unknown skill signing key id"
        | some key =>
            if !(← usableKey node key now) then
              .error "skill signing key is revoked or expired"
            else return key.publicKey
    | none =>
        match given options.keyId with
        | none => .error "skill signing key id is not configured"
        | some keyId =>
            if envelope.keyId != keyId then
              .error "skill signing key id mismatch"
            else
              match given options.publicKey with
              | none => .error "skill signing public key is not configured"
              | some publicKey => .ok publicKey

/-! ### The envelope -/

/-- The files one after the other, with the paths seen so far. -/
def checkFiles (sha : Sha256) : List Text → List SkillFile →
    Except String (List Text)
  | seen, [] => .ok seen
  | seen, file :: rest => do
      let path ← canonicalPath file.path
      if seen.contains path then .error "duplicate skill file path"
      else if file.contentHash != sha16Units sha file.content then
        .error "skill file hash mismatch"
      else checkFiles sha (path :: seen) rest

/-- The bytes of the signature. -/
def signatureBytes (signature : Text) : Except String Bytes :=
  if !Base64.isEncoding signature || signature.length % 4 != 0 then
    .error "invalid skill signature encoding"
  else
    let bytes := Base64.decode signature
    if bytes.isEmpty || Base64.encode bytes != signature then
      .error "invalid skill signature encoding"
    else .ok bytes

/-- The checks of the package itself. -/
def checkPackage (sha : Sha256) (pkg : SkillPackage) : Except String Unit := do
  safeSegment pkg.skillId "skill_id"
  safeSegment pkg.version "version"
  let seen ← checkFiles sha [] pkg.files
  if !seen.contains (lit "SKILL.md") then
    .error "skill package hash mismatch"
  else if pkg.contentHash != (← packageHash sha pkg) then
    .error "skill package hash mismatch"
  else .ok ()

def verifySignedSkillPackage (node : Node) (envelope : SignedSkillPackage)
    (options : SkillVerificationOptions) : Except String SignedSkillPackage :=
  if envelope.algorithm != lit "Ed25519" then
    .error "invalid skill signature envelope"
  else if options.tenantId.any (envelope.tenantId != ·) then
    .error "skill package tenant mismatch"
  else if options.memberId.any (envelope.memberId != ·) then
    .error "skill package member mismatch"
  else do
    let now ← verificationNow options
    let selectedPublicKey ← keyForEnvelope node envelope options now
    checkPackage node.sha envelope.package
    let signature ← signatureBytes envelope.signature
    match node.ed.createPublicKey (Base64.decode selectedPublicKey) with
    | none => .error "invalid skill signing public key"
    | some publicKey =>
        if !node.ed.verify publicKey
            (canonicalSignedSkillPackageBytes envelope.package
              envelope.tenantId envelope.memberId) signature then
          .error "skill signature verification failed"
        else return envelope

end AiTeam.Skill
