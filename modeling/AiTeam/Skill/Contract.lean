/-
The signed skill packages as Manager builds them: the text-only contract
(`shared/contracts/skill.py`), the catalog package
(`custom_skill_package.py`) and the signer (`skill_signing.py`).
-/
import AiTeam.Base64
import AiTeam.JsonText
import AiTeam.Text

namespace AiTeam.Skill

open AiTeam.Unicode AiTeam.JsonText

/-- What Python raises: a `ValueError` with its text, or the refusal to encode
a surrogate. -/
inductive Refusal where
  | value (message : String)
  | unicode
deriving DecidableEq

structure SkillFile where
  path : Text
  content : Text
  contentHash : Text
deriving DecidableEq

structure SkillPackage where
  skillId : Text
  version : Text
  contentHash : Text
  displayName : Text
  description : Text
  files : List SkillFile
deriving DecidableEq

structure SignedSkillPackage where
  package : SkillPackage
  tenantId : Text
  memberId : Text
  keyId : Text
  algorithm : Text
  signature : Text
deriving DecidableEq

/-! ### Hashes -/

/-- SHA-256 of the runtimes. -/
structure Sha256 where
  digest : Bytes → Bytes
  digest_length : ∀ bytes, (digest bytes).length = 32

/-- `hexdigest()`. -/
def hex (bytes : Bytes) : Text :=
  bytes.flatMap fun b => [hexDigit (b.toNat / 16), hexDigit (b.toNat % 16)]

/-- `sha256(bytes).hexdigest()[:16]`. -/
def Sha256.hex16 (sha : Sha256) (bytes : Bytes) : Text :=
  (hex (sha.digest bytes)).take 16

def encoded (text : Text) : Except Refusal Bytes :=
  match encode text with
  | some bytes => .ok bytes
  | none => .error .unicode

/-- `_sha16`, `derive_file_hash`. -/
def sha16 (sha : Sha256) (text : Text) : Except Refusal Text :=
  (encoded text).map sha.hex16

/-! ### Paths and segments -/

def slash : Nat := 0x2F

def backslash : Nat := 0x5C

/-- `[A-Za-z0-9._-]`. -/
def isSegmentChar (c : Nat) : Bool :=
  (65 ≤ c && c ≤ 90) || (97 ≤ c && c ≤ 122) || (48 ≤ c && c ≤ 57) ||
    c == 46 || c == 95 || c == 45

/-- The same with the slash. -/
def isPathChar (c : Nat) : Bool := isSegmentChar c || c == slash

/-- `path.split("/")`. -/
def pathParts (path : Text) : List Text := path.splitOn slash

def normalizeSkillFilePath (path : Text) : Except Refusal Text :=
  if path.isEmpty || path.contains backslash || (lit "/").isPrefixOf path ||
      (lit "./").isPrefixOf path || Text.occurs path (lit "//") ||
      !path.all isPathChar then
    .error (.value "skill file path must be canonical POSIX text")
  else if (pathParts path).any fun part =>
      part.isEmpty || part == lit "." || part == lit ".." then
    .error (.value
      "skill file path must not contain traversal or empty segments")
  else if path != lit "SKILL.md" &&
      (!(lit "references/").isPrefixOf path ||
        !(lit ".md").isSuffixOf path) then
    .error (.value "only SKILL.md and references/*.md are accepted")
  else .ok path

/-- `_safe_segment`. -/
def safeSegmentPy (value : Text) (name : String) : Except Refusal Unit :=
  if value.isEmpty || !value.all isSegmentChar ||
      [lit ".", lit "..", lit ".aiteam-keyring"].contains value then
    .error (.value ("invalid " ++ name))
  else .ok ()

/-! ### Packages -/

namespace SkillFile

def validateFile (sha : Sha256) (file : SkillFile) : Except Refusal Unit := do
  let _ ← normalizeSkillFilePath file.path
  if file.contentHash = (← sha16 sha file.content) then .ok ()
  else .error (.value "skill file content_hash mismatch")

end SkillFile

/-- The order of Python's pairs. -/
def pairLe (a b : Text × Text) : Prop :=
  if a.1 = b.1 then textLe a.2 b.2 = true else textLe a.1 b.1 = true

instance : DecidableRel pairLe := fun a b =>
  inferInstanceAs (Decidable
    (if a.1 = b.1 then textLe a.2 b.2 = true else textLe a.1 b.1 = true))

/-- The files as a list of pairs. -/
def filesJson (files : List (Text × Text)) : Json :=
  .list (files.map fun file => .list [.str file.1, .str file.2])

namespace SkillPackage

def computeContentHash (sha : Sha256) (package : SkillPackage) :
    Except Refusal Text := do
  let pairs ← package.files.mapM fun file => do
    return (← normalizeSkillFilePath file.path, file.content)
  let normalized := pairs.insertionSort pairLe
  if (normalized.map Prod.fst).dedup.length != normalized.length then
    .error (.value "duplicate skill file path")
  else (encoded (write quote (filesJson normalized))).map sha.hex16

def validatePackage (sha : Sha256) (package : SkillPackage) :
    Except Refusal Unit := do
  safeSegmentPy package.skillId "skill_id"
  safeSegmentPy package.version "version"
  if package.files.isEmpty ||
      !package.files.any fun file => file.path == lit "SKILL.md" then
    .error (.value "skill package requires SKILL.md")
  else if package.contentHash.isEmpty then .ok ()
  else if package.contentHash = (← package.computeContentHash sha) then .ok ()
  else .error (.value "skill package content_hash mismatch")

/-- What building the model checks: every file, then the package. -/
def validate (sha : Sha256) (package : SkillPackage) : Except Refusal Unit := do
  package.files.forM (·.validateFile sha)
  package.validatePackage sha

def withComputedHash (sha : Sha256) (package : SkillPackage) :
    Except Refusal SkillPackage := do
  return { package with contentHash := ← package.computeContentHash sha }

end SkillPackage

/-- A file of the catalog row. -/
structure CatalogFile where
  path : Text
  content : Text
deriving DecidableEq

/-- `len(content.encode("utf-8"))`, summed. -/
def contentSize : List CatalogFile → Except Refusal Nat
  | [] => .ok 0
  | file :: rest => do
      return (← encoded file.content).length + (← contentSize rest)

/-- `SkillFile(path=…, content=…, content_hash=derive_file_hash(…))`. -/
def catalogFiles (sha : Sha256) : List CatalogFile →
    Except Refusal (List SkillFile)
  | [] => .ok []
  | file :: rest => do
      let built : SkillFile :=
        ⟨file.path, file.content, ← sha16 sha file.content⟩
      built.validateFile sha
      return built :: (← catalogFiles sha rest)

/-- `frontmatter` is the check of the YAML head of `SKILL.md`. -/
def catalogPackage (sha : Sha256) (frontmatter : Text → Except Refusal Unit)
    (skillId version : Text) (files : List CatalogFile)
    (contentHash displayName : Text) : Except Refusal SkillPackage :=
  if files.length < 1 || 64 < files.length then
    .error (.value "a package requires 1–64 files")
  else do
    if 1024 * 1024 < (← contentSize files) then
      .error (.value "skill package exceeds 1 MiB")
    else
      let draft : SkillPackage :=
        ⟨skillId, version, contentHash, displayName, [],
          ← catalogFiles sha files⟩
      draft.validatePackage sha
      let package ← draft.withComputedHash sha
      match package.files.find? fun file => file.path == lit "SKILL.md" with
      -- the validation has found the file
      | none => .error (.value "invalid frontmatter")
      | some file =>
          frontmatter file.content
          return package

/-! ### Canonical bytes -/

/-- `model_dump(mode="json")`. -/
def SkillFile.json (file : SkillFile) : Json :=
  .object [(lit "path", .str file.path), (lit "content", .str file.content),
    (lit "content_hash", .str file.contentHash)]

def SkillPackage.json (package : SkillPackage) : Json :=
  .object [(lit "skill_id", .str package.skillId),
    (lit "version", .str package.version),
    (lit "content_hash", .str package.contentHash),
    (lit "display_name", .str package.displayName),
    (lit "description", .str package.description),
    (lit "files", .list (package.files.map SkillFile.json))]

def signedJson (package : SkillPackage) (tenantId memberId : Text) : Json :=
  .object [(lit "member_id", .str memberId), (lit "package", package.json),
    (lit "tenant_id", .str tenantId)]

def canonicalSkillPackageBytes (package : SkillPackage)
    (tenantId memberId : Text) : Except Refusal Bytes :=
  encoded (dumps (signedJson package tenantId memberId))

/-! ### The signer -/

inductive KeyStatus where
  | current
  | next
  | revoked
  | expired
deriving DecidableEq

structure SkillSigningKeyMetadata where
  keyId : Text
  publicKey : Text
  algorithm : Text
  status : KeyStatus
  notBefore : Option Text
  expiresAt : Option Text
  revokedAt : Option Text
deriving DecidableEq

/-- The signature library of both sides. -/
structure Ed25519 where
  PrivateKey : Type
  PublicKey : Type
  sign : PrivateKey → Bytes → Bytes
  publicKey : PrivateKey → PublicKey
  publicBytes : PublicKey → Bytes
  createPublicKey : Bytes → Option PublicKey
  isEd25519 : PublicKey → Bool
  verify : PublicKey → Bytes → Bytes → Bool

/-- What both sides rely on: a published key is read back, and a signature of
64 bytes verifies under it. -/
structure Ed25519.Correct (ed : Ed25519) : Prop where
  createPublicKey_publicBytes : ∀ key,
    ed.createPublicKey (ed.publicBytes (ed.publicKey key)) =
      some (ed.publicKey key)
  verify_sign : ∀ key message,
    ed.verify (ed.publicKey key) message (ed.sign key message) = true
  sign_length : ∀ key message, (ed.sign key message).length = 64

/-- The current key and what the signer publishes of it. -/
structure SkillPackageSigner (ed : Ed25519) where
  privateKey : ed.PrivateKey
  current : SkillSigningKeyMetadata
  keyId_ne : current.keyId ≠ []
  publicKey_eq : current.publicKey =
    Base64.encode (ed.publicBytes (ed.publicKey privateKey))

/-- `_is_usable`; `instant` is `datetime.fromisoformat`. -/
def isUsable (instant : Text → Int) (metadata : SkillSigningKeyMetadata)
    (now : Int) : Bool :=
  if metadata.status = .revoked || metadata.status = .expired then false
  else if metadata.notBefore.any fun t => !t.isEmpty && now < instant t then
    false
  else if metadata.expiresAt.any fun t => !t.isEmpty && instant t ≤ now then
    false
  else true

/-- `SkillPackageSigner.sign`. -/
def sign {ed : Ed25519} (sha : Sha256) (instant : Text → Int)
    (signer : SkillPackageSigner ed) (package : SkillPackage)
    (tenantId memberId : Text) (now : Int) :
    Except Refusal SignedSkillPackage := do
  if package.contentHash.isEmpty then
    .error (.value "cannot sign a package with an invalid content hash")
  else if package.contentHash != (← package.computeContentHash sha) then
    .error (.value "cannot sign a package with an invalid content hash")
  else if tenantId.isEmpty || memberId.isEmpty then
    .error (.value "skill signing scope is required")
  else if !isUsable instant signer.current now then
    .error (.value "current skill signing key is not usable")
  else
    let message ← canonicalSkillPackageBytes package tenantId memberId
    return ⟨package, tenantId, memberId, signer.current.keyId, lit "Ed25519",
      Base64.encode (ed.sign signer.privateKey message)⟩

end AiTeam.Skill
