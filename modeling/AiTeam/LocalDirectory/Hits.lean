/-
The texts of a search in a local directory: paths, what of a file a query
finds, and how many bytes a hit takes in the answer.
-/
import Mathlib.Data.List.Sort
import AiTeam.JsonText
import AiTeam.Text
import AiTeam.LocalDirectory.Store

namespace AiTeam.LocalDirectory

open AiTeam.Unicode (Text Bytes lit utf8 utf16 replaced bufferFrom)
open AiTeam.JsonText (quoteUnits)

/-- `normalize("NFKC").toLocaleLowerCase("zh-CN")` and
`localeCompare(_, "zh-CN")`. -/
structure Locale where
  fold : Text → Text
  compare : Text → Text → Int

/-! ### Names and paths -/

/-- What the host lets through: no NUL, slash or backslash, no dots alone. -/
def isPlainName (name : Text) : Bool :=
  !name.contains 0 && !name.contains 0x2F && !name.contains 0x5C &&
    name ≠ lit "." && name ≠ lit ".."

structure Entry where
  name : Text
  directory : Bool
  plain : isPlainName name = true
deriving DecidableEq

/-- `posix.join` of a path that it has made and a plain name. -/
def join (directory name : Text) : Text :=
  if name = [] then if directory = [] then lit "." else directory
  else if directory = [] || directory = lit "." then name
  else directory ++ lit "/" ++ name

/-- `posix.extname` of a plain name. -/
def extname (name : Text) : Text :=
  match name.reverse.findIdx? (· = 0x2E) with
  | none => []
  | some behind =>
      if behind + 1 = name.length then []
      else name.drop (name.length - (behind + 1))

/-- `toLowerCase` as far as it leads to a letter from a to z: of the capital
letters and the Kelvin sign. -/
def lowerLetter (c : Nat) : Nat :=
  if 0x41 ≤ c && c ≤ 0x5A then c + 0x20
  else if c = 0x212A then 0x6B
  else c

/-- `FORMATS`. -/
def formats : List Text :=
  [lit ".txt", lit ".md", lit ".markdown", lit ".csv", lit ".json", lit ".log"]

def isFormat (name : Text) : Bool :=
  formats.contains ((extname name).map lowerLetter)

/-! ### Queries -/

/-- `\s`. -/
def isSpace (c : Nat) : Bool :=
  (9 ≤ c && c ≤ 13) || (0x2000 ≤ c && c ≤ 0x200A) ||
    [0x20, 0xA0, 0x1680, 0x2028, 0x2029, 0x202F, 0x205F, 0x3000,
      0xFEFF].contains c

def isBlank (query : Text) : Bool := query.all isSpace

/-- The words of a folded query, each once. -/
def terms (locale : Locale) (query : Text) : List Text :=
  (((locale.fold query).splitOnP isSpace).filter fun word =>
    word ≠ []).eraseDups

/-- `normalizeWithMap`: every folded code point with the index of the one it
comes from. -/
def normalizeWithMap (locale : Locale) (text : Text) : List (Nat × Nat) :=
  text.zipIdx.flatMap fun point =>
    (locale.fold [point.1]).map fun folded => (folded, point.2)

structure Located where
  score : Nat
  offset : Nat
  snippet : Text
deriving DecidableEq

def termScore (name normalized term : Text) : Nat :=
  (if Text.occurs name term then 5 else 0) +
    if Text.occurs normalized term then 1 else 0

/-- The place in the original text where a term is found. -/
def anchor (mapped : List (Nat × Nat)) (term : Text) : Option Nat :=
  (Text.find (mapped.map Prod.fst) term 0).map fun index =>
    (mapped[index]?.map Prod.snd).getD 0

def locateHit (locale : Locale) (terms : List Text) (name text : Text) :
    Option Located :=
  let mapped := normalizeWithMap locale text
  let normalized := mapped.map Prod.fst
  if terms.all fun term =>
      Text.occurs name term || Text.occurs normalized term then
    let first := ((terms.filterMap (anchor mapped)).min?).getD 0
    let offset := first - 100
    some ⟨(terms.map (termScore name normalized)).sum, offset,
      Text.slice text offset 400⟩
  else none

/-! ### Hits -/

/-- `Hit`. -/
structure Hit where
  title : Text
  relativePath : Text
  contentVersion : String
  snippet : Text
  offset : Nat
  score : Nat
deriving DecidableEq

structure Candidate where
  hit : Hit
  resource : DirectoryResource
  authority : String
  bindingRevision : Nat
deriving DecidableEq

/-- The order of the candidates: by score, then by path. -/
def candidateLe (locale : Locale) (a b : Candidate) : Prop :=
  b.hit.score < a.hit.score ∨ (b.hit.score = a.hit.score ∧
    locale.compare a.hit.relativePath b.hit.relativePath ≤ 0)

instance (locale : Locale) : DecidableRel (candidateLe locale) := fun a b =>
  inferInstanceAs (Decidable (b.hit.score < a.hit.score ∨
    (b.hit.score = a.hit.score ∧
      locale.compare a.hit.relativePath b.hit.relativePath ≤ 0)))

/-- The best candidates with one more. -/
def addCandidate (locale : Locale) (limit : Nat)
    (candidates : List Candidate) (candidate : Candidate) : List Candidate :=
  ((candidates ++ [candidate]).insertionSort (candidateLe locale)).take limit

/-! ### Sizes -/

/-- `Buffer.byteLength`. -/
def byteLength (text : Text) : Nat := (utf8 (text.map replaced)).length

def textBytes (text : Text) : Nat := (bufferFrom (quoteUnits text)).length

def stringBytes (text : String) : Nat := textBytes (lit text)

def numberBytes (value : Nat) : Nat := (Nat.toDigits 10 value).length

/-- The bytes of an object that is not empty, from the bytes of its values. -/
def objectBytes (fields : List (String × Nat)) : Nat :=
  1 + (fields.map fun field => stringBytes field.1 + 2 + field.2).sum

def resourceBytes (resource : DirectoryResource) : Nat :=
  objectBytes [("directory_id", stringBytes resource.directoryId),
    ("tenant_id", stringBytes resource.tenantId),
    ("member_id", stringBytes resource.memberId),
    ("canonical_path", stringBytes resource.canonicalPath),
    ("display_name", stringBytes resource.displayName),
    ("root_identity", stringBytes resource.rootIdentity),
    ("revision", numberBytes resource.revision),
    ("created_at", stringBytes resource.createdAt),
    ("revoked_at", (resource.revokedAt.map stringBytes).getD 4)]

/-- The bytes of a citation's id: `localdir:` and a UUID, quoted. -/
def citationIdBytes : Nat := 47

/-- `Buffer.byteLength(JSON.stringify({ ...candidate, citation_id }))`. -/
def candidateBytes (candidate : Candidate) : Nat :=
  objectBytes [("title", textBytes candidate.hit.title),
    ("relative_path", textBytes candidate.hit.relativePath),
    ("content_version", stringBytes candidate.hit.contentVersion),
    ("snippet", textBytes candidate.hit.snippet),
    ("offset", numberBytes candidate.hit.offset),
    ("score", numberBytes candidate.hit.score),
    ("resource", resourceBytes candidate.resource),
    ("authority", stringBytes candidate.authority),
    ("bindingRevision", numberBytes candidate.bindingRevision),
    ("citation_id", citationIdBytes)]

def maxSearchOutputBytes : Nat := 32 * 1024

/-- The candidates that fit into the answer; the first one always does. -/
def withinOutput (outputBytes : Nat) : List Candidate → List Candidate
  | [] => []
  | candidate :: rest =>
      let size := candidateBytes candidate
      if 0 < outputBytes && maxSearchOutputBytes < outputBytes + size then []
      else candidate :: withinOutput (outputBytes + size) rest

end AiTeam.LocalDirectory
