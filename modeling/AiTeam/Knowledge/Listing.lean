/-
The listing of a LightRAG workspace, as the Manager reads it: each page is
checked against what it says about itself before its records count.
-/
import Mathlib.Data.List.DropRight
import Mathlib.Data.List.Sort
import AiTeam.Paging
import AiTeam.Rag.Payload

namespace AiTeam.Knowledge

open AiTeam.Rag (Json isSpace present)

def maxPaginatedPages : Nat := 32
def maxPaginatedPageSize : Nat := 200
def maxProbeIdChars : Nat := 1024
def maxAliasCount : Nat := 32

/-! ### Records -/

/-- `str.strip`. -/
def strip (value : String) : String :=
  String.ofList ((value.toList.dropWhile isSpace).rdropWhile isSpace)

/-- `_valid_document_alias` of a string. -/
def validDocumentAlias (value : String) : Bool :=
  value != "" && value == strip value && value.length ≤ maxProbeIdChars &&
    !value.toList.any fun char =>
      char == '\x00' || char == '\r' || char == '\n'

/-- A field that is a valid alias. -/
def aliasField (name : String) (source : Json) : Option String :=
  match source.field name with
  | some (.str value) => if validDocumentAlias value then some value else none
  | _ => none

/-- The part of `RagDocumentInfo` that says which document a record is. -/
structure DocumentInfo where
  upstreamDocumentId : String
  filePath : String
  isDuplicate : Bool
  originalDocumentId : Option String
deriving DecidableEq

def isObject : Json → Bool
  | .object _ => true
  | _ => false

/-- The metadata of a record, when it is an object. -/
def metadata (document : Json) : Option Json :=
  (document.field "metadata").filter isObject

/-- A source names no workspace, or the one that is listed. -/
def scopedTo (workspace : String) (source : Json) : Bool :=
  ["workspace", "workspace_id"].all fun name =>
    match present (source.field name) with
    | none => true
    | some (.str value) => validDocumentAlias value && value == workspace
    | some _ => false

def isTrue : Option Json → Bool
  | some (.bool true) => true
  | _ => false

/-- `_document_info`; none raises. -/
def documentInfo (workspace : String) (document : Json) :
    Option DocumentInfo := do
  let documentId ← aliasField "id" document
  let filePath ← aliasField "file_path" document
  guard (scopedTo workspace document && (metadata document).all
    (scopedTo workspace))
  let duplicateSource := (metadata document).getD document
  let duplicate := isTrue (duplicateSource.field "is_duplicate")
  some
    { upstreamDocumentId := documentId
      filePath := filePath
      isDuplicate := duplicate
      originalDocumentId :=
        if duplicate then aliasField "original_doc_id" duplicateSource
        else none }

/-! ### Pages -/

/-- A field that may be absent or null and else is an integer. -/
def intField (name : String) (source : Json) : Option (Option Int) :=
  match present (source.field name) with
  | none => some none
  | some (.int value) => some (some value)
  | some _ => none

def boolField (name : String) (source : Json) : Option (Option Bool) :=
  match present (source.field name) with
  | none => some none
  | some (.bool value) => some (some value)
  | some _ => none

def listField (name : String) (source : Json) : Option (List Json) :=
  match source.field name with
  | some (.list items) => some items
  | _ => none

/-- The page size has a default only where it is absent. -/
def responsePageSize (pagination : Json) : Option Int :=
  match pagination.field "page_size" with
  | none => some maxPaginatedPageSize
  | some (.int value) => some value
  | some _ => none

def expectedPages (totalCount responsePageSize : Int) : Int :=
  if totalCount = 0 then 0
  else (totalCount + responsePageSize - 1) / responsePageSize

/-- Whether another page follows, from what the page reports; none where it
contradicts itself. -/
def moreAfter (page : Nat) (responsePageSize : Int) (read : Nat)
    (totalPages totalCount : Option Int) (hasNext : Option Bool) :
    Option Bool :=
  match totalPages, totalCount, hasNext with
  | some totalPages, _, hasNext =>
    let more := decide ((page : Int) < totalPages)
    if hasNext.all (· == more) then some more else none
  | none, some totalCount, hasNext =>
    let more := decide (page * responsePageSize < totalCount)
    if hasNext.all (· == more) then some more else none
  | none, none, some hasNext => some hasNext
  | none, none, none => some (decide ((read : Int) = responsePageSize))

/-- The records of a page and whether another one follows; none raises. -/
def readPage (workspace : String) (page : Nat) (payload : Json) :
    Option (List DocumentInfo × Bool) := do
  let documents ← listField "documents" payload
  let pagination ← (payload.field "pagination").filter isObject
  let responsePage ← intField "page" pagination
  guard (responsePage.all (· == (page : Int)))
  let size ← responsePageSize pagination
  guard (1 ≤ size && size ≤ (maxPaginatedPageSize : Int) &&
    (documents.length : Int) ≤ size)
  let records ← documents.mapM (documentInfo workspace)
  let totalPages ← intField "total_pages" pagination
  guard (totalPages.all fun pages =>
    0 ≤ pages && pages ≤ (maxPaginatedPages : Int))
  let totalCount ← intField "total_count" pagination
  guard (totalCount.all (0 ≤ ·))
  let hasNext ← boolField "has_next" pagination
  guard (totalPages.all fun pages => totalCount.all fun count =>
    pages == expectedPages count size)
  let more ← moreAfter page size documents.length totalPages totalCount hasNext
  guard !(page == maxPaginatedPages && more)
  some (records, more)

/-- `_paginated_documents` from a page on; `request` is the payload of a page,
none where the request fails, and `left` the pages that may still be read. -/
def paginatedDocuments (workspace : String) (request : Nat → Option Json) :
    (left page : Nat) → Option (List DocumentInfo)
  | 0, _ => none
  | left + 1, page => do
    let payload ← request page
    let (records, more) ← readPage workspace page payload
    if more then
      let rest ← paginatedDocuments workspace request left (page + 1)
      some (records ++ rest)
    else some records

/-! ### Probes -/

/-- What the client needs before it asks for anything: it is configured, and
an instance serves the workspace. -/
structure Client where
  configured : Bool
  served : String → Bool

def Client.ready (client : Client) (workspace : String) : Bool :=
  client.configured && strip workspace != "" && client.served workspace

/-- `_validated_aliases`. -/
def validatedAliases (values : List String) : Bool :=
  values != [] && values.length ≤ maxAliasCount &&
    values.all validDocumentAlias

/-- `document_ids_present`. -/
def documentIdsPresent (client : Client) (workspace : String)
    (request : Nat → Option Json) (docIds : List String) :
    Option (List String) := do
  guard (validatedAliases docIds && client.ready workspace)
  let records ← paginatedDocuments workspace request maxPaginatedPages 1
  some ((records.map (·.upstreamDocumentId)).filter (docIds.contains ·)).dedup

/-- The records an alias names, by id or by file path. -/
def matched (records : List DocumentInfo) (name : String) :
    List DocumentInfo :=
  records.filter fun record =>
    record.upstreamDocumentId == name || record.filePath == name

/-- `resolve_document_ids`. -/
def resolveDocumentIds (client : Client) (workspace : String)
    (request : Nat → Option Json) (aliases : List String) :
    Option (List String) := do
  guard (validatedAliases aliases && client.ready workspace)
  let records ← paginatedDocuments workspace request maxPaginatedPages 1
  let named := aliases.flatMap (matched records)
  guard (named.all fun record =>
    !record.isDuplicate || record.originalDocumentId.isSome)
  guard (aliases.all fun name =>
    ((matched records name).map (·.upstreamDocumentId)).dedup.length ≤ 1)
  some ((named.flatMap fun record =>
    record.upstreamDocumentId ::
      if record.isDuplicate then record.originalDocumentId.toList else []
    ).dedup.insertionSort (· ≤ ·))

end AiTeam.Knowledge
