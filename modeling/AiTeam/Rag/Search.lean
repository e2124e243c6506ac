/-
`RagAccessService.search`: the aliases of the caller's documents, the document
of each upstream item, and the citations made of them.
-/
import AiTeam.Rag.Access

namespace AiTeam.Rag

/-! ### Citation ids -/

/-- A sha-256 digest in lower-case hexadecimal. -/
structure Digest where
  chars : Text
  length : chars.length = 64
  hex : ∀ c ∈ chars, c.isDigit || ('a' ≤ c && c ≤ 'f')
deriving DecidableEq

/-- `_citation_version`. -/
def citationVersion (digest : Digest) : String :=
  "sha256:" ++ String.ofList digest.chars

/-- `_chunk_token`; not called without an index or a range. -/
def chunkToken (digest : Digest) (index : Option Nat)
    (range : Option (Nat × Nat)) : Text :=
  'v' :: digest.chars ++
    (match index with
      | some index => '-' :: 'i' :: Nat.toDigits 10 index
      | none => []) ++
    (match range with
      | some (offset, length) =>
          '-' :: 'o' :: Nat.toDigits 10 offset ++
            '-' :: 'l' :: Nat.toDigits 10 length
      | none => [])

/-- `_document_token`. -/
def documentToken (digest : Digest) : Text :=
  'v' :: digest.chars ++ ['-', 'd']

def citationId (spaceId documentId : String) (token : Text) : Text :=
  "citation".toList ++ ':' :: spaceId.toList ++ ':' :: documentId.toList ++
    ':' :: token

structure Source where
  type : String
  displayName : String
deriving DecidableEq

inductive Locator where
  | index (index : Nat)
  | range (offset length : Nat)
deriving DecidableEq

structure Citation where
  citationId : Text
  documentId : String
  knowledgeSpaceId : String
  title : Text
  text : Text
  score : Rat
  citationVersion : String
  locator : Option Locator
  chunkIndex : Option Nat
  source : Source
deriving DecidableEq

structure Answer where
  query : String
  items : List Citation
  degraded : Bool
deriving DecidableEq

abbrev SearchRuntime := Runtime Digest Answer

/-! ### Documents -/

/-- `_document_path`. -/
def documentFile (world : World) (tenantId spaceId : String)
    (document : Document) : Option StoredFile :=
  if document.storageKey = "" then none
  else (world.file document.storageKey).filter fun file =>
    4 ≤ file.parts.length &&
      file.parts.take 3 == ["knowledge", tenantId, spaceId] && file.isFile

/-- `_search_authoritative_text`. -/
def authoritativeText (world : World) (tenantId spaceId : String)
    (document : Document) : Option Text :=
  (documentFile world tenantId spaceId document).bind (·.text)

/-- `_document_version`, as its digest. -/
def documentDigest (runtime : SearchRuntime) (world : World)
    (tenantId spaceId : String) (document : Document) : Digest :=
  let updated := document.updatedAt.toList.map fun time =>
    "updated_at:" ++ runtime.isoformat time
  let stored := ((documentFile world tenantId spaceId document).bind
    (·.sha256)).toList.map ("storage_sha256:" ++ ·)
  let material := updated ++ stored
  runtime.sha256 ("|".intercalate
    (["manager-rag-citation-v1", tenantId, spaceId, document.id] ++
      if material = [] then ["storage_key:" ++ document.storageKey]
      else material))

/-- `_public_source`. -/
def publicSource (document : Document) : Source where
  type :=
    if document.sourceType = "file" ∨ document.sourceType = "url" then
      document.sourceType
    else "file"
  displayName := String.ofList (document.displayName.toList.take 512)

/-! ### Aliases -/

/-- A document under the id that its rows give it. -/
abbrev Bound := String × Document

structure Aliases where
  allowed : List (String × Bound)
  ambiguous : List String
  blocked : List String

def Aliases.empty : Aliases := ⟨[], [], []⟩

/-- One alias of a document that may be cited. -/
def Aliases.allow (aliases : Aliases) (bound : Bound) (key : String) :
    Aliases :=
  if key ∈ aliases.ambiguous then aliases
  else match valueAt key aliases.allowed with
    | some previous =>
        if previous.1 ≠ bound.1 then
          { aliases with
            ambiguous := key :: aliases.ambiguous
            allowed := discard key aliases.allowed }
        else { aliases with allowed := assign key bound aliases.allowed }
    | none => { aliases with allowed := assign key bound aliases.allowed }

/-- What names a document upstream: its id, the id LightRAG gave it, where it
is stored and its file name. -/
def aliasesOf (documentId : String) (ragDocumentId : Option String)
    (document : Document) : List String :=
  [documentId, ragDocumentId.getD "", document.storageKey,
    document.fileName].filter (· != "")

/-- A row that names a document: in the enterprise scope the document itself,
elsewhere a binding. -/
structure Row where
  documentId : String
  ragDocumentId : Option String
  document : Option Document

def boundRows (world : World) (auth : Authorized) (handle : RagHandle) :
    List Row :=
  if world.isEnterprise auth.tenantId handle.knowledgeSpaceId then
    (world.bySpace auth.tenantId handle.knowledgeSpaceId).map fun document =>
      ⟨document.id, none, some document⟩
  else
    (auth.bindings.filter (validBinding auth.tenantId auth.employeeId
      handle.knowledgeSpaceId)).map fun binding =>
        ⟨binding.documentId, binding.ragDocumentId,
          world.document auth.tenantId binding.documentId⟩

/-- One row of `_bound_documents`. -/
def bindRow (auth : Authorized) (handle : RagHandle) (aliases : Aliases)
    (row : Row) : Aliases :=
  match row.document with
  | none => aliases
  | some document =>
      if row.documentId = "" ∨ document.id ≠ row.documentId ∨
          document.tenantId ≠ auth.tenantId ∨
          document.knowledgeSpaceId ≠ handle.knowledgeSpaceId then aliases
      else
        let keys := aliasesOf row.documentId row.ragDocumentId document
        -- A document that may not be cited still takes its aliases away.
        if document.status ≠ .ready ∨
            auth.policy.permitsDocument row.documentId = false then
          { aliases with blocked := keys ++ aliases.blocked }
        else keys.foldl (·.allow (row.documentId, document)) aliases

/-- `_bound_documents`: the usable aliases and the ambiguous ones. -/
def boundDocuments (world : World) (auth : Authorized) (handle : RagHandle) :
    List (String × Bound) × List String :=
  let aliases := (boundRows world auth handle).foldl (bindRow auth handle)
    .empty
  (aliases.allowed.filter fun entry => !aliases.blocked.contains entry.1,
    aliases.ambiguous ++ aliases.blocked)

/-! ### Items -/

section

variable (runtime : SearchRuntime) (allowed : List (String × Bound))
  (ambiguous : List String)

/-- The loop of `_resolve_item` over the fields that name a document: the
documents they name, by id. -/
def identify (item : Json) (matched : List (String × Bound)) :
    List String → Option (List (String × Bound))
  | [] => some matched
  | name :: rest =>
      match upstreamValue runtime.same item name with
      | .ambiguous => none
      | .absent => identify item matched rest
      | .value (.bool _) => identify item matched rest
      | .value value =>
          let key := value.text runtime.repr
          if key = "" then identify item matched rest
          else if key ∈ ambiguous then none
          else match valueAt key allowed with
            | none => none
            | some bound => identify item (assign bound.1 bound matched) rest

def identityFields : List String :=
  ["file_path", "full_doc_id", "document_id", "rag_document_id"]

/-- The only document of `matches`. -/
def single (matched : List (String × Bound)) : Option Bound :=
  match matched with
  | [entry] => some entry.2
  | _ => none

/-- What the references of a payload resolve to. -/
structure References where
  targets : List (String × Bound)
  ambiguous : List String
  seen : List String
  metadata : List (String × Json)

def References.empty : References := ⟨[], [], [], []⟩

/-- `_resolve_item` of an item that is not a reference. -/
def resolveItem (references : References) (item : Json) : Option Bound :=
  match identify runtime allowed ambiguous item [] identityFields with
  | none => none
  | some matched =>
      match upstreamValue runtime.same item "reference_id" with
      | .ambiguous => none
      | .absent => single matched
      | .value value =>
          let key := value.text runtime.repr
          if key ∈ references.ambiguous ∨ key ∈ ambiguous then none
          else match (valueAt key allowed).or
              (valueAt key references.targets) with
            | none => none
            | some bound => single (assign bound.1 bound matched)

/-- `_resolve_item` with `resolve_reference=False`. -/
def resolveReference (reference : Json) : Option Bound :=
  match identify runtime allowed ambiguous reference [] identityFields with
  | none => none
  | some matched =>
      match upstreamValue runtime.same reference "reference_id" with
      | .ambiguous => none
      | _ => single matched

/-- One reference of `_reference_targets`. -/
def addReference (references : References) (reference : Json) : References :=
  match upstreamValue runtime.same reference "reference_id" with
  | .value value =>
      let key := value.text runtime.repr
      if key ∈ references.seen then
        { references with
          ambiguous := key :: references.ambiguous
          targets := discard key references.targets
          metadata := discard key references.metadata }
      else
        let references := { references with seen := key :: references.seen }
        match resolveReference runtime allowed ambiguous reference with
        | none => references
        | some bound =>
            { references with
              targets := assign key bound references.targets
              metadata := assign key reference references.metadata }
  | _ => references

/-- `_reference_targets`. -/
def referenceTargets (references : List Json) : References :=
  references.foldl (addReference runtime allowed ambiguous) .empty

end

/-! ### Records -/

structure Record where
  documentId : String
  document : Document
  chunkId : Option String
  order : Order
  exactIndex : Option Nat
  exactRange : Option (Nat × Nat)
  content : Text
  score : Rat
  text : Option Text

def managerChunkChars : Nat := 1200

def maxChunkChars : Nat := 4000

/-- `_manager_chunks`. -/
def managerChunks (text : Text) : List Text :=
  Text.pieces managerChunkChars text

/-- `_unique_content_span`. -/
def uniqueContentSpan (text : Option Text) (content : Text) :
    Option (Nat × Nat) :=
  match text with
  | none => none
  | some text =>
      if text = [] ∨ content = [] ∨ maxChunkChars < content.length then none
      else (Text.uniqueStart text content).map fun start =>
        (start, content.length)

/-- The chunks equal to the content. -/
def matchingChunks (chunks : List Text) (content : Text) : List Nat :=
  (List.range chunks.length).filter fun index =>
    chunks[index]? == some content

/-- `exact_index` and `exact_range` of an item. -/
def exactPlace (text : Option Text) (order : Order) (chunkId : Option String)
    (content : Text) : Option Nat × Option (Nat × Nat) :=
  let span := uniqueContentSpan text content
  match order, text with
  | .position index, some text =>
      if index < (managerChunks text).length then
        if content ≠ [] ∧ (managerChunks text)[index]? = some content then
          (some index, none)
        else match span with
          | some span => (some index, some span)
          | none => (none, none)
      else (none, none)
  -- Without the text of the document there is no span either.
  | .position _, none => (none, none)
  | .invalid, _ => (none, none)
  | .absent, text =>
      match chunkId, span with
      | some _, some span =>
          match matchingChunks ((text.map managerChunks).getD []) content with
          | [index] => (some index, none)
          | _ => (none, some span)
      | _, _ => (none, none)

section

variable (runtime : SearchRuntime) (world : World) (auth : Authorized)
  (handle : RagHandle)

/-- The record of an item that resolves to a document. -/
def recordOf (allowed : List (String × Bound)) (ambiguous : List String)
    (references : References) (item : Json) : Option Record :=
  (resolveItem runtime allowed ambiguous references item).map fun bound =>
    let reference := match upstreamValue runtime.same item "reference_id" with
      | .value value =>
          valueAt (value.text runtime.repr) references.metadata
      | _ => none
    let content := contentText item
    let text := authoritativeText world auth.tenantId
      handle.knowledgeSpaceId bound.2
    let order := chunkOrder runtime.same item
    let chunkId := chunkId runtime.same item
    let place := exactPlace text order chunkId content
    { documentId := bound.1
      document := bound.2
      chunkId, order
      exactIndex := place.1
      exactRange := place.2
      content := if content = [] then contentValue item else content
      score := scoreValue runtime.float item reference
      text }

/-! ### Citations -/

/-- The chunk id is used by another record too. -/
def duplicateId (records : List Record) (record : Record) : Bool :=
  record.chunkId.any fun chunkId =>
    1 < records.countP (·.chunkId == some chunkId)

/-- The index a record counts for: its order, else its exact index. -/
def Record.countedIndex (record : Record) : Option (String × Nat) :=
  match record.order with
  | .position index => some (record.documentId, index)
  | _ => record.exactIndex.map fun index => (record.documentId, index)

def duplicateIndex (records : List Record) (record : Record) : Bool :=
  record.exactIndex.any fun index =>
    1 < records.countP (·.countedIndex == some (record.documentId, index))

def duplicateRange (records : List Record) (record : Record) : Bool :=
  record.exactRange.any fun range =>
    1 < records.countP fun other =>
      other.documentId == record.documentId && other.exactRange == some range

/-- The record can be cited by its exact place. -/
def isExact (records : List Record) (record : Record) : Bool :=
  (record.exactIndex.isSome || record.exactRange.isSome) &&
    !duplicateId records record && !duplicateIndex records record &&
    !duplicateRange records record

def citationOf (record : Record) (token : Digest → Text) (text : Text)
    (locator : Option Locator) (chunkIndex : Option Nat) : Citation :=
  let digest := documentDigest runtime world auth.tenantId
    handle.knowledgeSpaceId record.document
  { citationId :=
      citationId handle.knowledgeSpaceId record.documentId (token digest)
    documentId := record.documentId
    knowledgeSpaceId := handle.knowledgeSpaceId
    title := record.document.displayName.toList.take 512
    text := text.take maxChunkChars
    score := record.score
    citationVersion := citationVersion digest
    locator, chunkIndex
    source := publicSource record.document }

/-- The citation of a record by its range or its chunk. -/
def exactCitation (record : Record) : Citation :=
  let text := record.text.getD []
  match record.exactRange with
  | some (offset, length) =>
      citationOf runtime world auth handle record
        (chunkToken · record.exactIndex (some (offset, length)))
        (Text.slice text offset length) (some (.range offset length))
        record.exactIndex
  | none =>
      let index := record.exactIndex.getD 0
      citationOf runtime world auth handle record
        (chunkToken · (some index) none)
        ((managerChunks text)[index]?.getD []) (some (.index index))
        (some index)

/-- The citation of a record by its document, when its content can be found
there. -/
def documentCitation (record : Record) : Option Citation :=
  match record.text with
  | none => none
  | some text =>
      if record.content ≠ [] ∧ Text.occurs text record.content = false then
        none
      else some (citationOf runtime world auth handle record documentToken
        (if record.content = [] then text else record.content) none none)

/-- `output[key] = citation` unless one with as good a score is there. -/
def keepBest {K : Type} [DecidableEq K] (key : Citation → K)
    (output : List Citation) (citation : Citation) : List Citation :=
  if output.any (key · = key citation) then
    output.map fun previous =>
      if key previous = key citation ∧ previous.score < citation.score then
        citation
      else previous
  else output ++ [citation]

/-- The references, and the items to cite: the chunks, else the references. -/
def payloadItems (payload : Json) : List Json × List Json :=
  let data : Json := match payload.field "data" with
    | some (.object fields) => .object fields
    | some (.list items) => .list items
    | _ => payload
  match data with
  | .object fields =>
      let references := Json.objects (valueAt "references" fields)
      let chunks := Json.objects (valueAt "chunks" fields)
      (references, if chunks.isEmpty then references else chunks)
  | .list items => ([], Json.objects (some (.list items)))
  | _ => ([], [])

/-- The records of a payload. -/
def records (payload : Json) : List Record :=
  let items := payloadItems payload
  let bound := boundDocuments world auth handle
  let references := referenceTargets runtime bound.1 bound.2 items.1
  items.2.filterMap (recordOf runtime world auth handle bound.1 bound.2
    references)

/-- `_citations`. -/
def citations (payload : Json) : List Citation :=
  let records := records runtime world auth handle payload
  let exact := (records.filter (isExact records)).map
    (exactCitation runtime world auth handle)
  let documents := (records.filter (!isExact records ·)).filterMap
    (documentCitation runtime world auth handle)
  exact.foldl (keepBest (·.citationId)) [] ++
    documents.foldl (keepBest (·.documentId)) []

end

/-! ### Search -/

/-- The order of the merged citations. -/
def ranksBefore (left right : Citation) : Bool :=
  let key (citation : Citation) :=
    (citation.knowledgeSpaceId, citation.documentId,
      (citation.chunkIndex.map toString).getD "",
      String.ofList citation.citationId)
  if left.score ≠ right.score then right.score < left.score
  else if (key left).1 ≠ (key right).1 then (key left).1 < (key right).1
  else if (key left).2.1 ≠ (key right).2.1 then
    (key left).2.1 < (key right).2.1
  else if (key left).2.2.1 ≠ (key right).2.2.1 then
    (key left).2.2.1 < (key right).2.2.1
  else (key left).2.2.2 ≤ (key right).2.2.2

/-- `_merge_citations`; no citation id is empty. -/
def mergeCitations (items : List Citation) : List Citation :=
  (items.foldl (keepBest (·.citationId)) []).insertionSort
    (fun left right => ranksBefore left right = true)

/-- `items.pop()` until the answer fits. -/
def bounded (fits : Answer → Bool) (query : String) (degraded : Bool) :
    Nat → List Citation → List Citation
  | 0, items => items
  | fuel + 1, items =>
      if fits ⟨query, items, degraded⟩ || items.isEmpty then items
      else bounded fits query degraded fuel items.dropLast

/-- The final check of a cited document. -/
def stillCurrent (runtime : SearchRuntime) (world : World)
    (tenantId : String) (citation : Citation) : Bool :=
  (world.document tenantId citation.documentId).any fun document =>
    document.status == .ready &&
      citationVersion (documentDigest runtime world tenantId
        citation.knowledgeSpaceId document) == citation.citationVersion

/-- `search`.  The worlds are those at the first authorization, after the
upstream queries and at the end; `upstream` is the answer to each handle, none
when the query failed. -/
def search (runtime : SearchRuntime) (first current latest : World)
    (claims : Claims) (employeeId query : String) (limit : Int)
    (upstream : RagHandle → Option Json) : Except Failure Answer :=
  if query.toList.all isSpace || 8000 < query.length then .error .unavailable
  else do
    let limit := (max 1 (min limit 20)).toNat
    let auth ← authorize first claims employeeId (some "knowledge_search")
    let results := auth.handles.map fun handle => (handle, upstream handle)
    let current' ←
      authorize current claims employeeId (some "knowledge_search")
    if auth.policy.fingerprint ≠ current'.policy.fingerprint ∨
        auth.handles ≠ current'.handles then .error .unavailable
    else
      let successful := results.filterMap fun result =>
        result.2.map fun payload => (result.1, payload)
      if successful = [] then .error .unavailable
      else
        let merged := mergeCitations (successful.flatMap fun result =>
          citations runtime current current' result.1 result.2)
        let degraded := successful.length != results.length
        let items := bounded runtime.fits query degraded limit
          (merged.take limit)
        let latest' ←
          authorize latest claims employeeId (some "knowledge_search")
        if latest'.policy.fingerprint ≠ current'.policy.fingerprint then
          .error .unavailable
        else if items.all (stillCurrent runtime latest claims.tenantId) then
          .ok ⟨query, items, degraded⟩
        else .error .unavailable

end AiTeam.Rag
