/-
What a search may show: every citation comes from a stored document of the
tenant that is ready, authorized and not denied.
-/
import AiTeam.Rag.Search
import AiTeam.Rag.Authorized

namespace AiTeam.Rag

variable {runtime : SearchRuntime} {world : World} {auth : Authorized}
  {handle : RagHandle}

/-! ### Aliases -/

/-- The employee may cite the document in the space of the handle. -/
structure Citable (world : World) (auth : Authorized) (handle : RagHandle)
    (bound : Bound) : Prop where
  named : bound.2.id = bound.1
  stored : world.document auth.tenantId bound.1 = some bound.2
  space : bound.2.knowledgeSpaceId = handle.knowledgeSpaceId
  nonempty : bound.1 ≠ ""
  ready : bound.2.status = .ready
  permitted : auth.policy.permitsDocument bound.1 = true
  bound : world.isEnterprise auth.tenantId handle.knowledgeSpaceId = true ∨
    ∃ row ∈ auth.bindings, validBinding auth.tenantId auth.employeeId
      handle.knowledgeSpaceId row = true ∧ row.documentId = bound.1

/-- Every usable alias names a document that may be cited. -/
def AllCitable (world : World) (auth : Authorized) (handle : RagHandle)
    (entries : List (String × Bound)) : Prop :=
  ∀ entry ∈ entries, Citable world auth handle entry.2

variable {bound : Bound} {entries : List (String × Bound)} {aliases : Aliases}
  {item : Json} {record : Record} {citation : Citation} {items : List Citation}

section

variable (h : AllCitable world auth handle entries)
include h

theorem AllCitable.valueAt {key : String}
    (hvalue : valueAt key entries = some bound) :
    Citable world auth handle bound := by
  obtain ⟨entry, hentry, rfl⟩ := Option.map_eq_some_iff.mp hvalue
  exact h entry (lookup_mem hentry)

theorem AllCitable.assign {key : String}
    (hbound : Citable world auth handle bound) :
    AllCitable world auth handle (assign key bound entries) := by
  intro entry hentry
  rcases List.mem_append.mp hentry with hold | hnew
  · exact h entry (List.mem_filter.mp hold).1
  · rw [List.mem_singleton.mp hnew]
    exact hbound

theorem AllCitable.discard (key : String) :
    AllCitable world auth handle (discard key entries) :=
  fun entry hentry => h entry (List.mem_filter.mp hentry).1

end

theorem AllCitable.allow (h : AllCitable world auth handle aliases.allowed)
    (hbound : Citable world auth handle bound) (key : String) :
    AllCitable world auth handle (aliases.allow bound key).allowed := by
  rw [Aliases.allow]
  split
  · exact h
  · split
    · split
      · exact h.discard key
      · exact h.assign hbound
    · exact h.assign hbound

theorem AllCitable.allowAll {keys : List String}
    (h : AllCitable world auth handle aliases.allowed)
    (hbound : Citable world auth handle bound) :
    AllCitable world auth handle
      (keys.foldl (·.allow bound) aliases).allowed := by
  induction keys generalizing aliases with
  | nil => exact h
  | cons key rest ih => exact ih (h.allow hbound key)

/-- What a row of the scope says of its document. -/
structure RowIn (world : World) (auth : Authorized) (handle : RagHandle)
    (row : Row) : Prop where
  stored : ∀ document, row.document = some document →
    world.document auth.tenantId row.documentId = some document
  bound : world.isEnterprise auth.tenantId handle.knowledgeSpaceId = true ∨
    ∃ binding ∈ auth.bindings, validBinding auth.tenantId auth.employeeId
      handle.knowledgeSpaceId binding = true ∧
        binding.documentId = row.documentId

theorem boundRows_in {row : Row} (h : row ∈ boundRows world auth handle) :
    RowIn world auth handle row := by
  rw [boundRows] at h
  split at h
  · next henterprise =>
      obtain ⟨document, hdocument, rfl⟩ := List.mem_map.mp h
      refine ⟨fun found hfound => ?_, .inl henterprise⟩
      obtain ⟨hmem, hscope⟩ := List.mem_filter.mp hdocument
      rw [Bool.and_eq_true] at hscope
      rw [← Option.some.inj hfound, World.document,
        world.keyed document hmem, Option.filter_some, if_pos hscope.1]
  · obtain ⟨binding, hbinding, rfl⟩ := List.mem_map.mp h
    obtain ⟨hmem, hvalid⟩ := List.mem_filter.mp hbinding
    exact ⟨fun _ hfound => hfound, .inr ⟨binding, hmem, hvalid, rfl⟩⟩

theorem AllCitable.bindRow (h : AllCitable world auth handle aliases.allowed)
    {row : Row} (hrow : RowIn world auth handle row) :
    AllCitable world auth handle (bindRow auth handle aliases row).allowed := by
  rw [Rag.bindRow]
  split
  · exact h
  · next document hdocument =>
      split
      · exact h
      · next hscope =>
          simp only [not_or, ne_eq, Classical.not_not] at hscope
          obtain ⟨hnonempty, hnamed, -, hspace⟩ := hscope
          dsimp only
          split
          · exact h
          · next hcitable =>
              simp only [not_or, ne_eq, Classical.not_not,
                Bool.not_eq_false] at hcitable
              exact h.allowAll ⟨hnamed, hrow.stored document hdocument,
                hspace, hnonempty, hcitable.1, hcitable.2, hrow.bound⟩

theorem boundDocuments_citable :
    AllCitable world auth handle (boundDocuments world auth handle).1 := by
  have hfold : ∀ (rows : List Row) (aliases : Aliases),
      (∀ row ∈ rows, RowIn world auth handle row) →
      AllCitable world auth handle aliases.allowed →
      AllCitable world auth handle
        (rows.foldl (bindRow auth handle) aliases).allowed := by
    intro rows
    induction rows with
    | nil => exact fun _ _ h => h
    | cons row rest ih =>
        intro aliases hrows h
        exact ih _ (fun other hother =>
          hrows other (List.mem_cons_of_mem row hother))
          (h.bindRow (hrows row List.mem_cons_self))
  intro entry hentry
  exact hfold _ .empty (fun _ => boundRows_in) (fun _ hnone => nomatch hnone)
    entry (List.mem_filter.mp hentry).1

/-! ### Items -/

section

variable {allowed : List (String × Bound)} {ambiguous : List String}

theorem identify_citable (h : AllCitable world auth handle allowed)
    {names : List String} {matched found : List (String × Bound)}
    (hmatched : AllCitable world auth handle matched)
    (hfound : identify runtime allowed ambiguous item matched names =
      some found) : AllCitable world auth handle found := by
  induction names generalizing matched with
  | nil =>
      rw [← Option.some.inj hfound]
      exact hmatched
  | cons name rest ih =>
      rw [identify] at hfound
      split at hfound
      · exact nomatch hfound
      · exact ih hmatched hfound
      · exact ih hmatched hfound
      · dsimp only at hfound
        split at hfound
        · exact ih hmatched hfound
        · split at hfound
          · exact nomatch hfound
          · split at hfound
            · exact nomatch hfound
            · next bound hbound =>
                exact ih (hmatched.assign (h.valueAt hbound)) hfound

theorem single_citable {matched : List (String × Bound)}
    (h : AllCitable world auth handle matched)
    (hsingle : single matched = some bound) :
    Citable world auth handle bound := by
  unfold single at hsingle
  split at hsingle
  · next entry =>
      rw [← Option.some.inj hsingle]
      exact h entry List.mem_cons_self
  · exact nomatch hsingle

theorem allCitable_nil : AllCitable world auth handle [] :=
  fun _ hentry => nomatch hentry

section

variable (h : AllCitable world auth handle allowed)
include h

theorem resolveReference_citable {reference : Json}
    (hbound : resolveReference runtime allowed ambiguous reference =
      some bound) : Citable world auth handle bound := by
  rw [resolveReference] at hbound
  split at hbound
  · exact nomatch hbound
  · next matched hmatched =>
      have hall := identify_citable h allCitable_nil hmatched
      split at hbound
      · exact nomatch hbound
      · exact single_citable hall hbound

theorem referenceTargets_citable (references : List Json) :
    AllCitable world auth handle
      (referenceTargets runtime allowed ambiguous references).targets := by
  have hadd : ∀ (state : References) (reference : Json),
      AllCitable world auth handle state.targets →
      AllCitable world auth handle
        (addReference runtime allowed ambiguous state reference).targets := by
    intro state reference hstate
    rw [addReference]
    split
    · dsimp only
      split
      · exact hstate.discard _
      · split
        · exact hstate
        · next bound hbound =>
            exact hstate.assign (resolveReference_citable h hbound)
    · exact hstate
  have hfold : ∀ (references : List Json) (state : References),
      AllCitable world auth handle state.targets →
      AllCitable world auth handle (references.foldl
        (addReference runtime allowed ambiguous) state).targets := by
    intro references
    induction references with
    | nil => exact fun _ hstate => hstate
    | cons reference rest ih =>
        exact fun state hstate => ih _ (hadd state reference hstate)
  exact hfold references .empty allCitable_nil

theorem resolveItem_citable {references : References}
    (hreferences : AllCitable world auth handle references.targets)
    (hbound : resolveItem runtime allowed ambiguous references item =
      some bound) : Citable world auth handle bound := by
  rw [resolveItem] at hbound
  split at hbound
  · exact nomatch hbound
  · next matched hmatched =>
      have hall := identify_citable h allCitable_nil hmatched
      split at hbound
      · exact nomatch hbound
      · exact single_citable hall hbound
      · dsimp only at hbound
        split at hbound
        · exact nomatch hbound
        · split at hbound
          · exact nomatch hbound
          · next target htarget =>
              refine single_citable (hall.assign ?_) hbound
              rcases Option.or_eq_some_iff.mp htarget with hdirect |
                ⟨-, hindirect⟩
              · exact h.valueAt hdirect
              · exact hreferences.valueAt hindirect

end

end

/-! ### Records -/

/-- A record is about a document that may be cited, with its stored text; an
exact place is one in that text. -/
structure Sourced (world : World) (auth : Authorized) (handle : RagHandle)
    (record : Record) : Prop where
  citable : Citable world auth handle (record.documentId, record.document)
  text : record.text = authoritativeText world auth.tenantId
    handle.knowledgeSpaceId record.document
  place : record.exactIndex.isSome ∨ record.exactRange.isSome →
    record.text.isSome

theorem exactPlace_none (order : Order) (chunkId : Option String)
    (content : Text) :
    exactPlace none order chunkId content = (none, none) := by
  unfold exactPlace
  cases order with
  | absent => cases chunkId <;> rfl
  | invalid => rfl
  | position index => rfl

theorem recordOf_sourced {allowed : List (String × Bound)}
    {ambiguous : List String} (h : AllCitable world auth handle allowed)
    {references : References}
    (hreferences : AllCitable world auth handle references.targets)
    (hrecord : recordOf runtime world auth handle allowed ambiguous references
      item = some record) : Sourced world auth handle record := by
  obtain ⟨bound, hbound, rfl⟩ := Option.map_eq_some_iff.mp hrecord
  refine ⟨resolveItem_citable h hreferences hbound, rfl, ?_⟩
  dsimp only
  intro hplace
  cases htext : authoritativeText world auth.tenantId
      handle.knowledgeSpaceId bound.2 with
  | some text => rfl
  | none =>
      rw [htext, exactPlace_none] at hplace
      rcases hplace with hplace | hplace <;> exact nomatch hplace

theorem records_sourced {payload : Json}
    (h : record ∈ records runtime world auth handle payload) :
    Sourced world auth handle record := by
  obtain ⟨item, -, hrecord⟩ := List.mem_filterMap.mp h
  exact recordOf_sourced boundDocuments_citable
    (referenceTargets_citable boundDocuments_citable _) hrecord

/-! ### Citations -/

/-- The citation shows a part of the stored text of a document that may be
cited, under its present version. -/
def Shows (runtime : SearchRuntime) (world : World) (auth : Authorized)
    (handle : RagHandle) (citation : Citation) : Prop :=
  citation.knowledgeSpaceId = handle.knowledgeSpaceId ∧
  ∃ document text,
    Citable world auth handle (citation.documentId, document) ∧
    authoritativeText world auth.tenantId handle.knowledgeSpaceId document =
      some text ∧ citation.text <:+: text ∧
    citation.citationVersion = citationVersion (documentDigest runtime world
      auth.tenantId handle.knowledgeSpaceId document)

theorem citationOf_shows (h : Sourced world auth handle record)
    {text shown : Text} (htext : record.text = some text)
    (hshown : shown <:+: text) (token : Digest → Text)
    (locator : Option Locator) (chunkIndex : Option Nat) :
    Shows runtime world auth handle (citationOf runtime world auth handle
      record token shown locator chunkIndex) :=
  ⟨rfl, record.document, text, h.citable, h.text ▸ htext,
    (List.take_prefix _ _).isInfix.trans hshown, rfl⟩

theorem exactCitation_shows {records : List Record}
    (h : Sourced world auth handle record)
    (hexact : isExact records record = true) :
    Shows runtime world auth handle
      (exactCitation runtime world auth handle record) := by
  simp only [isExact, Bool.and_eq_true, Bool.or_eq_true] at hexact
  obtain ⟨text, htext⟩ :=
    Option.isSome_iff_exists.mp (h.place hexact.1.1.1)
  rw [exactCitation]
  dsimp only
  split
  · rw [htext]
    exact citationOf_shows h htext (Text.slice_infix text _ _) _ _ _
  · refine citationOf_shows h htext ?_ _ _ _
    rw [htext, Option.getD_some]
    cases hchunk : (managerChunks text)[record.exactIndex.getD 0]? with
    | none => exact List.nil_infix
    | some chunk =>
        rw [Option.getD_some, (Text.pieces_getElem? hchunk).1]
        exact Text.slice_infix text _ _

theorem documentCitation_shows (h : Sourced world auth handle record)
    (hcitation : documentCitation runtime world auth handle record =
      some citation) : Shows runtime world auth handle citation := by
  rw [documentCitation] at hcitation
  split at hcitation
  · exact nomatch hcitation
  · next text htext =>
      split at hcitation
      · exact nomatch hcitation
      · next hoccurs =>
          rw [← Option.some.inj hcitation]
          refine citationOf_shows h htext ?_ _ _ _
          split
          · exact List.infix_rfl
          · next hcontent =>
              refine Text.occurs_infix ?_
              by_contra hnot
              exact hoccurs ⟨hcontent, Bool.not_eq_true _ ▸ hnot⟩

theorem keepBest_mem {K : Type} [DecidableEq K] (key : Citation → K)
    {output : List Citation} (h : citation ∈ items.foldl (keepBest key) output)
    : citation ∈ output ∨ citation ∈ items := by
  induction items generalizing output with
  | nil => exact .inl h
  | cons item rest ih =>
      rcases ih h with hkept | hrest
      · rw [keepBest] at hkept
        split at hkept
        · obtain ⟨previous, hprevious, rfl⟩ := List.mem_map.mp hkept
          split
          · exact .inr List.mem_cons_self
          · exact .inl hprevious
        · rcases List.mem_append.mp hkept with hold | hnew
          · exact .inl hold
          · rw [List.mem_singleton.mp hnew]
            exact .inr List.mem_cons_self
      · exact .inr (List.mem_cons_of_mem item hrest)

/-- Where the citations of a payload come from. -/
theorem citations_cases {payload : Json}
    (h : citation ∈ citations runtime world auth handle payload) :
    ∃ record ∈ records runtime world auth handle payload,
      (isExact (records runtime world auth handle payload) record = true ∧
        citation = exactCitation runtime world auth handle record) ∨
      documentCitation runtime world auth handle record = some citation := by
  rcases List.mem_append.mp h with hexact | hdocument
  · rcases keepBest_mem _ hexact with hnone | hmem
    · exact nomatch hnone
    · obtain ⟨record, hrecord, rfl⟩ := List.mem_map.mp hmem
      obtain ⟨hmem, hexact⟩ := List.mem_filter.mp hrecord
      exact ⟨record, hmem, .inl ⟨hexact, rfl⟩⟩
  · rcases keepBest_mem _ hdocument with hnone | hmem
    · exact nomatch hnone
    · obtain ⟨record, hrecord, hcitation⟩ := List.mem_filterMap.mp hmem
      exact ⟨record, (List.mem_filter.mp hrecord).1, .inr hcitation⟩

theorem citations_shows {payload : Json}
    (h : citation ∈ citations runtime world auth handle payload) :
    Shows runtime world auth handle citation := by
  obtain ⟨record, hrecord, ⟨hexact, rfl⟩ | hdocument⟩ := citations_cases h
  · exact exactCitation_shows (records_sourced hrecord) hexact
  · exact documentCitation_shows (records_sourced hrecord) hdocument

/-! ### Search -/

theorem mergeCitations_mem (h : citation ∈ mergeCitations items) :
    citation ∈ items := by
  rw [mergeCitations, List.mem_insertionSort] at h
  rcases keepBest_mem _ h with hnone | hmem
  · exact nomatch hnone
  · exact hmem

theorem bounded_mem {fits : Answer → Bool} {query : String} {degraded : Bool}
    {fuel : Nat} (h : citation ∈ bounded fits query degraded fuel items) :
    citation ∈ items := by
  induction fuel generalizing items with
  | zero => exact h
  | succ fuel ih =>
      rw [bounded] at h
      split at h
      · exact h
      · exact List.mem_of_mem_dropLast (ih h)

/-- What a search that answers went through. -/
theorem search_ok {first current latest : World} {claims : Claims}
    {employeeId query : String} {limit : Int}
    {upstream : RagHandle → Option Json} {answer : Answer}
    (h : search runtime first current latest claims employeeId query limit
      upstream = .ok answer) :
    ∃ auth latest',
      authorize current claims employeeId (some "knowledge_search") =
        .ok auth ∧
      authorize latest claims employeeId (some "knowledge_search") =
        .ok latest' ∧
      latest'.policy.fingerprint = auth.policy.fingerprint ∧
      ∀ citation ∈ answer.items,
        stillCurrent runtime latest claims.tenantId citation = true ∧
        ∃ handle ∈ auth.handles, ∃ payload,
          citation ∈ citations runtime current auth handle payload := by
  rw [search] at h
  split at h
  · exact nomatch h
  · dsimp only at h
    obtain ⟨auth, -, h⟩ := ok_of_bind h
    obtain ⟨current', hcurrent, h⟩ := ok_of_bind h
    split at h
    · exact nomatch h
    · next hsame =>
        simp only [not_or, ne_eq, Classical.not_not] at hsame
        split at h
        · exact nomatch h
        · obtain ⟨latest', hlatest, h⟩ := ok_of_bind h
          split at h
          · exact nomatch h
          · next hfingerprint =>
              split at h
              · next hall =>
                  injection h with hanswer
                  rw [← hanswer]
                  refine ⟨current', latest', hcurrent, hlatest,
                    Classical.not_not.mp hfingerprint, ?_⟩
                  intro citation hcitation
                  refine ⟨List.all_eq_true.mp hall citation hcitation, ?_⟩
                  obtain ⟨result, hresult, hmem⟩ := List.mem_flatMap.mp
                    (mergeCitations_mem (List.mem_of_mem_take
                      (bounded_mem hcitation)))
                  obtain ⟨pair, hpair, hpayload⟩ :=
                    List.mem_filterMap.mp hresult
                  obtain ⟨handle, hhandle, rfl⟩ := List.mem_map.mp hpair
                  obtain ⟨payload, -, rfl⟩ :=
                    Option.map_eq_some_iff.mp hpayload
                  exact ⟨handle, hsame.2 ▸ hhandle, payload, hmem⟩
              · exact nomatch h

/-- A search never leaks: each citation shows a part of the stored text of a
document of the caller's tenant in an authorized space, ready and not denied
to the employee, when the citations are made and at the end of the search. -/
theorem search_never_leaks {first current latest : World} {claims : Claims}
    {employeeId query : String} {limit : Int}
    {upstream : RagHandle → Option Json} {answer : Answer}
    (h : search runtime first current latest claims employeeId query limit
      upstream = .ok answer) :
    ∀ citation ∈ answer.items, ∃ auth latest' document latestDocument text,
      authorize current claims employeeId (some "knowledge_search") =
        .ok auth ∧
      authorize latest claims employeeId (some "knowledge_search") =
        .ok latest' ∧
      document ∈ current.documents ∧
      document.id = citation.documentId ∧
      document.tenantId = claims.tenantId ∧
      document.knowledgeSpaceId = citation.knowledgeSpaceId ∧
      AuthorizedSpace current claims.tenantId employeeId
        citation.knowledgeSpaceId ∧
      document.status = .ready ∧
      auth.policy.permitsDocument citation.documentId = true ∧
      authoritativeText current claims.tenantId citation.knowledgeSpaceId
        document = some text ∧
      citation.text <:+: text ∧
      latest.document claims.tenantId citation.documentId =
        some latestDocument ∧
      latestDocument.status = .ready ∧
      latest'.policy.permitsDocument citation.documentId = true := by
  intro citation hcitation
  obtain ⟨auth, latest', hauth, hlatest, hsame, hitems⟩ := search_ok h
  obtain ⟨hcurrent, handle, hhandle, payload, hmem⟩ :=
    hitems citation hcitation
  obtain ⟨hspace, document, text, hcitable, htext, hinfix, -⟩ :=
    citations_shows hmem
  obtain ⟨config, snapshot, policy, handles, bindings, -, -, -, hspaces,
    hparts⟩ := authorize_ok hauth
  have htenant : auth.tenantId = claims.tenantId := by rw [hparts]
  have hstored := hcitable.stored
  rw [htenant] at hstored htext
  obtain ⟨hlookup, hscope⟩ := Option.filter_eq_some_iff.mp hstored
  obtain ⟨latestDocument, hfound, hready⟩ :=
    (Option.any_eq_true _ _).mp hcurrent
  rw [Bool.and_eq_true] at hready
  refine ⟨auth, latest', document, latestDocument, text, hauth, hlatest,
    lookup_mem hlookup, hcitable.named, beq_iff_eq.mp hscope,
    hcitable.space.trans hspace.symm, ?_, hcitable.ready,
    hcitable.permitted, ?_, hinfix, hfound, beq_iff_eq.mp hready.1, ?_⟩
  · rw [hspace]
    rw [hparts] at hhandle
    exact ((authorizeSpaces_ok hspaces).1 handle hhandle).2
  · rw [hspace]
    exact htext
  · rw [permits_of_fingerprint hauth hlatest hsame]
    exact hcitable.permitted

namespace SearchWitness

set_option maxRecDepth 2000 in
def digest : Digest where
  chars := ("e1cdf4c491c2e778935fde2cc901676e7758534b" ++
    "b14e74f54e5df68873a14ae7").toList
  length := by decide
  hex := List.all_eq_true.mp (by decide)

def sampleRuntime : SearchRuntime where
  repr _ := ""
  same left right := match left, right with
    | .str left, .str right => left == right
    | _, _ => false
  float
    | .int value => some value
    | _ => none
  isoformat _ := ""
  sha256 _ := digest
  fits _ := true

def document : Document :=
  ⟨"d", "t", "s", "Greeting", "file", "a.txt", "knowledge/t/s/a.txt", .ready,
    none⟩

/-- One document, of an enterprise space or bound to the employee; the
employee may search, and may read what was found if `tools` says so. -/
def sampleWorld (enterprise : Bool) (tools : List String) : World where
  member _ _ := some ⟨"u", "t", "active"⟩
  employee _ _ := some ⟨tools, 1, .active⟩
  snapshot _ _ _ := .ok ⟨"e", ["s"], none⟩
  whole _ _ := []
  bindings := [⟨"t", "s", "d", "e", some "doc-1", .ready, none, 0, none⟩]
  documents := [document]
  keyed := by unfold Keyed; decide
  space := none
  defaultSpace _ := none
  isEnterprise _ _ := enterprise
  handle _ _ := .ok (some ⟨"t", "s", "w", "legacy"⟩)
  instances := none
  file _ := some ⟨["knowledge", "t", "s", "a.txt"], true,
    some ("b94d27b9934d3e08a52e52d7da7dabfac484efe3" ++
      "7a5380ee9088f7ace2efcde9"),
    some "hello world".toList⟩

def claims : Claims := ⟨"t", "u"⟩

/-- One chunk with the alias of the document it is from. -/
def payload (filePath content : String) : Json :=
  .object [("data", .object
    [("references", .list [.object [("reference_id", .str "1"),
      ("file_path", .str filePath)]]),
    ("chunks", .list [.object [("reference_id", .str "1"),
      ("file_path", .str filePath), ("chunk_id", .str "c"),
      ("content", .str content)]])])]

def found : Except Failure Answer :=
  search sampleRuntime (sampleWorld false []) (sampleWorld false [])
    (sampleWorld false []) claims "e" "greeting" 5 fun _ => some (payload "a.txt" "hello")

def answer : Answer := found.toOption.getD ⟨"", [], true⟩

theorem search_never_leaks_greeting :
    answer.items.map (String.ofList ·.text) = ["hello"] ∧
    ∀ citation ∈ answer.items, ∃ document text,
      document ∈ (sampleWorld false []).documents ∧
      document.id = citation.documentId ∧ document.status = .ready ∧
      authoritativeText (sampleWorld false []) "t" citation.knowledgeSpaceId
        document = some text ∧ citation.text <:+: text := by
  refine ⟨by decide, fun citation hcitation => ?_⟩
  have hfound : found = .ok answer := rfl
  obtain ⟨-, -, document, -, text, -, -, hmem, hid, -, -, -, hready, -, htext,
    hinfix, -⟩ := search_never_leaks hfound citation hcitation
  exact ⟨document, text, hmem, hid, hready, htext, hinfix⟩

end SearchWitness

end AiTeam.Rag
