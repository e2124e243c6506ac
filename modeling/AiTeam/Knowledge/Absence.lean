/-
The listing over an upstream whose documents change between the requests and
which answers each request honestly: when it shows every document that stays,
and so when a probe that finds nothing proves absence.
-/
import Mathlib.Data.List.Dedup
import AiTeam.Knowledge.Deletion
import AiTeam.Knowledge.Listing

namespace AiTeam.Knowledge

open AiTeam.Paging
open AiTeam.Rag (Json present)

/-! ### An honest upstream -/

/-- A field is left out, null, or what is the case. -/
def States (value : Option Json) (truth : Json) : Prop :=
  present value = none ∨ value = some truth

def pagination (payload : Json) : Json :=
  (payload.field "pagination").getD .null

/-- What the answer to request `page` says of the documents there are. -/
structure Honest (size page : Nat) (documents : List Json) (payload : Json) :
    Prop where
  listed : payload.field "documents" =
    some (.list (pageOf size page documents))
  paged : (payload.field "pagination").filter isObject =
    some (pagination payload)
  pageNumber : States ((pagination payload).field "page") (.int page)
  pageSize : (pagination payload).field "page_size" = some (.int size) ∨
    (pagination payload).field "page_size" = none ∧
      size = maxPaginatedPageSize
  totalPages : States ((pagination payload).field "total_pages")
    (.int (expectedPages documents.length size))
  totalCount : States ((pagination payload).field "total_count")
    (.int documents.length)
  hasNext : States ((pagination payload).field "has_next")
    (.bool (decide (page * size < documents.length)))

/-- The upstream while a workspace is listed: the documents there are at each
request, and its answers. -/
structure Listing (workspace : String) where
  named : strip workspace ≠ ""
  size : Nat
  pos : 0 < size
  capped : size ≤ maxPaginatedPageSize
  documents : Nat → List Json
  distinct : ∀ page, ((documents page).map (Json.field "id")).Nodup
  payload : Nat → Json
  honest : ∀ page, 1 ≤ page →
    Honest size page (documents page) (payload page)

variable {name : String} {size last operationId : Nat}

namespace Listing

variable {workspace : String} (listing : Listing workspace)

def request (page : Nat) : Option Json := some (listing.payload page)

/-- The answer to request `page` has the field. -/
def reports (name : String) (page : Nat) : Bool :=
  (present ((pagination (listing.payload page)).field name)).isSome

/-- The answer says that another page follows: where it says nothing, a full
page does. -/
def More (page : Nat) : Prop :=
  if listing.reports "total_pages" page || listing.reports "total_count" page ||
      listing.reports "has_next" page then
    page * listing.size < (listing.documents page).length
  else page * listing.size ≤ (listing.documents page).length

/-- The Manager can read every record of the page, and no more pages are
reported than it reads. -/
def Accepted (page : Nat) : Prop :=
  (∀ document ∈ pageOf listing.size page (listing.documents page),
    (documentInfo workspace document).isSome) ∧
  (listing.reports "total_pages" page = true →
    (listing.documents page).length ≤ maxPaginatedPages * listing.size)

/-- The listing, read from page `first` on, ends with request `last`. -/
structure Ends (first last : Nat) : Prop where
  reached : first ≤ last
  bounded : last ≤ maxPaginatedPages
  accepted : ∀ page, first ≤ page → page ≤ last → listing.Accepted page
  more : ∀ page, first ≤ page → page < last → listing.More page
  done : ¬ listing.More last

/-- The upstream document is there at every request up to `last`. -/
def Stays (last : Nat) (upstreamId : String) : Prop :=
  ∀ page, 1 ≤ page → page ≤ last →
    ∃ document ∈ listing.documents page,
      document.field "id" = some (.str upstreamId)

def shows (upstreamId : String) (page : Nat) : Prop :=
  Shown listing.size listing.documents
    (fun document => document.field "id" = some (.str upstreamId)) page

def jumps (upstreamId : String) (page : Nat) : Prop :=
  Jumps listing.size listing.documents
    (fun document => document.field "id" = some (.str upstreamId)) page

/-- No document that stays is carried over a page boundary unseen, and the
totals reported are what is read. -/
structure Steady : Prop where
  kept : ∀ last upstreamId, listing.Ends 1 last →
    validDocumentAlias upstreamId = true → listing.Stays last upstreamId →
    (∃ page, 1 ≤ page ∧ page < last ∧ listing.jumps upstreamId page) →
    ∃ page, 1 ≤ page ∧ page ≤ last ∧ listing.shows upstreamId page
  totals : ∀ last page, listing.Ends 1 last → 1 ≤ page → page ≤ last →
    listing.reports "total_count" page = true →
    (listing.documents page).length =
      max (listing.documents last).length ((last - 1) * listing.size)

/-- `document_ids_present` reports what stays, and a listing that ends has
yielded as many records as any of its answers counted. -/
structure Sound : Prop where
  reported : ∀ client docIds found last upstreamId,
    documentIdsPresent client workspace listing.request docIds = some found →
    listing.Ends 1 last → upstreamId ∈ docIds → listing.Stays last upstreamId →
    upstreamId ∈ found
  counted : ∀ records last page count,
    paginatedDocuments workspace listing.request maxPaginatedPages 1 =
      some records →
    listing.Ends 1 last → 1 ≤ page → page ≤ last →
    intField "total_count" (pagination (listing.payload page)) =
      some (some count) →
    (records.length : Int) = count

/-! ### One page -/

variable {listing} {page : Nat}

theorem intField_states {source : Json} {truth : Int}
    (h : States (source.field name) (.int truth)) :
    intField name source =
      some (if (present (source.field name)).isSome then some truth
        else none) := by
  rw [intField]
  rcases h with h | h
  · simp [h]
  · have hpresent : present (source.field name) = some (.int truth) := by
      rw [h]
      rfl
    simp [hpresent]

theorem boolField_states {source : Json} {truth : Bool}
    (h : States (source.field name) (.bool truth)) :
    boolField name source =
      some (if (present (source.field name)).isSome then some truth
        else none) := by
  rw [boolField]
  rcases h with h | h
  · simp [h]
  · have hpresent : present (source.field name) = some (.bool truth) := by
      rw [h]
      rfl
    simp [hpresent]

theorem responsePageSize_honest (hpage : 1 ≤ page) :
    responsePageSize (pagination (listing.payload page)) =
      some (listing.size : Int) := by
  rw [responsePageSize]
  rcases (listing.honest page hpage).pageSize with h | ⟨h, hsize⟩
  · rw [h]
  · rw [h, hsize]

theorem expectedPages_eq (count : Nat) (hsize : 0 < size) :
    expectedPages count size = ((count + size - 1) / size : Nat) := by
  rw [expectedPages]
  split
  · next hzero =>
      obtain rfl : count = 0 := by exact_mod_cast hzero
      rw [Nat.zero_add, Nat.div_eq_of_lt (by omega)]
      rfl
  · next hpos =>
      have hcast : ((count : Int) + size - 1) = ((count + size - 1 : Nat)) := by
        omega
      rw [hcast]
      rfl

theorem lt_expectedPages (page count : Nat) (hsize : 0 < size) :
    (page : Int) < expectedPages count size ↔ page * size < count := by
  rw [expectedPages_eq count hsize, Int.ofNat_lt, Nat.lt_iff_add_one_le,
    Nat.le_div_iff_mul_le hsize, Nat.succ_mul]
  omega

theorem expectedPages_le (pages count : Nat) (hsize : 0 < size) :
    expectedPages count size ≤ (pages : Int) ↔ count ≤ pages * size := by
  rw [← Int.not_lt, lt_expectedPages pages count hsize, Nat.not_lt]

theorem mapM_documentInfo {documents : List Json}
    {records : List DocumentInfo} :
    documents.mapM (documentInfo workspace) = some records ↔
      (∀ document ∈ documents, (documentInfo workspace document).isSome) ∧
        records = documents.filterMap (documentInfo workspace) := by
  induction documents generalizing records with
  | nil =>
      rw [List.mapM_nil, List.filterMap_nil]
      constructor
      · intro h
        exact ⟨List.forall_mem_nil _, (Option.some.inj h).symm⟩
      · rintro ⟨-, rfl⟩
        rfl
  | cons document documents ih =>
      rw [List.mapM_cons]
      cases hinfo : documentInfo workspace document with
      | none => simp [hinfo]
      | some info =>
          simp only [Option.bind_eq_bind, Option.bind_some,
            Option.bind_eq_some_iff, ih, List.filterMap_cons, hinfo,
            List.forall_mem_cons, Option.isSome_some, true_and]
          constructor
          · rintro ⟨rest, ⟨hall, rfl⟩, hrecords⟩
            exact ⟨hall, (Option.some.inj hrecords).symm⟩
          · rintro ⟨hall, rfl⟩
            exact ⟨_, ⟨hall, rfl⟩, rfl⟩

/-- The pages a Manager that goes on reads. -/
theorem moreAfter_honest (hpage : 1 ≤ page) (more : Bool) :
    moreAfter page listing.size
        (pageOf listing.size page (listing.documents page)).length
        (if listing.reports "total_pages" page then
          some (expectedPages (listing.documents page).length listing.size)
        else none)
        (if listing.reports "total_count" page then
          some ((listing.documents page).length : Int)
        else none)
        (if listing.reports "has_next" page then
          some (decide (page * listing.size <
            (listing.documents page).length))
        else none) = some more ↔
      (more = true ↔ listing.More page) := by
  have hpages := lt_expectedPages page (listing.documents page).length
    listing.pos
  have hcount : ((page : Int) * listing.size <
      (listing.documents page).length) ↔
        page * listing.size < (listing.documents page).length := by
    exact_mod_cast Iff.rfl
  have hfull : ((pageOf listing.size page (listing.documents page)).length :
      Int) = listing.size ↔
        page * listing.size ≤ (listing.documents page).length := by
    obtain ⟨before, rfl⟩ := Nat.exists_eq_add_of_le' hpage
    rw [pageOf_length, Nat.add_sub_cancel, Nat.succ_mul]
    have := listing.pos
    omega
  rw [More]
  cases listing.reports "total_pages" page <;>
    cases listing.reports "total_count" page <;>
      cases listing.reports "has_next" page <;>
        cases more <;> simp [moreAfter, hpages, hcount, hfull]

theorem guard_eq_some {p : Prop} [Decidable p] {value : Unit} :
    (guard p : Option Unit) = some value ↔ p := by
  by_cases hp : p <;> simp [hp]

theorem intField_honest {truth : Int}
    (h : States ((pagination (listing.payload page)).field name)
      (.int truth)) :
    intField name (pagination (listing.payload page)) =
      some (if listing.reports name page then some truth else none) :=
  intField_states h

theorem boolField_honest {truth : Bool}
    (h : States ((pagination (listing.payload page)).field name)
      (.bool truth)) :
    boolField name (pagination (listing.payload page)) =
      some (if listing.reports name page then some truth else none) :=
  boolField_states h

/-- What a page says of itself is in order, and only a page too many or a
record that cannot be read stops the listing. -/
theorem readPage_honest (hpage : 1 ≤ page) {records : List DocumentInfo}
    {more : Bool} :
    readPage workspace page (listing.payload page) = some (records, more) ↔
      listing.Accepted page ∧ (more = true ↔ listing.More page) ∧
        ¬ (page = maxPaginatedPages ∧ more = true) ∧
        records = (pageOf listing.size page (listing.documents page)).filterMap
          (documentInfo workspace) := by
  have honest := listing.honest page hpage
  have hlisted : listField "documents" (listing.payload page) =
      some (pageOf listing.size page (listing.documents page)) := by
    rw [listField, honest.listed]
  have hnumber : ∀ b : Bool, ((if b then some (page : Int) else none).all
      (· == (page : Int))) = true := by
    intro b
    cases b <;> simp
  have hsize : (decide (1 ≤ (listing.size : Int)) &&
      decide ((listing.size : Int) ≤ (maxPaginatedPageSize : Int)) &&
      decide (((pageOf listing.size page (listing.documents page)).length : Int)
        ≤ listing.size)) = true := by
    have hpos := listing.pos
    have hcapped := listing.capped
    have hlength := pageOf_length listing.size page (listing.documents page)
    simp only [Bool.and_eq_true, decide_eq_true_eq]
    omega
  have hpages : ∀ b : Bool, ((if b then
      some (expectedPages (listing.documents page).length listing.size)
      else none).all fun pages => decide (0 ≤ pages) &&
        decide (pages ≤ (maxPaginatedPages : Int))) = true ↔
      (b = true → (listing.documents page).length ≤
        maxPaginatedPages * listing.size) := by
    intro b
    have hle := expectedPages_le maxPaginatedPages
      (listing.documents page).length listing.pos
    have hnonneg := expectedPages_eq (listing.documents page).length listing.pos
    cases b with
    | false => simp
    | true =>
        have hzero : (0 : Int) ≤
            expectedPages (listing.documents page).length listing.size := by
          rw [hnonneg]
          exact Int.natCast_nonneg _
        simp [hzero, hle]
  have hcount : ∀ b : Bool, ((if b then
      some ((listing.documents page).length : Int) else none).all
        (decide <| 0 ≤ ·)) = true := by
    intro b
    cases b <;> simp
  have hagree : ∀ b c : Bool, ((if b then
      some (expectedPages (listing.documents page).length listing.size)
      else none).all fun pages => (if c then
        some ((listing.documents page).length : Int) else none).all
          fun count => pages == expectedPages count listing.size) = true := by
    intro b c
    cases b <;> cases c <;> simp
  rw [readPage]
  simp only [hlisted, honest.paged, Option.bind_eq_bind, Option.bind_some,
    intField_honest honest.pageNumber, responsePageSize_honest hpage,
    intField_honest honest.totalPages, intField_honest honest.totalCount,
    boolField_honest honest.hasNext, guard_eq_some,
    Option.bind_eq_some_iff, mapM_documentInfo, hnumber, hsize, hpages, hcount,
    hagree, moreAfter_honest hpage, true_and, exists_const]
  constructor
  · rintro ⟨infos, ⟨hall, rfl⟩, hpages, after, hafter, hlimit, hsome⟩
    obtain ⟨rfl, rfl⟩ := Prod.mk.inj (Option.some.inj hsome)
    refine ⟨⟨hall, hpages⟩, hafter, ?_, rfl⟩
    simpa [imp_iff_not_or] using hlimit
  · rintro ⟨⟨hall, hpages⟩, hmore, hlimit, rfl⟩
    exact ⟨_, ⟨hall, rfl⟩, hpages, more, hmore, by
      simpa [imp_iff_not_or] using hlimit, rfl⟩

/-! ### The whole listing -/

theorem Ends.cons (h : listing.Ends (page + 1) last)
    (haccepted : listing.Accepted page) (hmore : listing.More page) :
    listing.Ends page last where
  reached := Nat.le_of_succ_le h.reached
  bounded := h.bounded
  accepted := by
    intro other hfirst hlast
    rcases Nat.eq_or_lt_of_le hfirst with rfl | hlater
    · exact haccepted
    · exact h.accepted other hlater hlast
  more := by
    intro other hfirst hlast
    rcases Nat.eq_or_lt_of_le hfirst with rfl | hlater
    · exact hmore
    · exact h.more other hlater hlast
  done := h.done

theorem Ends.unique {other : Nat} (h : listing.Ends page last)
    (hother : listing.Ends page other) : last = other := by
  rcases Nat.lt_trichotomy last other with hlt | heq | hgt
  · exact absurd (hother.more last h.reached hlt) h.done
  · exact heq
  · exact absurd (h.more other hother.reached hgt) hother.done

theorem Ends.tail (h : listing.Ends page last) (hlast : page < last) :
    listing.Ends (page + 1) last where
  reached := hlast
  bounded := h.bounded
  accepted other hfirst := h.accepted other (Nat.le_of_succ_le hfirst)
  more other hfirst := h.more other (Nat.le_of_succ_le hfirst)
  done := h.done

/-- What is yielded are the pages up to the first that nothing follows. -/
theorem paginated_honest (left : Nat) (hpage : 1 ≤ page)
    (hleft : left + page = maxPaginatedPages + 1)
    {records : List DocumentInfo} :
    paginatedDocuments workspace listing.request left page = some records ↔
      ∃ last, listing.Ends page last ∧ records =
        (readFrom listing.size listing.documents page
          (last + 1 - page)).filterMap (documentInfo workspace) := by
  induction left generalizing page records with
  | zero =>
      rw [paginatedDocuments]
      constructor
      · exact fun h => nomatch h
      · rintro ⟨last, hends, -⟩
        have := hends.reached
        have := hends.bounded
        omega
  | succ left ih =>
      have hnext := fun records => @ih (page + 1) (Nat.le_succ_of_le hpage)
        (by omega) records
      rw [paginatedDocuments, request]
      simp only [Option.bind_eq_bind, Option.bind_some,
        Option.bind_eq_some_iff, Prod.exists, readPage_honest hpage]
      constructor
      · rintro ⟨infos, more, ⟨haccepted, hmore, -, rfl⟩, hrest⟩
        cases more with
        | false =>
            have hdone : ¬ listing.More page := fun h =>
              nomatch hmore.mpr h
            refine ⟨page, ⟨Nat.le_refl page, by omega, ?_, ?_, hdone⟩, ?_⟩
            · intro other hfirst hlast
              rw [Nat.le_antisymm hlast hfirst]
              exact haccepted
            · intro other hfirst hlast
              exact absurd hlast (Nat.not_lt_of_le hfirst)
            · rw [Nat.add_sub_cancel_left, readFrom_succ]
              simpa [readFrom] using hrest.symm
        | true =>
            simp only [if_true, Option.bind_eq_some_iff] at hrest
            obtain ⟨rest, hread, hrecords⟩ := hrest
            obtain ⟨last, hends, rfl⟩ := (hnext rest).mp hread
            refine ⟨last, hends.cons haccepted (hmore.mp rfl), ?_⟩
            have hreached := hends.reached
            have hcount : last + 1 - page = (last + 1 - (page + 1)) + 1 := by
              omega
            rw [hcount, readFrom_succ, List.filterMap_append]
            exact (Option.some.inj hrecords).symm
      · rintro ⟨last, hends, rfl⟩
        have haccepted := hends.accepted page (Nat.le_refl page) hends.reached
        have hbounded := hends.bounded
        rcases Nat.eq_or_lt_of_le hends.reached with rfl | hlast
        · have hdone := hends.done
          refine ⟨_, false, ⟨haccepted, ?_, by simp, rfl⟩, ?_⟩
          · simp [hdone]
          · rw [Nat.add_sub_cancel_left, readFrom_succ]
            simp [readFrom]
        · have hmore := hends.more page (Nat.le_refl page) hlast
          have hread := (hnext _).mpr ⟨last, hends.tail hlast, rfl⟩
          have hcount : last + 1 - page = (last + 1 - (page + 1)) + 1 := by
            omega
          refine ⟨_, true, ⟨haccepted, by simp [hmore], by omega, rfl⟩, ?_⟩
          rw [if_pos rfl, hread, hcount, readFrom_succ,
            List.filterMap_append]
          rfl

variable {last : Nat} {upstreamId : String} {records : List DocumentInfo}

theorem listing_honest :
    paginatedDocuments workspace listing.request maxPaginatedPages 1 =
        some records ↔
      ∃ last, listing.Ends 1 last ∧ records =
        (readPages listing.size listing.documents last).filterMap
          (documentInfo workspace) := by
  have hlisting := @paginated_honest workspace listing 1 maxPaginatedPages
    (Nat.le_refl 1) rfl records
  simp only [Nat.add_sub_cancel] at hlisting
  exact hlisting

theorem More.full (h : listing.More page) :
    page * listing.size ≤ (listing.documents page).length := by
  rw [More] at h
  split at h
  · exact Nat.le_of_lt h
  · exact h

theorem length_of_done (h : ¬ listing.More page) :
    (listing.documents page).length ≤ page * listing.size := by
  rw [More] at h
  split at h
  · exact Nat.le_of_not_lt h
  · exact Nat.le_of_not_le h

theorem documentInfo_id {document : Json} {info : DocumentInfo}
    (h : documentInfo workspace document = some info) :
    document.field "id" = some (.str info.upstreamDocumentId) ∧
      validDocumentAlias info.upstreamDocumentId = true ∧
      document.field "file_path" = some (.str info.filePath) := by
  have halias : ∀ {name value}, aliasField name document = some value →
      document.field name = some (.str value) ∧
        validDocumentAlias value = true := by
    intro name value hvalue
    rw [aliasField] at hvalue
    split at hvalue
    · next text hfield =>
        split at hvalue
        · next hvalid =>
            obtain rfl := Option.some.inj hvalue
            exact ⟨hfield, hvalid⟩
        · exact nomatch hvalue
    · exact nomatch hvalue
  rw [documentInfo] at h
  simp only [Option.bind_eq_bind, Option.bind_eq_some_iff] at h
  obtain ⟨id, hid, path, hpath, -, -, hinfo⟩ := h
  obtain rfl := Option.some.inj hinfo
  exact ⟨(halias hid).1, (halias hid).2, (halias hpath).1⟩

theorem Ends.accepted_page (h : listing.Ends 1 last) {document : Json}
    (hdocument : document ∈ readPages listing.size listing.documents last) :
    ∃ info, documentInfo workspace document = some info := by
  have hread : ∃ shown ∈ readPages listing.size listing.documents last,
      shown = document := ⟨document, hdocument, rfl⟩
  obtain ⟨page, hfirst, hlast, shown, hshown, rfl⟩ := mem_readPages.mp hread
  exact Option.isSome_iff_exists.mp
    ((h.accepted page hfirst hlast).1 shown hshown)

/-- A record is yielded for each document that is shown. -/
theorem mem_records (h : listing.Ends 1 last) :
    (∃ record ∈ (readPages listing.size listing.documents last).filterMap
        (documentInfo workspace), record.upstreamDocumentId = upstreamId) ↔
      ∃ page, 1 ≤ page ∧ page ≤ last ∧ listing.shows upstreamId page := by
  apply Iff.trans _ mem_readPages
  constructor
  · rintro ⟨record, hrecord, rfl⟩
    obtain ⟨document, hdocument, hinfo⟩ := List.mem_filterMap.mp hrecord
    exact ⟨document, hdocument, (documentInfo_id hinfo).1⟩
  · rintro ⟨document, hdocument, hid⟩
    obtain ⟨info, hinfo⟩ := h.accepted_page hdocument
    have hsame := (documentInfo_id hinfo).1.symm.trans hid
    refine ⟨info, List.mem_filterMap.mpr ⟨document, hdocument, hinfo⟩, ?_⟩
    exact Json.str.inj (Option.some.inj hsame)

/-- A document that stays is shown, unless it is carried over a page
boundary. -/
theorem Steady.shows_of_stays (h : listing.Steady)
    (hends : listing.Ends 1 last) (hvalid : validDocumentAlias upstreamId = true)
    (hstays : listing.Stays last upstreamId) :
    ∃ page, 1 ≤ page ∧ page ≤ last ∧ listing.shows upstreamId page := by
  by_contra hnone
  push Not at hnone
  have hjumps := jumps_of_not_shown hends.reached (length_of_done hends.done)
    (hstays 1 (Nat.le_refl 1) hends.reached) hnone
  obtain ⟨page, hfirst, hlast, hshown⟩ := h.kept last upstreamId hends hvalid
    hstays hjumps
  exact hnone page hfirst hlast hshown

theorem records_length (hends : listing.Ends 1 last) :
    ((readPages listing.size listing.documents last).filterMap
        (documentInfo workspace)).length =
      max (listing.documents last).length ((last - 1) * listing.size) := by
  have hall : ((readPages listing.size listing.documents last).filterMap
      (documentInfo workspace)).length =
        (readPages listing.size listing.documents last).length := by
    rw [List.filterMap_length_eq_length]
    intro document hdocument
    obtain ⟨info, hinfo⟩ := hends.accepted_page hdocument
    simp [hinfo]
  rw [hall]
  exact readPages_length hends.reached
    (fun page hfirst hlast => (hends.more page hfirst hlast).full)
    (length_of_done hends.done)

/-! ### The probe -/

theorem present_iff {client : Client} {request : Nat → Option Json}
    {docIds found : List String} :
    documentIdsPresent client workspace request docIds = some found ↔
      (validatedAliases docIds && client.ready workspace) = true ∧
        ∃ records, paginatedDocuments workspace request maxPaginatedPages 1 =
            some records ∧
          found = ((records.map (·.upstreamDocumentId)).filter
            (docIds.contains ·)).dedup := by
  rw [documentIdsPresent]
  simp only [Option.bind_eq_bind, Option.bind_eq_some_iff, guard_eq_some,
    exists_const]
  constructor
  · rintro ⟨hready, records, hlisting, hfound⟩
    exact ⟨hready, records, hlisting, (Option.some.inj hfound).symm⟩
  · rintro ⟨hready, records, hlisting, rfl⟩
    exact ⟨hready, records, hlisting, rfl⟩

theorem mem_found {docIds : List String} :
    upstreamId ∈ ((records.map (·.upstreamDocumentId)).filter
        (docIds.contains ·)).dedup ↔
      upstreamId ∈ docIds ∧
        ∃ record ∈ records, record.upstreamDocumentId = upstreamId := by
  rw [List.mem_dedup, List.mem_filter, List.mem_map, List.contains_iff_mem,
    and_comm]

theorem Sound.steady (h : listing.Sound) : listing.Steady where
  kept := by
    intro last upstreamId hends hvalid hstays _
    have hlisting := listing_honest.mpr ⟨last, hends, rfl⟩
    have hready : (validatedAliases [upstreamId] &&
        Client.ready ⟨true, fun _ => true⟩ workspace) = true := by
      simp [validatedAliases, maxAliasCount, hvalid, Client.ready,
        listing.named]
    have hfound := present_iff.mpr ⟨hready, _, hlisting, rfl⟩
    have hmem := h.reported _ _ _ last upstreamId hfound hends
      (List.mem_singleton_self upstreamId) hstays
    exact (mem_records hends).mp (mem_found.mp hmem).2
  totals := by
    intro last page hends hfirst hlast hreports
    have hlisting := listing_honest.mpr ⟨last, hends, rfl⟩
    have htotal := intField_honest (listing.honest page hfirst).totalCount
    rw [hreports, if_pos rfl] at htotal
    have hcount := h.counted _ last page _ hlisting hends hfirst hlast htotal
    rw [records_length hends] at hcount
    exact (Int.ofNat_inj.mp hcount).symm

theorem Steady.sound (h : listing.Steady) : listing.Sound where
  reported := by
    intro client docIds found last upstreamId hfound hends hmem hstays
    obtain ⟨hready, records, hlisting, rfl⟩ := present_iff.mp hfound
    obtain ⟨other, hother, rfl⟩ := listing_honest.mp hlisting
    obtain rfl := hends.unique hother
    have hvalid : validDocumentAlias upstreamId = true := by
      simp only [Bool.and_eq_true, validatedAliases, List.all_eq_true]
        at hready
      exact hready.1.2 upstreamId hmem
    have hshown := h.shows_of_stays hends hvalid hstays
    exact mem_found.mpr ⟨hmem, (mem_records hends).mpr hshown⟩
  counted := by
    intro records last page count hlisting hends hfirst hlast hcount
    obtain ⟨other, hother, rfl⟩ := listing_honest.mp hlisting
    obtain rfl := hends.unique hother
    have htotal := intField_honest (listing.honest page hfirst).totalCount
    rw [hcount] at htotal
    split at htotal
    · next hreports =>
        obtain rfl := Option.some.inj (Option.some.inj htotal)
        rw [records_length hends,
          h.totals last page hends hfirst hlast hreports]
    · exact nomatch htotal

end Listing

/-! ### Reconciliation -/

/-- What `reconcile_delete` learns from LightRAG: the listings it resolves the
aliases of the document in and looks for their ids in, and its other calls. -/
structure Probe (workspace : String) where
  client : Client
  /-- `_rag_document_ids`, none where a binding is malformed. -/
  aliases : Option (List String)
  resolving : Listing workspace
  probing : Listing workspace
  /-- Whether the retried delete is started or busy, none where it raises. -/
  retry : Option (Bool × Bool)
  sourceRemoved : Bool

namespace Probe

variable {workspace : String} (probe : Probe workspace)

/-- `_resolve_rag_document_ids`. -/
def resolvedIds : Option (List String) := do
  let aliases ← probe.aliases
  let resolved ← resolveDocumentIds probe.client workspace
    probe.resolving.request aliases
  guard (resolved.all validDocumentAlias)
  some (resolved.dedup.insertionSort (· ≤ ·))

def presentIds : Option (List String) := do
  let resolved ← probe.resolvedIds
  if resolved = [] then some []
  else
    let present ← documentIdsPresent probe.client workspace
      probe.probing.request resolved
    guard (present.all resolved.contains)
    some present

/-- How the calls of `reconcile_delete` end. -/
def outcome : Upstream :=
  match probe.presentIds with
  | none => .unavailable
  | some [] => if probe.sourceRemoved then .absent else .sourceUnavailable
  | some _ => match probe.retry with
    | some (true, _) => .started
    | some (false, true) => .busy
    | _ => .unavailable

/-- An alias of the document is the id or the file path of a record. -/
def names (aliases : List String) (document : Json) : Prop :=
  ∃ name ∈ aliases, document.field "id" = some (.str name) ∨
    document.field "file_path" = some (.str name)

/-- The upstream document, under an id that the Manager accepts, is there at
every request of both listings. -/
structure Persists (upstreamId : String) : Prop where
  valid : validDocumentAlias upstreamId = true
  resolving : ∀ last page, probe.resolving.Ends 1 last → 1 ≤ page →
    page ≤ last → ∃ document ∈ probe.resolving.documents page,
      document.field "id" = some (.str upstreamId) ∧
        ∀ aliases, probe.aliases = some aliases → names aliases document
  probing : ∀ last, probe.probing.Ends 1 last →
    probe.probing.Stays last upstreamId

/-- Whatever else happens meanwhile, a reconciliation that asks this upstream
does not publish the deletion of a document that is still there. -/
def Safe : Prop :=
  ∀ state actions id upstreamId,
    (∀ operationId, valueAt id state.requests ≠
      some (.reconcileAbsent operationId)) →
    (∀ upstream, .request id (.probeReconcile upstream) ∈ actions →
      upstream = probe.outcome) →
    probe.Persists upstreamId →
    publishes (machine.run state actions) id = false

variable {probe} {upstreamId : String}

open Listing

theorem resolved_mem (hsteady : probe.resolving.Steady)
    (hpersists : probe.Persists upstreamId) {resolved : List String}
    (hresolved : probe.resolvedIds = some resolved) :
    upstreamId ∈ resolved := by
  rw [resolvedIds] at hresolved
  simp only [Option.bind_eq_bind, Option.bind_eq_some_iff, guard_eq_some,
    exists_const] at hresolved
  obtain ⟨aliases, haliases, ids, hids, -, hsorted⟩ := hresolved
  obtain rfl := Option.some.inj hsorted
  rw [List.mem_insertionSort, List.mem_dedup]
  rw [resolveDocumentIds] at hids
  simp only [Option.bind_eq_bind, Option.bind_eq_some_iff, guard_eq_some,
    exists_const] at hids
  obtain ⟨-, records, hlisting, -, -, hids⟩ := hids
  obtain rfl := Option.some.inj hids
  obtain ⟨last, hends, rfl⟩ := listing_honest.mp hlisting
  have hstays : probe.resolving.Stays last upstreamId := by
    intro page hfirst hlast
    obtain ⟨document, hdocument, hid, -⟩ :=
      hpersists.resolving last page hends hfirst hlast
    exact ⟨document, hdocument, hid⟩
  obtain ⟨page, hfirst, hlast, shown, hshown, hid⟩ :=
    hsteady.shows_of_stays hends hpersists.valid hstays
  obtain ⟨document, hdocument, hsame, hnames⟩ :=
    hpersists.resolving last page hends hfirst hlast
  have hlisted : shown ∈ probe.resolving.documents page :=
    (Text.slice_infix _ _ _).subset hshown
  obtain rfl := List.inj_on_of_nodup_map (probe.resolving.distinct page) hlisted
    hdocument (hid.trans hsame.symm)
  obtain ⟨name, hname, halias⟩ := hnames aliases haliases
  obtain ⟨info, hinfo⟩ := Option.isSome_iff_exists.mp
    ((hends.accepted page hfirst hlast).1 shown hshown)
  obtain ⟨hinfoId, -, hinfoPath⟩ := documentInfo_id hinfo
  have hupstream : info.upstreamDocumentId = upstreamId :=
    Json.str.inj (Option.some.inj (hinfoId.symm.trans hid))
  have hmatched : info ∈ matched ((readPages probe.resolving.size
      probe.resolving.documents last).filterMap (documentInfo workspace))
        name := by
    have hpage : shown ∈ readPages probe.resolving.size
        probe.resolving.documents last :=
      List.mem_flatMap.mpr
        ⟨page, List.mem_range'_1.mpr ⟨hfirst, by omega⟩, hshown⟩
    apply List.mem_filter.mpr
      ⟨List.mem_filterMap.mpr ⟨shown, hpage, hinfo⟩, _⟩
    rcases halias with halias | halias
    · have := Json.str.inj (Option.some.inj (hinfoId.symm.trans halias))
      simp [this]
    · have := Json.str.inj (Option.some.inj (hinfoPath.symm.trans halias))
      simp [this]
  rw [List.mem_insertionSort, List.mem_dedup, List.mem_flatMap]
  refine ⟨info, List.mem_flatMap.mpr ⟨name, hname, hmatched⟩, ?_⟩
  rw [hupstream]
  exact List.mem_cons_self

/-- What persists is found, so the reconciliation does not go on. -/
theorem outcome_ne_absent (hresolving : probe.resolving.Steady)
    (hprobing : probe.probing.Steady)
    (hpersists : probe.Persists upstreamId) : probe.outcome ≠ .absent := by
  have hpresent : ∀ found, probe.presentIds = some found → found ≠ [] := by
    rintro found hfound rfl
    rw [presentIds, Option.bind_eq_bind, Option.bind_eq_some_iff] at hfound
    obtain ⟨resolved, hresolved, hfound⟩ := hfound
    have hmem := resolved_mem hresolving hpersists hresolved
    rw [if_neg (List.ne_nil_of_mem hmem)] at hfound
    simp only [Option.bind_eq_bind, Option.bind_eq_some_iff, guard_eq_some,
      exists_const, Option.some.injEq] at hfound
    obtain ⟨present, hpresent, -, rfl⟩ := hfound
    obtain ⟨-, records, hlisting, -⟩ := present_iff.mp hpresent
    obtain ⟨last, hends, -⟩ := listing_honest.mp hlisting
    have hreported := hprobing.sound.reported _ _ _ last upstreamId hpresent
      hends hmem (hpersists.probing last hends)
    exact absurd hreported List.not_mem_nil
  rw [outcome]
  split
  · exact nofun
  · next hnil => exact absurd rfl (hpresent [] hnil)
  · split <;> exact nofun

end Probe

/-- A reconciliation comes to publish only when its probe found nothing. -/
theorem request_absent {current : Option Request} {action : RequestAction}
    (h : (request store current action).2.1 =
      some (.reconcileAbsent operationId)) :
    current = some (.reconcileAbsent operationId) ∨
      action = .probeReconcile .absent := by
  unfold request at h
  split at h
  · split at h
    · exact nomatch h
    · split at h <;> exact nomatch h
  · split at h <;> exact nomatch h
  · simp only at h
    split at h <;> exact nomatch h
  · split at h
    · exact nomatch h
    · split at h <;> exact nomatch h
  · exact nomatch h
  · exact nomatch h
  · obtain ⟨document, -, hread⟩ := Option.map_eq_some_iff.mp h
    exact nomatch hread
  · split at h
    · exact nomatch h
    · split at h
      · split at h <;> exact nomatch h
      · split at h <;> exact nomatch h
  · next found =>
      split at h
      · next habsent => exact Or.inr (congrArg _ habsent)
      · exact nomatch h
  · split at h
    · exact nomatch h
    · split at h <;> exact nomatch h
  · exact nomatch h
  · exact nomatch h
  · exact Or.inl h

theorem absent_step {action : Action} {id : Nat}
    (h : valueAt id (machine.next state action).requests =
      some (.reconcileAbsent operationId)) :
    valueAt id state.requests = some (.reconcileAbsent operationId) ∨
      action = .request id (.probeReconcile .absent) := by
  change valueAt id (Knowledge.step state action).1.requests = _ at h
  cases action with
  | create documentId parsing jobId now => exact Or.inl h
  | reindex key operationId jobId now => exact Or.inl h
  | claim owner jobId now =>
      rw [Knowledge.step] at h
      split at h <;> exact Or.inl h
  | worker owner action =>
      rw [Knowledge.step] at h
      split at h <;> exact Or.inl h
  | request other action =>
      simp only [Knowledge.step, valueAt_put] at h
      split at h
      · next hsame =>
          rcases request_absent h with hbefore | hprobe
          · exact Or.inl (hsame ▸ hbefore)
          · exact Or.inr (by rw [hsame, hprobe])
      · exact Or.inl h
  | backfill employeeId => exact Or.inl h
  | setPolicy employeeId enabled revoke => exact Or.inl h

theorem absent_run {actions : List Action} {id : Nat}
    (h : valueAt id (machine.run state actions).requests =
      some (.reconcileAbsent operationId)) :
    valueAt id state.requests = some (.reconcileAbsent operationId) ∨
      .request id (.probeReconcile .absent) ∈ actions := by
  induction actions generalizing state with
  | nil => exact Or.inl h
  | cons action actions ih =>
      rcases ih h with hnext | hlater
      · rcases absent_step hnext with hbefore | rfl
        · exact Or.inl hbefore
        · exact Or.inr List.mem_cons_self
      · exact Or.inr (List.mem_cons_of_mem _ hlater)

theorem Probe.safe {workspace : String} {probe : Probe workspace}
    (hresolving : probe.resolving.Steady) (hprobing : probe.probing.Steady) :
    probe.Safe := by
  intro state actions id upstreamId hfresh hprobed hpersists
  rw [publishes]
  split
  · next operationId hphase =>
      rcases absent_run hphase with hbefore | hprobe
      · exact absurd hbefore (hfresh operationId)
      · exact absurd (hprobed .absent hprobe).symm
          (Probe.outcome_ne_absent hresolving hprobing hpersists)
  · rfl

/-- What the Manager concludes from a listing to resolve and one to probe. -/
structure AbsenceSound {workspace : String}
    (resolving probing : Listing workspace) : Prop where
  resolved : resolving.Sound
  probed : probing.Sound
  reconciled : ∀ probe : Probe workspace, probe.resolving = resolving →
    probe.probing = probing → probe.Safe

theorem absence_sound_iff {workspace : String}
    (resolving probing : Listing workspace) :
    AbsenceSound resolving probing ↔ resolving.Steady ∧ probing.Steady := by
  constructor
  · exact fun h => ⟨h.resolved.steady, h.probed.steady⟩
  · rintro ⟨hresolving, hprobing⟩
    constructor
    · exact hresolving.sound
    · exact hprobing.sound
    · rintro probe rfl rfl
      exact Probe.safe hresolving hprobing

namespace AbsenceWitness

def document (name : String) : Json :=
  .object [("id", .str name), ("file_path", .str (name ++ ".md"))]

theorem document_id (name : String) :
    (document name).field "id" = some (.str name) := rfl

def reports (size page : Nat) (documents : List Json) : Json :=
  .object [("documents", .list (pageOf size page documents)),
    ("pagination", .object [("page", .int page), ("page_size", .int size),
      ("total_count", .int documents.length),
      ("total_pages", .int (expectedPages documents.length size)),
      ("has_next", .bool (decide (page * size < documents.length)))])]

theorem reports_honest (size page : Nat) (documents : List Json) :
    Honest size page documents (reports size page documents) where
  listed := rfl
  paged := rfl
  pageNumber := Or.inr rfl
  pageSize := Or.inl rfl
  totalPages := Or.inr rfl
  totalCount := Or.inr rfl
  hasNext := Or.inr rfl

/-- Two pages of two: the newest document is removed after the first. -/
def moving : Listing "w" where
  named := by decide
  size := 2
  pos := by decide
  capped := by decide
  documents page :=
    if page = 1 then [document "a", document "b", document "c"]
    else [document "b", document "c"]
  distinct := by
    intro page
    split <;> simp [document_id]
  payload page := reports 2 page
    (if page = 1 then [document "a", document "b", document "c"]
    else [document "b", document "c"])
  honest page _ := reports_honest 2 page _

def still : Listing "w" where
  named := by decide
  size := 2
  pos := by decide
  capped := by decide
  documents _ := [document "a", document "b", document "c"]
  distinct _ := by simp [document_id]
  payload page := reports 2 page [document "a", document "b", document "c"]
  honest page _ := reports_honest 2 page _

def probe : Probe "w" where
  client := ⟨true, fun _ => true⟩
  aliases := some ["c.md"]
  resolving := still
  probing := moving
  retry := none
  sourceRemoved := true

theorem moving_ends : moving.Ends 1 2 where
  reached := by decide
  bounded := by decide
  accepted := by
    intro page hfirst hlast
    obtain rfl | rfl : page = 1 ∨ page = 2 := by omega
    · exact ⟨by decide, by decide⟩
    · exact ⟨by decide, by decide⟩
  more := by
    intro page hfirst hlast
    obtain rfl : page = 1 := by omega
    unfold Listing.More
    decide
  done := by
    unfold Listing.More
    decide

theorem moving_stays (last : Nat) : moving.Stays last "c" := by
  intro page _ _
  refine ⟨document "c", ?_, document_id "c"⟩
  by_cases hpage : page = 1
  · simp [moving, hpage]
  · simp [moving, hpage]

theorem probe_persists : probe.Persists "c" where
  valid := by decide
  resolving := by
    intro last page _ _ _
    refine ⟨document "c", by simp [probe, still], document_id "c", ?_⟩
    intro aliases haliases
    obtain rfl := Option.some.inj haliases
    exact ⟨"c.md", List.mem_cons_self, Or.inr rfl⟩
  probing last _ := moving_stays last

/-- A deletion that was started, and its reconciliation up to the probe. -/
def actions : List Action :=
  DeletionWitness.published ++ DeletionWitness.requested ++
    [.request 1 .moveDelete, .request 1 .revokeDelete,
      .request 1 (.answerDelete .started), .request 2 .readReconcile,
      .request 2 (.admitReconcile none), .request 2 (.probeReconcile .absent)]

theorem probe_outcome : probe.outcome = .absent := by decide

end AbsenceWitness

open AbsenceWitness in
/-- The oldest document moves up to the page that was read already: the probe
does not see it, and its deletion is published. -/
theorem removal_hides_document :
    ¬ AbsenceSound still moving ∧ ¬ moving.Sound ∧ ¬ probe.Safe := by
  have hunseen : ¬ moving.Sound := by
    intro h
    have hfound : documentIdsPresent probe.client "w" moving.request ["c"] =
        some [] := by decide
    have hreported := h.reported _ _ _ 2 "c" hfound moving_ends
      List.mem_cons_self (moving_stays 2)
    exact absurd hreported List.not_mem_nil
  refine ⟨fun h => hunseen h.probed, hunseen, ?_⟩
  intro h
  have hpublishes : publishes (machine.run State.empty actions) 2 = true := by
    decide
  have hprobed : ∀ upstream,
      .request 2 (.probeReconcile upstream) ∈ actions →
        upstream = probe.outcome := by
    intro upstream hmem
    rw [probe_outcome]
    simpa [actions, DeletionWitness.published, DeletionWitness.requested]
      using hmem
  have hsafe := h State.empty actions 2 "c" (fun _ => nofun) hprobed
    probe_persists
  rw [hpublishes] at hsafe
  exact nomatch hsafe

end AiTeam.Knowledge
