/-
What an authorization establishes.
-/
import AiTeam.Rag.Access

namespace AiTeam.Rag

open Knowledge (BindingStatus)

variable {world : World} {claims : Claims} {tenantId employeeId : String}

/-- The cases of a bind that succeeds. -/
theorem ok_of_bind {E A B : Type} {x : Except E A} {f : A → Except E B}
    {b : B} (h : (x >>= f) = .ok b) : ∃ a, x = .ok a ∧ f a = .ok b := by
  cases x with
  | error error => exact nomatch h
  | ok a => exact ⟨a, rfl, h⟩

/-! ### Spaces -/

/-- The employee may search the space. -/
def AuthorizedSpace (world : World) (tenantId employeeId spaceId : String) :
    Prop :=
  world.isEnterprise tenantId spaceId = true ∨
    ∃ row ∈ world.byEmployee tenantId employeeId,
      validBinding tenantId employeeId spaceId row = true

theorem authorizeSpace_ok {spaceId : String} {handle : RagHandle}
    {bindings : List DocumentBinding}
    (h : authorizeSpace world tenantId employeeId spaceId =
      .ok (handle, bindings)) :
    AuthorizedSpace world tenantId employeeId spaceId ∧
      handle.tenantId = tenantId ∧ handle.knowledgeSpaceId = spaceId ∧
      bindings = (world.byEmployee tenantId employeeId).filter
        (validBinding tenantId employeeId spaceId) := by
  rw [authorizeSpace] at h
  split at h
  · exact nomatch h
  · next hbound =>
      split at h
      · exact nomatch h
      · obtain ⟨found, -, hrest⟩ := ok_of_bind h
        split at hrest
        · exact nomatch hrest
        · split at hrest
          · exact nomatch hrest
          · next hown =>
              split at hrest
              · injection hrest with hpair
                obtain ⟨rfl, rfl⟩ := Prod.mk.inj hpair
                simp only [ne_eq, not_or, Classical.not_not] at hown
                refine ⟨?_, hown.1, hown.2, rfl⟩
                by_cases hempty : (world.byEmployee tenantId
                    employeeId).filter (validBinding tenantId employeeId
                      spaceId) = []
                · refine .inl ?_
                  by_contra hnot
                  exact hbound ⟨hempty, Bool.not_eq_true _ ▸ hnot⟩
                · obtain ⟨row, hrow⟩ := List.exists_mem_of_ne_nil _ hempty
                  obtain ⟨hmem, hvalid⟩ := List.mem_filter.mp hrow
                  exact .inr ⟨row, hmem, hvalid⟩
              · exact nomatch hrest

theorem authorizeSpaces_ok {refs : List String} {handles : List RagHandle}
    {bindings : List DocumentBinding}
    (h : authorizeSpaces world tenantId employeeId refs =
      .ok (handles, bindings)) :
    (∀ handle ∈ handles, handle.tenantId = tenantId ∧
      AuthorizedSpace world tenantId employeeId handle.knowledgeSpaceId) ∧
    ∀ row ∈ bindings, row ∈ world.byEmployee tenantId employeeId := by
  induction refs generalizing handles bindings with
  | nil =>
      injection h with hpair
      obtain ⟨rfl, rfl⟩ := Prod.mk.inj hpair
      exact ⟨fun _ hhandle => (nomatch hhandle),
        fun _ hrow => (nomatch hrow)⟩
  | cons spaceId rest ih =>
      rw [authorizeSpaces] at h
      obtain ⟨⟨handle, own⟩, hown, h⟩ := ok_of_bind h
      obtain ⟨⟨others, bound⟩, hothers, h⟩ := ok_of_bind h
      injection h with hpair
      obtain ⟨rfl, rfl⟩ := Prod.mk.inj hpair
      obtain ⟨hspace, htenant, hid, rfl⟩ := authorizeSpace_ok hown
      obtain ⟨hhandles, hbindings⟩ := ih hothers
      constructor
      · intro other hother
        rcases List.mem_cons.mp hother with rfl | hother
        · rw [hid]
          exact ⟨htenant, hspace⟩
        · exact hhandles other hother
      · intro row hrow
        rcases List.mem_append.mp hrow with hrow | hrow
        · exact (List.mem_filter.mp hrow).1
        · exact hbindings row hrow

/-! ### Authorization -/

/-- What an authorization is made of; the operation is only checked. -/
theorem authorize_ok {operation : Option String} {auth : Authorized}
    (h : authorize world claims employeeId operation = .ok auth) :
    ∃ config snapshot policy handles bindings,
      world.employee claims.tenantId employeeId = some config ∧
      world.snapshot claims.tenantId claims.userId employeeId =
        .ok snapshot ∧
      resolve world claims.tenantId employeeId config.tools config.version =
        .ok policy ∧
      authorizeSpaces world claims.tenantId employeeId
        (spaceRefs world claims.tenantId snapshot) =
          .ok (handles, bindings) ∧
      auth = ⟨claims.tenantId, employeeId, handles, bindings, policy⟩ := by
  rw [authorize] at h
  split at h
  · exact nomatch h
  · obtain ⟨-, -, h⟩ := ok_of_bind h
    split at h
    · exact nomatch h
    · next config hconfig =>
        split at h
        · exact nomatch h
        · obtain ⟨snapshot, hsnapshot, h⟩ := ok_of_bind h
          split at h
          · exact nomatch h
          · obtain ⟨policy, hpolicy, h⟩ := ok_of_bind h
            obtain ⟨-, -, h⟩ := ok_of_bind h
            obtain ⟨-, -, h⟩ := ok_of_bind h
            dsimp only at h
            split at h
            · exact nomatch h
            · obtain ⟨⟨handles, bindings⟩, hspaces, h⟩ := ok_of_bind h
              injection h with hauth
              exact ⟨config, snapshot, policy, handles, bindings, hconfig,
                hsnapshot, hpolicy, hspaces, hauth.symm⟩

/-! ### Policies -/

/-- A binding's entry in the fingerprint denies its document. -/
def deniesEntry
    (entry : String × BindingStatus × Option Bool × Nat × Option Int) :
    Bool :=
  entry.2.2.1 == some false || entry.2.2.2.2.isSome ||
    entry.2.1 == .revoked

/-- The fingerprint says which documents are denied. -/
theorem resolve_denied {tools : List String} {version : Nat}
    {policy : KnowledgeAccess}
    (h : resolve world tenantId employeeId tools version = .ok policy)
    (documentId : String) :
    documentId ∈ policy.deniedDocuments ↔
      ∃ entry ∈ policy.fingerprint.documents,
        entry.1 = documentId ∧ deniesEntry entry = true := by
  rw [resolve] at h
  dsimp only at h
  split at h
  · injection h with hpolicy
    rw [← hpolicy]
    simp only [sortedEntries, List.mem_insertionSort, List.mem_map,
      List.mem_filter]
    constructor
    · rintro ⟨row, ⟨hrow, hdenies⟩, rfl⟩
      exact ⟨row.entry, ⟨row, hrow, rfl⟩, rfl, hdenies⟩
    · rintro ⟨-, ⟨row, hrow, rfl⟩, rfl, hdenies⟩
      exact ⟨row, ⟨hrow, hdenies⟩, rfl⟩
  · exact nomatch h

theorem permits_of_fingerprint {world' : World}
    {operation other : Option String} {auth auth' : Authorized}
    (h : authorize world claims employeeId operation = .ok auth)
    (h' : authorize world' claims employeeId other = .ok auth')
    (hsame : auth'.policy.fingerprint = auth.policy.fingerprint)
    (documentId : String) :
    auth'.policy.permitsDocument documentId =
      auth.policy.permitsDocument documentId := by
  obtain ⟨config, snapshot, policy, handles, bindings, -, -, hpolicy, -,
    rfl⟩ := authorize_ok h
  obtain ⟨config', snapshot', policy', handles', bindings', -, -, hpolicy', -,
    rfl⟩ := authorize_ok h'
  have hiff : documentId ∈ policy'.deniedDocuments ↔
      documentId ∈ policy.deniedDocuments := by
    rw [resolve_denied hpolicy', resolve_denied hpolicy, hsame]
  simp only [KnowledgeAccess.permitsDocument, List.contains_eq_mem, hiff]

end AiTeam.Rag
