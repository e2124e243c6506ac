/-
What a read of the login vault returns: the payload of the record it selects.
-/
import AiTeam.Vault.Identity

namespace AiTeam.Vault

variable {Key Envelope : Type} {platform : Platform Key Envelope}
  {state : State Key Envelope}

/-- The result of a read of either vault. -/
def read (platform : Platform Key Envelope) (state : State Key Envelope)
    (draw : Draw Key) (enterprise account : Option String) :
    Kind → Except String (Option String)
  | .session => (sessionRead platform state draw enterprise account).2
  | .credentials => (credentialsRead platform state draw enterprise account).2

/-- The record decrypted. -/
def opened (platform : Platform Key Envelope) (masterKey : Key) (kind : Kind)
    (entry : String × StoredRecord Envelope) :
    Except String (Option String) :=
  (platform.decrypt masterKey (context kind entry.1) entry.2.envelope).map some

def openedOrNone (platform : Platform Key Envelope) (masterKey : Key)
    (kind : Kind) (entry : Option (String × StoredRecord Envelope)) :
    Except String (Option String) :=
  (entry.map (opened platform masterKey kind)).getD (.ok none)

/-- What is read in place of an identity that is not stored. -/
def substitute (platform : Platform Key Envelope) (state : State Key Envelope)
    (identity : Identity) : Kind → Option (String × StoredRecord Envelope)
  | .session => newest ((records state .session).filter fun entry =>
      (recordIdentity platform entry.2).account == identity.account)
  | .credentials =>
      entryAt (fallback platform identity).key (records state .credentials)

/-- The record a read that names both an enterprise and an account selects. -/
def selected (platform : Platform Key Envelope) (state : State Key Envelope)
    (kind : Kind) (identity : Identity) :
    Option (String × StoredRecord Envelope) :=
  (entryAt identity.key (records state kind)).or
    (substitute platform state identity kind)

theorem entryAt_nil (key : String) :
    entryAt key ([] : Records Envelope) = none := rfl

variable {entry : String × StoredRecord Envelope}
  {vault : CredentialsVault Envelope} {kind : Kind}
  {enterprise account : Option String} {payload : String}

theorem entryAt_some {key : String} {records : Records Envelope}
    (h : entryAt key records = some entry) :
    entry.1 = key ∧ valueAt key records = some entry.2 ∧ entry ∈ records := by
  rw [entryAt, Option.map_eq_some_iff] at h
  obtain ⟨record, hvalue, rfl⟩ := h
  exact ⟨rfl, hvalue, lookup_mem (lookup_of_valueAt hvalue)⟩

theorem entryAt_of_valueAt {key : String} {records : Records Envelope}
    {record : StoredRecord Envelope} (h : valueAt key records = some record) :
    entryAt key records = some (key, record) := by
  rw [entryAt, h]
  rfl

theorem newest_mem {records : Records Envelope}
    {keep : String × StoredRecord Envelope → Bool}
    (h : newest (records.filter keep) = some entry) :
    entry ∈ records ∧ keep entry = true :=
  List.mem_filter.mp (OrderedMap.lastMax_mem h)

theorem activeOrNewest_mem {passes : StoredRecord Envelope → Bool}
    (h : activeOrNewest vault passes = some entry) :
    entry ∈ vault.entries ∧ passes entry.2 = true := by
  rw [activeOrNewest, Option.or_eq_some_iff] at h
  rcases h with hactive | ⟨_, hnewest⟩
  · rw [Option.filter_eq_some_iff, Option.bind_eq_some_iff] at hactive
    obtain ⟨⟨key, _, hentry⟩, hpasses⟩ := hactive
    exact ⟨(entryAt_some hentry).2.2, hpasses⟩
  · exact newest_mem hnewest

theorem selectCredentials_mem {enterprise account : String}
    (h : selectCredentials platform vault enterprise account = some entry) :
    entry ∈ vault.entries := by
  unfold selectCredentials at h
  split at h
  · rw [Option.or_eq_some_iff] at h
    rcases h with hexact | ⟨_, hfallback⟩
    · exact (entryAt_some hexact).2.2
    · exact (entryAt_some hfallback).2.2
  · repeat' split at h
    all_goals exact (activeOrNewest_mem h).1

theorem selectSession_mem {vault : SessionVault Envelope}
    {enterprise account : String}
    (h : selectSession platform vault enterprise account = some entry) :
    entry ∈ vault.sessions := by
  unfold selectSession at h
  split at h
  · next found hfound =>
      cases h
      exact (entryAt_some hfound).2.2
  · split at h
    · exact (newest_mem h).1
    · exact nomatch h

/-- What a stored record decrypts to. -/
theorem Holds.opens (h : Holds platform state.masterKey kind entry)
    (draw : Draw Key) :
    ∃ payload, opened platform (loadOrCreateMasterKey state draw) kind entry =
        .ok (some payload) ∧
      (payload = "" ∧ isTombstone entry.2 = true ∨
        isTombstone entry.2 = false ∧ identityOf platform kind payload =
          some (recordIdentity platform entry.2)) := by
  obtain ⟨key, salt, payload, hmaster, henvelope, hpayload⟩ := h
  refine ⟨payload, ?_, ?_⟩
  · rw [opened, loadOrCreateMasterKey, hmaster, Option.getD_some, henvelope,
      platform.roundTrip]
    rfl
  · rcases hpayload with hempty | ⟨hlive, hidentity, _⟩
    · exact Or.inl hempty
    · exact Or.inr ⟨hlive, hidentity⟩

theorem records_session {vault : SessionVault Envelope}
    (h : state.session = some vault) :
    records state .session = vault.sessions := by
  rw [records, h]
  rfl

theorem records_credentials (h : state.credentials = some vault) :
    records state .credentials = vault.entries := by
  rw [records, h]
  rfl

/-! ### Any read -/

/-- A session read decrypts a stored record or the session of nobody. -/
theorem sessionRead_ok {draw : Draw Key}
    (h : (sessionRead platform state draw enterprise account).2 =
      .ok (some payload)) :
    (∃ entry ∈ records state .session,
      opened platform (loadOrCreateMasterKey state draw) .session entry =
        .ok (some payload)) ∨
    ∃ vault ∈ state.session, ∃ envelope ∈ vault.activeEnvelope,
      (platform.decrypt (loadOrCreateMasterKey state draw) "session:active"
        envelope).map some = .ok (some payload) := by
  cases hfile : state.session with
  | none =>
      rw [sessionRead, hfile] at h
      exact nomatch h
  | some vault =>
      rw [records_session hfile]
      unfold sessionRead at h
      rw [hfile] at h
      simp only at h
      split at h
      · split at h
        · next key record hselect =>
            exact Or.inl ⟨(key, record), selectSession_mem hselect, h⟩
        · exact nomatch h
      · split at h
        · next key record hactive =>
            obtain ⟨active, _, hentry⟩ := Option.bind_eq_some_iff.mp hactive
            exact Or.inl ⟨(key, record), (entryAt_some hentry).2.2, h⟩
        · split at h
          · next envelope henvelope =>
              exact Or.inr ⟨vault, rfl, envelope, henvelope, h⟩
          · exact nomatch h

theorem credentialsRead_eq (hfile : state.credentials = some vault)
    (draw : Draw Key) (enterprise account : Option String) :
    (credentialsRead platform state draw enterprise account).2 =
      openedOrNone platform (loadOrCreateMasterKey state draw) .credentials
        (selectCredentials platform vault (filterText enterprise)
          (filterText account)) := by
  unfold credentialsRead
  rw [hfile]
  simp only
  cases selectCredentials platform vault (filterText enterprise)
    (filterText account) <;> rfl

theorem openedOrNone_ok {masterKey : Key}
    {entry : Option (String × StoredRecord Envelope)}
    (h : openedOrNone platform masterKey kind entry = .ok (some payload)) :
    ∃ found ∈ entry, opened platform masterKey kind found =
      .ok (some payload) := by
  cases entry with
  | none => exact nomatch h
  | some found => exact ⟨found, rfl, h⟩

/-- A payload that is read is nobody's or is that of a stored record. -/
theorem read_stored (hform : WellFormed platform state) {draw : Draw Key}
    (h : read platform state draw enterprise account kind =
      .ok (some payload)) :
    identityOf platform kind payload = none ∨
      ∃ entry ∈ records state kind, isTombstone entry.2 = false ∧
        identityOf platform kind payload =
          some (recordIdentity platform entry.2) := by
  have hentry : ∀ entry ∈ records state kind,
      opened platform (loadOrCreateMasterKey state draw) kind entry =
        .ok (some payload) →
      identityOf platform kind payload = none ∨
        ∃ entry ∈ records state kind, isTombstone entry.2 = false ∧
          identityOf platform kind payload =
            some (recordIdentity platform entry.2) := by
    intro entry hmem hopened
    obtain ⟨stored, hstored, hpayload⟩ :=
      (hform.holds kind entry hmem).opens draw
    rw [hopened, Except.ok.injEq, Option.some.injEq] at hstored
    rw [← hstored] at hpayload
    rcases hpayload with ⟨rfl, _⟩ | ⟨hlive, hidentity⟩
    · exact Or.inl rfl
    · exact Or.inr ⟨entry, hmem, hlive, hidentity⟩
  cases kind with
  | session =>
      rcases sessionRead_ok h with ⟨entry, hmem, hopened⟩ |
        ⟨vault, hvault, envelope, henvelope, hopened⟩
      · exact hentry entry hmem hopened
      · obtain ⟨key, salt, stored, hmaster, rfl, hnobody⟩ :=
          hform.anonymous vault hvault envelope henvelope
        rw [loadOrCreateMasterKey, hmaster, Option.getD_some,
          platform.roundTrip] at hopened
        cases hopened
        exact Or.inl hnobody
  | credentials =>
      cases hfile : state.credentials with
      | none =>
          rw [read, credentialsRead, hfile] at h
          exact nomatch h
      | some vault =>
          rw [read, credentialsRead_eq hfile] at h
          obtain ⟨entry, hselect, hopened⟩ := openedOrNone_ok h
          refine hentry entry ?_ hopened
          rw [records_credentials hfile]
          exact selectCredentials_mem hselect

/-! ### A read of one identity -/

theorem sessionRead_eq {vault : SessionVault Envelope}
    (hfile : state.session = some vault)
    (h : filterText enterprise ≠ "" ∨ filterText account ≠ "")
    (draw : Draw Key) :
    (sessionRead platform state draw enterprise account).2 =
      openedOrNone platform (loadOrCreateMasterKey state draw) .session
        (selectSession platform vault (filterText enterprise)
          (filterText account)) := by
  unfold sessionRead
  rw [hfile]
  simp only
  rw [if_pos (by simpa using h)]
  cases selectSession platform vault (filterText enterprise)
    (filterText account) <;> rfl

/-- A session read that names somebody goes by the key first. -/
theorem sessionRead_named
    (h : filterText enterprise ≠ "" ∨ filterText account ≠ "")
    (draw : Draw Key) :
    (sessionRead platform state draw enterprise account).2 =
      openedOrNone platform (loadOrCreateMasterKey state draw) .session
        ((entryAt (asked platform enterprise account).key
            (records state .session)).or
          (if filterText account ≠ "" then
            substitute platform state (asked platform enterprise account)
              .session
          else none)) := by
  cases hfile : state.session with
  | none =>
      rw [sessionRead, hfile]
      simp only [records, hfile, Option.map_none, Option.getD_none,
        entryAt_nil, Option.none_or, substitute, List.filter_nil]
      split <;> rfl
  | some vault =>
      have hkey : buildIdentityKey platform (filterText enterprise)
          (filterText account) = (asked platform enterprise account).key := rfl
      rw [sessionRead_eq hfile h, substitute, records_session hfile,
        selectSession, hkey]
      cases entryAt (asked platform enterprise account).key vault.sessions with
      | some found => rfl
      | none =>
          simp only [Option.none_or, bne_iff_ne]
          rfl

/-- A read that names both decrypts what it selects. -/
theorem read_named (h : NamesBoth enterprise account) (kind : Kind)
    (draw : Draw Key) :
    read platform state draw enterprise account kind =
      openedOrNone platform (loadOrCreateMasterKey state draw) kind
        (selected platform state kind (asked platform enterprise account)) := by
  cases kind with
  | session =>
      rw [read, sessionRead_named (Or.inl h.1), if_pos h.2, selected]
  | credentials =>
      cases hfile : state.credentials with
      | none =>
          simp [read, credentialsRead, hfile, selected, records, substitute,
            entryAt_nil, openedOrNone]
      | some vault =>
          rw [read, credentialsRead_eq hfile, selectCredentials,
            if_pos (by simp [h.1, h.2]), selected, substitute,
            records_credentials hfile]
          rfl

end AiTeam.Vault
