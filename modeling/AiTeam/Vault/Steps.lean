/-
What one call keeps: the invariant of the stored records, the records of the
identities it does not touch, and the absence of those that were erased.
-/
import AiTeam.Vault.Effects

namespace AiTeam.Vault

variable {Key Envelope : Type} {platform : Platform Key Envelope}
  {state : State Key Envelope}

abbrev after (platform : Platform Key Envelope) (state : State Key Envelope)
    (turn : Turn Key) : State Key Envelope :=
  (step platform state turn).1

/-! ### One call -/

theorem sessionRead_state (platform : Platform Key Envelope)
    (state : State Key Envelope) (draw : Draw Key)
    (enterprise account : Option String) :
    ∃ masterKey, (sessionRead platform state draw enterprise account).1 =
      { state with masterKey } ∧
      ∀ key, state.masterKey = some key → masterKey = some key := by
  unfold sessionRead
  split
  · exact ⟨state.masterKey, rfl, fun _ hkey => hkey⟩
  · refine ⟨some (loadOrCreateMasterKey state draw), ?_, ?_⟩
    · simp only
      repeat' split
      all_goals rfl
    · intro key hkey
      rw [loadOrCreateMasterKey, hkey, Option.getD_some]

theorem credentialsRead_state (platform : Platform Key Envelope)
    (state : State Key Envelope) (draw : Draw Key)
    (enterprise account : Option String) :
    ∃ masterKey, (credentialsRead platform state draw enterprise account).1 =
      { state with masterKey } ∧
      ∀ key, state.masterKey = some key → masterKey = some key := by
  unfold credentialsRead
  split
  · exact ⟨state.masterKey, rfl, fun _ hkey => hkey⟩
  · refine ⟨some (loadOrCreateMasterKey state draw), ?_, ?_⟩
    · simp only
      split <;> rfl
    · intro key hkey
      rw [loadOrCreateMasterKey, hkey, Option.getD_some]

theorem sessionWrite_frame (platform : Platform Key Envelope)
    (state : State Key Envelope) (draw : Draw Key) (payload : String) :
    (sessionWrite platform state draw payload).1.credentials =
        state.credentials ∧
      (sessionWrite platform state draw payload).1.masterKey =
        some (loadOrCreateMasterKey state draw) := by
  unfold sessionWrite
  simp only
  repeat' split
  all_goals exact ⟨rfl, rfl⟩

theorem credentialsWrite_frame (platform : Platform Key Envelope)
    (state : State Key Envelope) (draw : Draw Key) (payload : String) :
    (credentialsWrite platform state draw payload).1.session = state.session ∧
      (credentialsWrite platform state draw payload).1.masterKey =
        some (loadOrCreateMasterKey state draw) := by
  unfold credentialsWrite
  simp only
  repeat' split
  all_goals exact ⟨rfl, rfl⟩

theorem sessionDelete_frame (platform : Platform Key Envelope)
    (state : State Key Envelope) (enterprise account : Option String) :
    (sessionDelete platform state enterprise account).1.credentials =
        state.credentials ∧
      (sessionDelete platform state enterprise account).1.masterKey =
        state.masterKey := by
  unfold sessionDelete
  simp only
  repeat' split
  all_goals exact ⟨rfl, rfl⟩

theorem credentialsDelete_frame (platform : Platform Key Envelope)
    (state : State Key Envelope) (enterprise account : Option String) :
    (credentialsDelete platform state enterprise account).1.session =
        state.session ∧
      (credentialsDelete platform state enterprise account).1.masterKey =
        state.masterKey := by
  unfold credentialsDelete
  split
  all_goals exact ⟨rfl, rfl⟩

/-- The master key is drawn once. -/
theorem after_masterKey (platform : Platform Key Envelope) (turn : Turn Key)
    {key : Key} (h : state.masterKey = some key) :
    (after platform state turn).masterKey = some key := by
  have hload : some (loadOrCreateMasterKey state turn.draw) = some key := by
    rw [loadOrCreateMasterKey, h, Option.getD_some]
  obtain ⟨call, draw⟩ := turn
  cases call with
  | read kind enterprise account =>
      cases kind with
      | session =>
          obtain ⟨masterKey, hnext, hkey⟩ :=
            sessionRead_state platform state draw enterprise account
          change (sessionRead platform state draw enterprise
            account).1.masterKey = _
          rw [hnext]
          exact hkey key h
      | credentials =>
          obtain ⟨masterKey, hnext, hkey⟩ :=
            credentialsRead_state platform state draw enterprise account
          change (credentialsRead platform state draw enterprise
            account).1.masterKey = _
          rw [hnext]
          exact hkey key h
  | write kind payload =>
      cases kind with
      | session =>
          exact (sessionWrite_frame platform state draw payload).2.trans hload
      | credentials =>
          exact (credentialsWrite_frame platform state draw payload).2.trans
            hload
  | delete kind enterprise account =>
      cases kind with
      | session =>
          exact (sessionDelete_frame platform state enterprise
            account).2.trans h
      | credentials =>
          exact (credentialsDelete_frame platform state enterprise
            account).2.trans h
  | list => exact h

variable {next : State Key Envelope} {entry : String × StoredRecord Envelope}
  {kind : Kind} {identity : Identity}

theorem records_session_congr (h : next.session = state.session) :
    records next .session = records state .session := by
  rw [records, records, h]

theorem records_credentials_congr (h : next.credentials = state.credentials) :
    records next .credentials = records state .credentials := by
  rw [records, records, h]

/-- What a call does to each of the two vaults. -/
theorem step_effect (h : WellFormed platform state) (turn : Turn Key)
    (hcareful : Careful platform state turn) (kind : Kind) :
    ∃ keep added, Effect platform state (after platform state turn) kind
      turn.call keep added := by
  obtain ⟨call, draw⟩ := turn
  cases call with
  | read read enterprise account =>
      refine ⟨_, _, Effect.unchanged ?_ fun _ _ => id⟩
      cases read with
      | session =>
          obtain ⟨masterKey, hnext, _⟩ :=
            sessionRead_state platform state draw enterprise account
          change records (sessionRead platform state draw enterprise
            account).1 kind = _
          rw [hnext]
          cases kind <;> rfl
      | credentials =>
          obtain ⟨masterKey, hnext, _⟩ :=
            credentialsRead_state platform state draw enterprise account
          change records (credentialsRead platform state draw enterprise
            account).1 kind = _
          rw [hnext]
          cases kind <;> rfl
  | write written payload =>
      cases written <;> cases kind
      · exact sessionWrite_effect h draw payload
      · exact ⟨_, _, Effect.unchanged (records_credentials_congr
          (sessionWrite_frame platform state draw payload).1)
          fun _ _ herases => nomatch herases.1⟩
      · exact ⟨_, _, Effect.unchanged (records_session_congr
          (credentialsWrite_frame platform state draw payload).1)
          fun _ _ herases => nomatch herases.1⟩
      · exact credentialsWrite_effect h draw payload
  | delete deleted enterprise account =>
      cases deleted <;> cases kind
      · exact sessionDelete_effect h enterprise account hcareful
      · exact ⟨_, _, Effect.unchanged (records_credentials_congr
          (sessionDelete_frame platform state enterprise account).1)
          fun _ _ herases => nomatch herases.1⟩
      · exact ⟨_, _, Effect.unchanged (records_session_congr
          (credentialsDelete_frame platform state enterprise account).1)
          fun _ _ herases => nomatch herases.1⟩
      · exact credentialsDelete_effect h enterprise account hcareful
  | list => exact ⟨_, _, Effect.unchanged rfl fun _ _ => id⟩

theorem mem_applied {added : Option (String × StoredRecord Envelope)}
    {records : Records Envelope} (h : entry ∈ applied added records) :
    entry ∈ added ∨ entry ∈ records ∧ ∀ other ∈ added, entry.1 ≠ other.1 := by
  cases added with
  | none => exact Or.inr ⟨h, fun _ hother => nomatch hother⟩
  | some found =>
      rcases OrderedMap.mem_insert h with rfl | ⟨hmem, hne⟩
      · exact Or.inl rfl
      · refine Or.inr ⟨hmem, ?_⟩
        intro other hother
        rw [Option.mem_def, Option.some.injEq] at hother
        rw [← hother]
        exact hne

theorem Holds.mono {masterKey later : Option Key}
    (h : Holds platform masterKey kind entry)
    (hkey : ∀ key, masterKey = some key → later = some key) :
    Holds platform later kind entry := by
  obtain ⟨key, salt, payload, hmaster, hrest⟩ := h
  exact ⟨key, salt, payload, hkey key hmaster, hrest⟩

theorem identityOf_empty (kind : Kind) :
    identityOf platform kind "" = none := rfl

theorem sessionWrite_anonymous (platform : Platform Key Envelope)
    (state : State Key Envelope) (draw : Draw Key) (payload : String) :
    ∀ vault ∈ (sessionWrite platform state draw payload).1.session,
      ∀ envelope ∈ vault.activeEnvelope,
        envelope = platform.encrypt (loadOrCreateMasterKey state draw)
            "session:active" draw.salt payload ∧
          identityOf platform .session payload = none := by
  intro vault hvault envelope henvelope
  unfold sessionWrite at hvault
  simp only at hvault
  split at hvault
  · next hempty =>
      cases hvault
      cases henvelope
      exact ⟨rfl, if_pos hempty⟩
  · next hne =>
      split at hvault
      · cases hvault
        exact nomatch henvelope
      · next hscope =>
          cases hvault
          cases henvelope
          refine ⟨rfl, ?_⟩
          rw [identityOf, if_neg hne, hscope]
          rfl

theorem sessionDelete_anonymous {platform : Platform Key Envelope}
    {enterprise account : Option String} {vault : SessionVault Envelope}
    {envelope : Envelope}
    (hvault : vault ∈
      (sessionDelete platform state enterprise account).1.session)
    (henvelope : envelope ∈ vault.activeEnvelope) :
    ∃ old ∈ state.session, envelope ∈ old.activeEnvelope := by
  unfold sessionDelete at hvault
  cases hfile : state.session with
  | none =>
      rw [hfile] at hvault
      exact absurd (hfile ▸ hvault) (by simp)
  | some old =>
      rw [hfile] at hvault
      simp only at hvault
      split at hvault
      · cases hvault
        exact ⟨old, rfl, henvelope⟩
      · cases hvault
        exact nomatch henvelope

theorem WellFormed.step (h : WellFormed platform state) (turn : Turn Key)
    (hcareful : Careful platform state turn) :
    WellFormed platform (after platform state turn) := by
  have hkey : ∀ key, state.masterKey = some key →
      (after platform state turn).masterKey = some key :=
    fun key => after_masterKey platform turn
  refine ⟨?_, ?_, ?_⟩
  · intro kind
    obtain ⟨keep, added, heffect⟩ := step_effect h turn hcareful kind
    rw [heffect.result]
    have hfiltered := (h.keyed kind).filter keep
    cases added with
    | none => exact hfiltered
    | some entry => exact OrderedMap.Keyed.insert hfiltered entry.1 entry.2
  · intro kind entry hentry
    obtain ⟨keep, added, heffect⟩ := step_effect h turn hcareful kind
    rw [heffect.result] at hentry
    rcases mem_applied hentry with hadded | ⟨hold, _⟩
    · exact (heffect.adds entry hadded).1
    · exact (h.holds kind entry (List.mem_filter.mp hold).1).mono hkey
  · have hsame : (after platform state turn).session = state.session →
        ∀ vault ∈ (after platform state turn).session,
          ∀ envelope ∈ vault.activeEnvelope, ∃ key salt payload,
            (after platform state turn).masterKey = some key ∧
            envelope = platform.encrypt key "session:active" salt payload ∧
            identityOf platform .session payload = none := by
      intro heq vault hvault envelope henvelope
      rw [heq] at hvault
      obtain ⟨key, salt, payload, hmaster, hrest⟩ :=
        h.anonymous vault hvault envelope henvelope
      exact ⟨key, salt, payload, hkey key hmaster, hrest⟩
    obtain ⟨call, draw⟩ := turn
    cases call with
    | read read enterprise account =>
        apply hsame
        cases read with
        | session =>
            obtain ⟨masterKey, hnext, _⟩ :=
              sessionRead_state platform state draw enterprise account
            change (sessionRead platform state draw enterprise
              account).1.session = _
            rw [hnext]
        | credentials =>
            obtain ⟨masterKey, hnext, _⟩ :=
              credentialsRead_state platform state draw enterprise account
            change (credentialsRead platform state draw enterprise
              account).1.session = _
            rw [hnext]
    | write written payload =>
        cases written with
        | session =>
            intro vault hvault envelope henvelope
            have hnew := sessionWrite_anonymous platform state draw payload
              vault hvault envelope henvelope
            exact ⟨loadOrCreateMasterKey state draw, draw.salt, payload,
              (sessionWrite_frame platform state draw payload).2, hnew⟩
        | credentials =>
            exact hsame (credentialsWrite_frame platform state draw payload).1
    | delete deleted enterprise account =>
        cases deleted with
        | session =>
            intro vault hvault envelope henvelope
            obtain ⟨old, hold, hmem⟩ :=
              sessionDelete_anonymous hvault henvelope
            obtain ⟨key, salt, payload, hmaster, hrest⟩ :=
              h.anonymous old hold envelope hmem
            exact ⟨key, salt, payload, hkey key hmaster, hrest⟩
        | credentials =>
            exact hsame
              (credentialsDelete_frame platform state enterprise account).1
    | list => exact hsame rfl

/-! ### What stays -/

theorem valueAt_applied {added : Option (String × StoredRecord Envelope)}
    {records : Records Envelope} (key : String)
    (h : ∀ entry ∈ added, entry.1 ≠ key) :
    valueAt key (applied added records) = valueAt key records := by
  cases added with
  | none => rfl
  | some entry =>
      rw [applied, OrderedMap.valueAt_insert, if_neg (h entry rfl).symm]

/-- The live record stored under the key of its identity. -/
def Stored (platform : Platform Key Envelope) (state : State Key Envelope)
    (kind : Kind) (identity : Identity) (record : StoredRecord Envelope) :
    Prop :=
  valueAt identity.key (records state kind) = some record ∧
    isTombstone record = false ∧ recordIdentity platform record = identity

/-- A call that adds an entry under the key of an identity clears it or writes
whoever has the key. -/
theorem Adds.cases {call : Call} (h : Adds platform state next kind call entry)
    (hkey : entry.1 = identity.key) :
    Erases platform state kind identity call ∨
      isTombstone entry.2 = false ∧
        (recordIdentity platform entry.2).key = identity.key ∧
        Writes platform kind (recordIdentity platform entry.2) call := by
  rcases h with ⟨hholds, ⟨_, rfl, hcleared⟩ | ⟨hlive, hwrites⟩⟩
  · exact Or.inl ⟨rfl, rfl, by rw [hcleared, hkey]⟩
  · obtain ⟨_, _, _, _, _, ⟨_, htomb⟩ | ⟨_, _, hown⟩⟩ := hholds
    · rw [hlive] at htomb
      exact nomatch htomb
    · exact Or.inr ⟨hlive, by rw [← hown, hkey], hwrites⟩

theorem Writes.owned {turn : Turn Key}
    (h : Writes platform kind identity turn.call)
    (hcareful : Careful platform state turn) :
    Owned platform state kind identity := by
  obtain ⟨call, draw⟩ := turn
  cases call with
  | write written payload =>
      obtain ⟨rfl, hidentity⟩ := h
      exact hcareful identity hidentity
  | read _ _ _ => exact h.elim
  | delete _ _ _ => exact h.elim
  | list => exact h.elim

/-- A stored record stays until its identity is written, cleared or deleted. -/
theorem Stored.step {record : StoredRecord Envelope}
    (hstored : Stored platform state kind identity record)
    (h : WellFormed platform state) (turn : Turn Key)
    (hcareful : Careful platform state turn)
    (herases : ¬ Erases platform state kind identity turn.call)
    (hwrites : ¬ Writes platform kind identity turn.call) :
    Stored platform (after platform state turn) kind identity record := by
  obtain ⟨hvalue, hlive, hidentity⟩ := hstored
  refine ⟨?_, hlive, hidentity⟩
  obtain ⟨keep, added, heffect⟩ := step_effect h turn hcareful kind
  rw [heffect.result, valueAt_applied]
  · rw [valueAt, (h.keyed kind).lookup_filter,
      lookup_of_valueAt hvalue, Option.filter_some_pos]
    · rfl
    · by_contra hdrop
      have hmem := lookup_mem (lookup_of_valueAt hvalue)
      have := heffect.dropped _ hmem (by simpa using hdrop) hlive
      rw [hidentity] at this
      exact herases this
  · intro entry hentry hkey
    rcases (heffect.adds entry hentry).cases hkey with
      hcleared | ⟨_, hsame, hwrite⟩
    · exact herases hcleared
    · have howned := hwrite.owned hcareful record (by rw [hsame]; exact hvalue)
        hlive
      rw [← howned, hidentity] at hwrite
      exact hwrites hwrite

/-- Under a key where nothing is stored nothing appears, or it is somebody
else's. -/
theorem step_none (hnone : valueAt identity.key (records state kind) = none)
    (h : WellFormed platform state) (turn : Turn Key)
    (hcareful : Careful platform state turn)
    (herases : ¬ Erases platform state kind identity turn.call)
    (hwrites : ¬ Writes platform kind identity turn.call)
    (howned : Owned platform (after platform state turn) kind identity) :
    valueAt identity.key (records (after platform state turn) kind) = none := by
  obtain ⟨keep, added, heffect⟩ := step_effect h turn hcareful kind
  have hfiltered : valueAt identity.key
      ((records state kind).filter keep) = none := by
    rw [valueAt, Option.map_eq_none_iff] at hnone
    rw [valueAt, (h.keyed kind).lookup_filter, hnone]
    rfl
  cases added with
  | none =>
      rw [heffect.result]
      exact hfiltered
  | some entry =>
      by_cases hkey : entry.1 = identity.key
      · rcases (heffect.adds entry rfl).cases hkey with
          hcleared | ⟨hlive, hsame, hwrite⟩
        · exact absurd hcleared herases
        · have hvalue : valueAt identity.key
              (records (after platform state turn) kind) = some entry.2 := by
            rw [heffect.result, applied, OrderedMap.valueAt_insert,
              if_pos hkey.symm]
          rw [← howned entry.2 hvalue hlive] at hwrites
          exact absurd hwrite hwrites
      · rw [heffect.result, valueAt_applied]
        · exact hfiltered
        · intro other hother
          rw [Option.mem_def, Option.some.injEq] at hother
          rw [← hother]
          exact hkey

/-- No live record of the identity is stored. -/
def Gone (platform : Platform Key Envelope) (state : State Key Envelope)
    (kind : Kind) (identity : Identity) : Prop :=
  ∀ entry ∈ records state kind, isTombstone entry.2 = false →
    recordIdentity platform entry.2 ≠ identity

theorem Gone.step (hgone : Gone platform state kind identity)
    (h : WellFormed platform state) (turn : Turn Key)
    (hcareful : Careful platform state turn)
    (hwrites : ¬ Writes platform kind identity turn.call) :
    Gone platform (after platform state turn) kind identity := by
  obtain ⟨keep, added, heffect⟩ := step_effect h turn hcareful kind
  intro entry hentry hlive hsame
  rw [heffect.result] at hentry
  rcases mem_applied hentry with hadded | ⟨hold, _⟩
  · obtain ⟨_, ⟨htomb, _⟩ | ⟨_, hwrite⟩⟩ := heffect.adds entry hadded
    · rw [hlive] at htomb
      exact nomatch htomb
    · rw [hsame] at hwrite
      exact hwrites hwrite
  · exact hgone entry (List.mem_filter.mp hold).1 hlive hsame

theorem Erases.not_writes {other : Identity} {call : Call}
    (h : Erases platform state kind identity call) :
    ¬ Writes platform kind other call := by
  intro hwrites
  cases call with
  | write written payload =>
      obtain ⟨_, rfl, _⟩ := h
      exact nomatch hwrites.2
  | read _ _ _ => exact h
  | delete _ _ _ => exact hwrites
  | list => exact h

/-- After a clear or a delete of the identity nothing of it is stored. -/
theorem Erases.gone {turn : Turn Key}
    (herases : Erases platform state kind identity turn.call)
    (h : WellFormed platform state) (hcareful : Careful platform state turn) :
    Gone platform (after platform state turn) kind identity := by
  obtain ⟨keep, added, heffect⟩ := step_effect h turn hcareful kind
  intro entry hentry hlive hsame
  rw [heffect.result] at hentry
  rcases mem_applied hentry with hadded | ⟨hold, hother⟩
  · obtain ⟨_, ⟨htomb, _⟩ | ⟨_, hwrites⟩⟩ := heffect.adds entry hadded
    · rw [hlive] at htomb
      exact nomatch htomb
    · exact herases.not_writes hwrites
  · obtain ⟨hmem, hkeep⟩ := List.mem_filter.mp hold
    rw [← hsame] at herases
    rcases heffect.erased entry hmem hlive herases with
      hdrop | ⟨other, hadded, hkey⟩
    · rw [hkeep] at hdrop
      exact nomatch hdrop
    · exact hother other hadded hkey.symm

end AiTeam.Vault
