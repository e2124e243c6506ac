/-
The login vault as an identity map, over every run of its operations in which
no call meets another identity under the key it asks for.
-/
import AiTeam.Vault.Reads
import AiTeam.Vault.Steps

namespace AiTeam.Vault

variable {Key Envelope : Type} {platform : Platform Key Envelope}
  {state : State Key Envelope}

/-- The state a run leaves. -/
abbrev reached (platform : Platform Key Envelope)
    (turns : List (Turn Key)) : State Key Envelope :=
  (machine platform).run empty turns

/-- The read is of exactly the identity it names: it goes by the key, or
nothing else of the account is stored. -/
def Exactly (platform : Platform Key Envelope) (state : State Key Envelope)
    (kind : Kind) (enterprise account : Option String) : Prop :=
  ByKey kind enterprise account ∨ filterText account ≠ "" ∧
    ∀ entry ∈ records state kind,
      (recordIdentity platform entry.2).account =
        (asked platform enterprise account).account →
      entry.1 = (asked platform enterprise account).key

/-- The call neither writes nor erases the identity. -/
def Apart (platform : Platform Key Envelope) (kind : Kind)
    (identity : Identity) (state : State Key Envelope) (turn : Turn Key) :
    Prop :=
  ¬ Erases platform state kind identity turn.call ∧
    ¬ Writes platform kind identity turn.call

/-- No clear has left its mark under the key of the identity. -/
def Unmarked (state : State Key Envelope) (kind : Kind)
    (identity : Identity) : Prop :=
  ∀ record ∈ valueAt identity.key (records state kind),
    isTombstone record = false

/-- A property of the identity, and of the one whose credentials are read when
it has none. -/
def Through (platform : Platform Key Envelope) (state : State Key Envelope)
    (kind : Kind) (identity : Identity) (property : Identity → Prop) : Prop :=
  property identity ∧ (kind = .credentials →
    valueAt identity.key (records state kind) = none →
    property (fallback platform identity))

structure IdentityMap (platform : Platform Key Envelope)
    (turns : List (Turn Key)) : Prop where
  /-- No read that names both returns what was stored for somebody else. -/
  exclusive : ∀ {past rest draw kind enterprise account payload},
    turns = past ++ ⟨.read kind enterprise account, draw⟩ :: rest →
    NamesBoth enterprise account →
    read platform (reached platform past) draw enterprise account kind =
      .ok (some payload) →
    payload = "" ∨
      identityOf platform kind payload =
        some (asked platform enterprise account) ∨
      kind = .credentials ∧
        identityOf platform kind payload =
          some (fallback platform (asked platform enterprise account))
  /-- What was written is read until it is written, cleared or deleted. -/
  remembered : ∀ {past between rest kind payload first second enterprise
      account},
    turns = past ++ ⟨.write kind payload, first⟩ :: between ++
      ⟨.read kind enterprise account, second⟩ :: rest →
    identityOf platform kind payload =
      some (asked platform enterprise account) →
    (machine platform).Admissible
      (Apart platform kind (asked platform enterprise account))
      (reached platform (past ++ [⟨.write kind payload, first⟩])) between →
    Exactly platform (reached platform (past ++
      ⟨.write kind payload, first⟩ :: between)) kind enterprise account →
    read platform (reached platform (past ++
        ⟨.write kind payload, first⟩ :: between)) second enterprise account
      kind = .ok (some payload)
  /-- What was cleared or deleted is not read until it is written again. -/
  forgotten : ∀ {past between rest turn draw kind enterprise account payload
      identity},
    turns = past ++ turn :: between ++
      ⟨.read kind enterprise account, draw⟩ :: rest →
    Erases platform (reached platform past) kind identity turn.call →
    (∀ turn ∈ between, ¬ Writes platform kind identity turn.call) →
    read platform (reached platform (past ++ turn :: between)) draw
      enterprise account kind = .ok (some payload) →
    identityOf platform kind payload ≠ some identity
  /-- A call on one identity does not change what is read for another. -/
  independent : ∀ {past rest turn first second kind enterprise account},
    turns = past ++ turn :: rest →
    NamesBoth enterprise account →
    Careful platform (reached platform past)
      ⟨.read kind enterprise account, first⟩ →
    Careful platform (reached platform (past ++ [turn]))
      ⟨.read kind enterprise account, second⟩ →
    Through platform (reached platform past) kind
      (asked platform enterprise account)
      (fun identity => Apart platform kind identity (reached platform past)
          turn ∧ Unmarked (reached platform past) kind identity) →
    read platform (reached platform (past ++ [turn])) second enterprise account
        kind =
      read platform (reached platform past) first enterprise account kind

/-! ### A read that names both -/

variable {identity : Identity} {kind : Kind} {payload : String}
  {entry : String × StoredRecord Envelope} {draw : Draw Key}
  {enterprise account : Option String} {turns : List (Turn Key)}

/-- With nothing else under the key, a session that is not stored is not
substituted. -/
theorem substitute_session (h : Absent platform state identity .session) :
    substitute platform state identity .session = none := by
  rw [substitute]
  have hnil : (records state .session).filter (fun entry =>
      (recordIdentity platform entry.2).account == identity.account) = [] := by
    rw [List.filter_eq_nil_iff]
    intro entry hentry hsame
    exact h entry hentry (beq_iff_eq.mp hsame)
  rw [hnil]
  rfl

theorem entryAt_identity (hform : WellFormed platform state)
    (howned : Owned platform state kind identity)
    (hentry : entryAt identity.key (records state kind) = some entry)
    (hopened : opened platform (loadOrCreateMasterKey state draw) kind entry =
      .ok (some payload)) :
    payload = "" ∨ identityOf platform kind payload = some identity := by
  obtain ⟨hkey, _, hmem⟩ := entryAt_some hentry
  obtain ⟨stored, hstored, hpayload⟩ :=
    (hform.holds kind entry hmem).opens draw
  rw [hopened, Except.ok.injEq, Option.some.injEq] at hstored
  rw [← hstored] at hpayload
  rcases hpayload with ⟨hempty, _⟩ | ⟨hlive, hidentity⟩
  · exact Or.inl hempty
  · rw [howned.identity (hform.keyed kind) hmem hkey hlive] at hidentity
    exact Or.inr hidentity

theorem read_exclusive (hform : WellFormed platform state)
    (hnamed : NamesBoth enterprise account)
    (hcareful : Careful platform state
      ⟨.read kind enterprise account, draw⟩)
    (hread : read platform state draw enterprise account kind =
      .ok (some payload)) :
    payload = "" ∨
      identityOf platform kind payload =
        some (asked platform enterprise account) ∨
      kind = .credentials ∧
        identityOf platform kind payload =
          some (fallback platform (asked platform enterprise account)) := by
  obtain ⟨howned, habsent⟩ := hcareful hnamed
  rw [read_named hnamed] at hread
  obtain ⟨entry, hselected, hopened⟩ := openedOrNone_ok hread
  rw [selected, Option.mem_def, Option.or_eq_some_iff] at hselected
  rcases hselected with hexact | ⟨hnone, hsubstitute⟩
  · rcases entryAt_identity hform howned hexact hopened with hempty | hidentity
    · exact Or.inl hempty
    · exact Or.inr (Or.inl hidentity)
  · rw [entryAt, Option.map_eq_none_iff] at hnone
    cases kind with
    | session =>
        rw [substitute_session (habsent hnone)] at hsubstitute
        cases hsubstitute
    | credentials =>
        rcases entryAt_identity hform (habsent hnone) hsubstitute hopened with
          hempty | hidentity
        · exact Or.inl hempty
        · exact Or.inr (Or.inr ⟨rfl, hidentity⟩)

/-! ### What was written -/

/-- The payload is stored for the identity. -/
def Keeps (platform : Platform Key Envelope) (state : State Key Envelope)
    (kind : Kind) (identity : Identity) (payload : String) : Prop :=
  ∃ record, Stored platform state kind identity record ∧
    ∃ key salt, state.masterKey = some key ∧ record.envelope =
      platform.encrypt key (context kind identity.key) salt payload

theorem write_keeps (h : identityOf platform kind payload = some identity)
    (draw : Draw Key) :
    Keeps platform (after platform state ⟨.write kind payload, draw⟩) kind
      identity payload := by
  have hne : ¬ (payload == "") = true := by
    intro hempty
    rw [beq_iff_eq.mp hempty, identityOf_empty] at h
    cases h
  cases kind with
  | session =>
      rw [identityOf, if_neg hne] at h
      obtain ⟨⟨enterprise, account⟩, hscope, rfl⟩ :=
        Option.map_eq_some_iff.mp h
      obtain ⟨text, rfl, htext⟩ := sessionScope_some hscope
      refine ⟨sealRecord platform (loadOrCreateMasterKey state draw) draw _
        enterprise (trim text) payload, ⟨?_, ?_, rfl⟩,
        loadOrCreateMasterKey state draw, draw.salt, ?_, rfl⟩
      · change valueAt _ (records (sessionWrite platform state draw
          payload).1 .session) = _
        unfold sessionWrite
        rw [if_neg hne, hscope]
        exact (OrderedMap.valueAt_insert _ _ _ _).trans (if_pos rfl)
      · exact sealRecord_live platform _ draw _ enterprise payload htext
      · exact (sessionWrite_frame platform state draw payload).2
  | credentials =>
      rw [identityOf, if_neg hne] at h
      obtain ⟨⟨enterprise, account⟩, hscope, rfl⟩ :=
        Option.map_eq_some_iff.mp h
      have hok : credentialScope platform payload =
          .ok (enterprise, account) := by
        cases hcase : credentialScope platform payload with
        | error detail =>
            rw [hcase] at hscope
            cases hscope
        | ok scope =>
            rw [hcase] at hscope
            rw [Option.some.inj hscope]
      obtain ⟨text, rfl, htext⟩ := credentialScope_ok hok
      refine ⟨sealRecord platform (loadOrCreateMasterKey state draw) draw _
        enterprise (trim text) payload, ⟨?_, ?_, rfl⟩,
        loadOrCreateMasterKey state draw, draw.salt, ?_, rfl⟩
      · change valueAt _ (records (credentialsWrite platform state draw
          payload).1 .credentials) = _
        unfold credentialsWrite
        simp only
        rw [if_neg hne, hok]
        exact (OrderedMap.valueAt_insert _ _ _ _).trans (if_pos rfl)
      · exact sealRecord_live platform _ draw _ enterprise payload htext
      · exact (credentialsWrite_frame platform state draw payload).2

section

variable (hkeeps : Keeps platform state kind identity payload)
include hkeeps

theorem Keeps.step (hform : WellFormed platform state) (turn : Turn Key)
    (hcareful : Careful platform state turn)
    (hapart : Apart platform kind identity state turn) :
    Keeps platform (after platform state turn) kind identity payload := by
  obtain ⟨record, hstored, key, salt, hmaster, henvelope⟩ := hkeeps
  exact ⟨record, hstored.step hform turn hcareful hapart.1 hapart.2, key, salt,
    after_masterKey platform turn hmaster, henvelope⟩

theorem Keeps.run (hform : WellFormed platform state)
    (hcareful : (machine platform).Admissible (Careful platform) state turns)
    (hapart : (machine platform).Admissible (Apart platform kind identity)
      state turns) :
    Keeps platform ((machine platform).run state turns) kind identity
      payload := by
  induction turns generalizing state with
  | nil => exact hkeeps
  | cons turn rest ih =>
      exact ih (hkeeps.step hform turn hcareful.1 hapart.1)
        (hform.step turn hcareful.1) hcareful.2 hapart.2

theorem Keeps.selects :
    ∃ record, entryAt identity.key (records state kind) =
        some (identity.key, record) ∧
      recordIdentity platform record = identity ∧
      ∀ draw, opened platform (loadOrCreateMasterKey state draw) kind
        (identity.key, record) = .ok (some payload) := by
  obtain ⟨record, ⟨hvalue, _, hidentity⟩, key, salt, hmaster, henvelope⟩ :=
    hkeeps
  refine ⟨record, entryAt_of_valueAt hvalue, hidentity, fun draw => ?_⟩
  rw [opened, loadOrCreateMasterKey, hmaster, Option.getD_some, henvelope,
    platform.roundTrip]
  rfl

end

/-- Where nothing else passes, the one record that does is found. -/
theorem activeOrNewest_only {vault : CredentialsVault Envelope}
    {passes : StoredRecord Envelope → Bool} (hmem : entry ∈ vault.entries)
    (hpasses : passes entry.2 = true)
    (honly : ∀ other ∈ vault.entries, passes other.2 = true →
      other = entry) : activeOrNewest vault passes = some entry := by
  cases hfound : activeOrNewest vault passes with
  | some other =>
      obtain ⟨hother, hpass⟩ := activeOrNewest_mem hfound
      rw [honly other hother hpass]
  | none =>
      rw [activeOrNewest, Option.or_eq_none_iff] at hfound
      have hnil := OrderedMap.lastMax_none hfound.2
      have hfiltered : entry ∈ vault.entries.filter fun entry =>
          passes entry.2 := List.mem_filter.mpr ⟨hmem, hpasses⟩
      rw [hnil] at hfiltered
      cases hfiltered

theorem Keeps.read
    (hkeeps : Keeps platform state kind (asked platform enterprise account)
      payload) (hform : WellFormed platform state)
    (hexactly : Exactly platform state kind enterprise account)
    (draw : Draw Key) :
    read platform state draw enterprise account kind =
      .ok (some payload) := by
  obtain ⟨record, hentry, hidentity, hopened⟩ := hkeeps.selects
  by_cases hboth : NamesBoth enterprise account
  · rw [read_named hboth, selected, hentry, Option.some_or]
    exact hopened draw
  cases kind with
  | session =>
      have hnamed : filterText enterprise ≠ "" ∨ filterText account ≠ "" := by
        rcases hexactly with (hboth' | ⟨_, hnamed⟩) | ⟨haccount, _⟩
        · exact Or.inl hboth'.1
        · exact hnamed
        · exact Or.inr haccount
      rw [Vault.read, sessionRead_named hnamed, hentry, Option.some_or]
      exact hopened draw
  | credentials =>
      rcases hexactly with (hboth' | ⟨hkind, _⟩) | ⟨haccount, honly⟩
      · exact absurd hboth' hboth
      · cases hkind
      · have henterprise : filterText enterprise = "" := by
          by_contra hne
          exact hboth ⟨hne, haccount⟩
        cases hfile : state.credentials with
        | none =>
            rw [records, hfile] at hentry
            cases hentry
        | some vault =>
            rw [records_credentials hfile] at honly hentry
            obtain ⟨_, hvalue, hmem⟩ := entryAt_some hentry
            have hselect : selectCredentials platform vault
                (filterText enterprise) (filterText account) =
                some ((asked platform enterprise account).key, record) := by
              rw [selectCredentials, if_neg (by simp [henterprise]),
                if_pos (by simp [haccount])]
              refine activeOrNewest_only hmem ?_ ?_
              · exact beq_iff_eq.mpr (congrArg Identity.account hidentity)
              · intro other hother hpass
                have hkey := honly other hother (beq_iff_eq.mp hpass)
                have hkeyed := hform.keyed .credentials
                rw [records_credentials hfile] at hkeyed
                exact hkeyed.eq_of_key hother hmem hkey
            rw [Vault.read, credentialsRead_eq hfile, hselect]
            exact hopened draw

/-! ### What was erased -/

theorem Gone.run (hgone : Gone platform state kind identity)
    (hform : WellFormed platform state)
    (hcareful : (machine platform).Admissible (Careful platform) state turns)
    (hwrites : ∀ turn ∈ turns, ¬ Writes platform kind identity turn.call) :
    Gone platform ((machine platform).run state turns) kind identity := by
  induction turns generalizing state with
  | nil => exact hgone
  | cons turn rest ih =>
      have hturn := hwrites turn List.mem_cons_self
      exact ih (hgone.step hform turn hcareful.1 hturn)
        (hform.step turn hcareful.1) hcareful.2
        fun other hother => hwrites other (List.mem_cons_of_mem _ hother)

theorem Gone.read (hgone : Gone platform state kind identity)
    (hform : WellFormed platform state)
    (h : read platform state draw enterprise account kind =
      .ok (some payload)) :
    identityOf platform kind payload ≠ some identity := by
  intro hidentity
  rcases read_stored hform h with hnobody | ⟨entry, hmem, hlive, hstored⟩
  · rw [hnobody] at hidentity
    exact nomatch hidentity
  · rw [hidentity, Option.some.injEq] at hstored
    exact hgone entry hmem hlive hstored.symm

/-! ### What others do -/

/-- A call apart from an identity keeps what is stored under its key. -/
theorem valueAt_step (hform : WellFormed platform state) {turn : Turn Key}
    (hcareful : Careful platform state turn)
    (hapart : Apart platform kind identity state turn)
    (hunmarked : Unmarked state kind identity)
    (hbefore : Owned platform state kind identity)
    (hafter : Owned platform (after platform state turn) kind identity) :
    valueAt identity.key (records (after platform state turn) kind) =
      valueAt identity.key (records state kind) := by
  cases hvalue : valueAt identity.key (records state kind) with
  | none => exact step_none hvalue hform turn hcareful hapart.1 hapart.2 hafter
  | some record =>
      have hlive := hunmarked record hvalue
      have hstored : Stored platform state kind identity record :=
        ⟨hvalue, hlive, hbefore record hvalue hlive⟩
      exact (hstored.step hform turn hcareful hapart.1 hapart.2).1

theorem openedOrNone_step {entry : Option (String × StoredRecord Envelope)}
    (hform : WellFormed platform state)
    (hmem : ∀ found ∈ entry, found ∈ records state kind) (turn : Turn Key)
    (first second : Draw Key) :
    openedOrNone platform
        (loadOrCreateMasterKey (after platform state turn) second) kind entry =
      openedOrNone platform (loadOrCreateMasterKey state first) kind entry := by
  cases entry with
  | none => rfl
  | some found =>
      obtain ⟨key, _, _, hmaster, _⟩ := hform.holds kind found (hmem found rfl)
      rw [loadOrCreateMasterKey, after_masterKey platform turn hmaster,
        loadOrCreateMasterKey, hmaster]
      rfl

theorem entryAt_congr {key : String} {before after : Records Envelope}
    (h : valueAt key after = valueAt key before) :
    entryAt key after = entryAt key before := by
  rw [entryAt, entryAt, h]

theorem selected_mem (h : selected platform state kind identity = some entry) :
    entry ∈ records state kind := by
  rw [selected, Option.or_eq_some_iff] at h
  rcases h with hexact | ⟨_, hsubstitute⟩
  · exact (entryAt_some hexact).2.2
  · cases kind with
    | session => exact (newest_mem hsubstitute).1
    | credentials => exact (entryAt_some hsubstitute).2.2

section

variable {turn : Turn Key} {first second : Draw Key}
  (hform : WellFormed platform state) (hturn : Careful platform state turn)
  (hnamed : NamesBoth enterprise account)
  (hbefore : Careful platform state ⟨.read kind enterprise account, first⟩)
  (hafter : Careful platform (after platform state turn)
    ⟨.read kind enterprise account, second⟩)
  (happly : Through platform state kind (asked platform enterprise account)
    fun identity => Apart platform kind identity state turn ∧
      Unmarked state kind identity)
include hform hturn hnamed hbefore hafter happly

theorem selected_step :
    selected platform (after platform state turn) kind
        (asked platform enterprise account) =
      selected platform state kind (asked platform enterprise account) := by
  obtain ⟨⟨hapart, hunmarked⟩, hfallback⟩ := happly
  obtain ⟨howned, habsent⟩ := hbefore hnamed
  obtain ⟨howned', habsent'⟩ := hafter hnamed
  have hsame := valueAt_step hform hturn hapart hunmarked howned howned'
  rw [selected, selected, entryAt_congr hsame]
  cases hvalue : valueAt (asked platform enterprise account).key
      (records state kind) with
  | some record => rw [entryAt_of_valueAt hvalue]; rfl
  | none =>
      have habsent := habsent hvalue
      have habsent' := habsent' (hsame.trans hvalue)
      congr 1
      cases kind with
      | session =>
          rw [substitute_session habsent, substitute_session habsent']
      | credentials =>
          obtain ⟨hapart, hunmarked⟩ := hfallback rfl hvalue
          exact entryAt_congr
            (valueAt_step hform hturn hapart hunmarked habsent habsent')

theorem read_step :
    read platform (after platform state turn) second enterprise account kind =
      read platform state first enterprise account kind := by
  rw [read_named hnamed, read_named hnamed,
    selected_step hform hturn hnamed hbefore hafter happly]
  exact openedOrNone_step hform (fun _ hfound => selected_mem hfound) turn
    first second

end

/-! ### Every run -/

theorem wellFormed_empty (platform : Platform Key Envelope) :
    WellFormed platform (empty : State Key Envelope) where
  keyed kind := by cases kind <;> exact Keyed.nil _
  holds kind := by cases kind <;> exact fun _ hentry => nomatch hentry
  anonymous := fun _ hvault => nomatch hvault

theorem wellFormed_reached
    (h : (machine platform).Admissible (Careful platform) empty turns) :
    WellFormed platform (reached platform turns) :=
  (machine platform).stateInvariant (WellFormed platform)
    (fun _ turn hform hcareful => hform.step turn hcareful) turns
    (wellFormed_empty platform) h

theorem reached_append (past rest : List (Turn Key)) :
    reached platform (past ++ rest) =
      (machine platform).run (reached platform past) rest :=
  (machine platform).run_append empty past rest

/-- In every run in which no call meets another identity under the key it asks
for, the vault is an identity map. -/
theorem careful_vault_is_identity_map (platform : Platform Key Envelope)
    (turns : List (Turn Key))
    (h : (machine platform).Admissible (Careful platform) empty turns) :
    IdentityMap platform turns where
  exclusive := by
    rintro past rest draw kind enterprise account payload rfl hnamed hread
    exact read_exclusive (wellFormed_reached (Machine.admissible_left h))
      hnamed (Machine.admissible_right h).1 hread
  remembered := by
    intro past between rest kind payload first second enterprise account hturns
      hidentity hapart hexactly
    rw [hturns] at h
    have hrun := Machine.admissible_left h
    have hlater := Machine.admissible_right hrun
    have hwritten : Keeps platform
        (reached platform (past ++ [⟨.write kind payload, first⟩])) kind
        (asked platform enterprise account) payload := by
      rw [reached_append]
      exact write_keeps hidentity first
    have hform : WellFormed platform
        (reached platform (past ++ [⟨.write kind payload, first⟩])) := by
      rw [← List.singleton_append, ← List.append_assoc] at hrun
      exact wellFormed_reached (Machine.admissible_left hrun)
    have hbetween : (machine platform).Admissible (Careful platform)
        (reached platform (past ++ [⟨.write kind payload, first⟩]))
        between := by
      rw [reached_append]
      exact hlater.2
    have hkeeps := hwritten.run hform hbetween hapart
    rw [← reached_append, List.append_assoc, List.singleton_append] at hkeeps
    exact hkeeps.read (wellFormed_reached hrun) hexactly second
  forgotten := by
    intro past between rest turn draw kind enterprise account payload identity
      hturns herases hwrites hread
    rw [hturns] at h
    have hrun := Machine.admissible_left h
    have hform := wellFormed_reached (Machine.admissible_left hrun)
    have hlater := Machine.admissible_right hrun
    have hgone : Gone platform (reached platform (past ++ turn :: between))
        kind identity := by
      rw [reached_append]
      exact (herases.gone hform hlater.1).run (hform.step turn hlater.1)
        hlater.2 hwrites
    exact hgone.read (wellFormed_reached hrun) hread
  independent := by
    intro past rest turn first second kind enterprise account hturns hnamed
      hbefore hafter happly
    rw [hturns] at h
    have hturn := Machine.admissible_right h
    rw [reached_append] at hafter ⊢
    exact read_step (wellFormed_reached (Machine.admissible_left h)) hturn.1
      hnamed hbefore hafter happly

namespace IdentityMapWitness

structure SampleEnvelope where
  key : Nat
  context : String
  salt : Nat
  text : String
deriving DecidableEq

def aliceSession : String :=
  "\x7b\"tenantId\":\"acme\",\"account\":\"alice\"\x7d"

def bobSession : String :=
  "\x7b\"tenantId\":\"acme\",\"account\":\"bob\"\x7d"

def splitCredentials : String :=
  "\x7b\"enterprise\":\"a\",\"account\":\"b::c\"\x7d"

def samplePlatform : Platform Nat SampleEnvelope where
  toLowercase text := String.ofList (text.toList.map Char.toLower)
  parseSession text :=
    if text = aliceSession then some ⟨"acme", "", "alice"⟩
    else if text = bobSession then some ⟨"acme", "", "bob"⟩
    else none
  parseCredentials text :=
    if text = splitCredentials then some ⟨"a", "b::c"⟩ else none
  encrypt := SampleEnvelope.mk
  decrypt key context envelope :=
    if envelope.key = key ∧ envelope.context = context then .ok envelope.text
    else .error "failed to decrypt sandbox vault payload"
  roundTrip _ _ _ _ := if_pos ⟨rfl, rfl⟩

def turn (call : Call) (now : Nat) : Turn Nat := ⟨call, ⟨7, now, now⟩⟩

/-- Two accounts of one enterprise; the first one is deleted. -/
def twoAccounts : List (Turn Nat) :=
  [turn (.write .session aliceSession) 1, turn (.write .session bobSession) 2,
    turn (.read .session (some "ACME") (some " alice")) 3,
    turn (.delete .session (some "acme") (some "alice")) 4,
    turn (.read .session (some "acme") (some "alice")) 5,
    turn (.read .session (some "acme") (some "bob")) 6]

/-- The account of one enterprise is read for another one. -/
def otherEnterprise : List (Turn Nat) :=
  [turn (.write .session aliceSession) 1,
    turn (.read .session (some "globex") (some "alice")) 2]

/-- The separator stands in an account and then in an enterprise. -/
def separatorMoved : List (Turn Nat) :=
  [turn (.write .credentials splitCredentials) 1,
    turn (.read .credentials (some "a::b") (some "c")) 2]

end IdentityMapWitness

open IdentityMapWitness in
theorem careful_vault_two_accounts :
    (machine samplePlatform).Admissible (Careful samplePlatform) empty
        twoAccounts ∧
      IdentityMap samplePlatform twoAccounts := by
  have hrun : (machine samplePlatform).Admissible (Careful samplePlatform)
      empty twoAccounts := by decide +kernel
  exact ⟨hrun, careful_vault_is_identity_map samplePlatform twoAccounts hrun⟩

open IdentityMapWitness in
/-- A session of another enterprise and credentials of another identity are
read by calls that name both an enterprise and an account. -/
theorem vault_reads_other_identities :
    ¬ IdentityMap samplePlatform otherEnterprise ∧
      ¬ IdentityMap samplePlatform separatorMoved := by
  constructor
  · intro hmap
    have hturns : otherEnterprise =
        [turn (.write .session aliceSession) 1] ++
          ⟨.read .session (some "globex") (some "alice"), ⟨7, 2, 2⟩⟩ :: [] :=
      rfl
    have hread : read samplePlatform
        (reached samplePlatform [turn (.write .session aliceSession) 1])
        ⟨7, 2, 2⟩ (some "globex") (some "alice") .session =
        .ok (some aliceSession) := by
      decide +kernel
    exact absurd (hmap.exclusive hturns (by decide) hread)
      (by decide +kernel)
  · intro hmap
    have hturns : separatorMoved =
        [turn (.write .credentials splitCredentials) 1] ++
          ⟨.read .credentials (some "a::b") (some "c"), ⟨7, 2, 2⟩⟩ :: [] :=
      rfl
    have hread : read samplePlatform
        (reached samplePlatform
          [turn (.write .credentials splitCredentials) 1])
        ⟨7, 2, 2⟩ (some "a::b") (some "c") .credentials =
        .ok (some splitCredentials) := by
      decide +kernel
    exact absurd (hmap.exclusive hturns (by decide) hread)
      (by decide)

end AiTeam.Vault
