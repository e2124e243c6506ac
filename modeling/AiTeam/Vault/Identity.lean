/-
What the login vault keeps for whom: identities, the records of a vault file,
and what one call can drop from them or add to them.
-/
import AiTeam.Vault.Store

namespace AiTeam.Vault

variable {Key Envelope : Type}

/-- An enterprise and an account, trimmed and in lower case. -/
structure Identity where
  enterprise : String
  account : String
deriving DecidableEq

/-- `build_identity_key` of normalized segments. -/
def Identity.key (identity : Identity) : String :=
  identity.enterprise ++ "::" ++ identity.account

def named (platform : Platform Key Envelope) (enterprise account : String) :
    Identity :=
  ⟨normalizeSegment platform enterprise, normalizeSegment platform account⟩

/-- The same account without an enterprise. -/
def fallback (platform : Platform Key Envelope) (identity : Identity) :
    Identity :=
  ⟨normalizeSegment platform "", identity.account⟩

/-- Whom a payload is stored for; a text without an account is nobody's. -/
def identityOf (platform : Platform Key Envelope) (kind : Kind)
    (payload : String) : Option Identity :=
  if payload == "" then none
  else match kind with
    | .session =>
        (sessionScope platform payload).map fun scope =>
          named platform scope.1 scope.2
    | .credentials =>
        (credentialScope platform payload).toOption.map fun scope =>
          named platform scope.1 scope.2

def recordIdentity (platform : Platform Key Envelope)
    (record : StoredRecord Envelope) : Identity :=
  named platform record.enterprise record.account

def records (state : State Key Envelope) : Kind → Records Envelope
  | .session => (state.session.map SessionVault.sessions).getD []
  | .credentials => (state.credentials.map CredentialsVault.entries).getD []

def activeKey (state : State Key Envelope) : Kind → Option String
  | .session => state.session.bind SessionVault.activeKey
  | .credentials => state.credentials.bind CredentialsVault.lastActiveKey

def context : Kind → String → String
  | .session => sessionContext
  | .credentials => credentialContext

/-- The identity a call names, when it names one. -/
def NamesBoth (enterprise account : Option String) : Prop :=
  filterText enterprise ≠ "" ∧ filterText account ≠ ""

instance (enterprise account : Option String) :
    Decidable (NamesBoth enterprise account) :=
  inferInstanceAs (Decidable (_ ∧ _))

def asked (platform : Platform Key Envelope)
    (enterprise account : Option String) : Identity :=
  named platform (filterText enterprise) (filterText account)

/-- The key a clear of the vault empties. -/
def clearedKey (platform : Platform Key Envelope)
    (state : State Key Envelope) : Kind → Option String
  | .session => activeKey state .session
  | .credentials =>
      some ((activeKey state .credentials).getD
        (buildIdentityKey platform "" "__tombstone__"))

/-- A delete that goes by the key of the identity it names. -/
def ByKey (kind : Kind) (enterprise account : Option String) : Prop :=
  NamesBoth enterprise account ∨ kind = .session ∧
    (filterText enterprise ≠ "" ∨ filterText account ≠ "")

instance (kind : Kind) (enterprise account : Option String) :
    Decidable (ByKey kind enterprise account) :=
  inferInstanceAs (Decidable (_ ∨ _))

/-- The call clears or deletes the identity. -/
def Erases (platform : Platform Key Envelope) (state : State Key Envelope)
    (kind : Kind) (identity : Identity) : Call → Prop
  | .write written payload =>
      written = kind ∧ payload = "" ∧
        clearedKey platform state kind = some identity.key
  | .delete deleted enterprise account =>
      deleted = kind ∧
        if ByKey kind enterprise account then
          asked platform enterprise account = identity
        else if filterText account ≠ "" then
          normalizeSegment platform (filterText account) = identity.account
        else activeKey state kind = some identity.key
  | _ => False

/-- The call stores the payload for the identity. -/
def Writes (platform : Platform Key Envelope) (kind : Kind)
    (identity : Identity) : Call → Prop
  | .write written payload =>
      written = kind ∧ identityOf platform kind payload = some identity
  | _ => False

instance (platform : Platform Key Envelope) (state : State Key Envelope)
    (kind : Kind) (identity : Identity) :
    DecidablePred (Erases platform state kind identity)
  | .write _ _ => inferInstanceAs (Decidable (_ ∧ _))
  | .delete _ _ _ => inferInstanceAs (Decidable (_ ∧ _))
  | .read _ _ _ => isFalse id
  | .list => isFalse id

instance (platform : Platform Key Envelope) (kind : Kind)
    (identity : Identity) : DecidablePred (Writes platform kind identity)
  | .write _ _ => inferInstanceAs (Decidable (_ ∧ _))
  | .delete _ _ _ => isFalse id
  | .read _ _ _ => isFalse id
  | .list => isFalse id

/-- What is stored under the key of the identity is the identity's own. -/
def Owned (platform : Platform Key Envelope) (state : State Key Envelope)
    (kind : Kind) (identity : Identity) : Prop :=
  ∀ record ∈ valueAt identity.key (records state kind),
    isTombstone record = false → recordIdentity platform record = identity

instance (platform : Platform Key Envelope) (state : State Key Envelope)
    (kind : Kind) (identity : Identity) :
    Decidable (Owned platform state kind identity) :=
  inferInstanceAs (Decidable (∀ record ∈ _, _ → _))

/-- An identity that is read and not stored: another session of its account
is not stored either, and the credentials read instead are those of the
account without an enterprise. -/
def Absent (platform : Platform Key Envelope) (state : State Key Envelope)
    (identity : Identity) : Kind → Prop
  | .session => ∀ entry ∈ records state .session,
      (recordIdentity platform entry.2).account ≠ identity.account
  | .credentials =>
      Owned platform state .credentials (fallback platform identity)

instance (platform : Platform Key Envelope) (state : State Key Envelope)
    (identity : Identity) : DecidablePred (Absent platform state identity)
  | .session => inferInstanceAs (Decidable (∀ entry ∈ _, _))
  | .credentials => inferInstanceAs (Decidable (Owned _ _ _ _))

/-- No call names an identity while another one is stored under its key, and
no session is read that is not stored while its account has another one. -/
def Careful (platform : Platform Key Envelope) (state : State Key Envelope)
    (turn : Turn Key) : Prop :=
  match turn.call with
  | .read kind enterprise account =>
      NamesBoth enterprise account →
        Owned platform state kind (asked platform enterprise account) ∧
          (valueAt (asked platform enterprise account).key
              (records state kind) = none →
            Absent platform state (asked platform enterprise account) kind)
  | .write kind payload =>
      ∀ identity ∈ identityOf platform kind payload,
        Owned platform state kind identity
  | .delete kind enterprise account =>
      ByKey kind enterprise account →
        Owned platform state kind (asked platform enterprise account)
  | .list => True

instance (platform : Platform Key Envelope) (state : State Key Envelope)
    (turn : Turn Key) : Decidable (Careful platform state turn) := by
  unfold Careful
  cases turn.call <;> infer_instance

/-! ### What is stored -/

/-- The entry holds a payload of its own identity, or is a tombstone. -/
def Holds (platform : Platform Key Envelope) (masterKey : Option Key)
    (kind : Kind) (entry : String × StoredRecord Envelope) : Prop :=
  ∃ key salt payload, masterKey = some key ∧
    entry.2.envelope =
      platform.encrypt key (context kind entry.1) salt payload ∧
    (payload = "" ∧ isTombstone entry.2 = true ∨
      isTombstone entry.2 = false ∧
        identityOf platform kind payload =
          some (recordIdentity platform entry.2) ∧
        entry.1 = (recordIdentity platform entry.2).key)

structure WellFormed (platform : Platform Key Envelope)
    (state : State Key Envelope) : Prop where
  keyed : ∀ kind, Keyed Prod.fst (records state kind)
  holds : ∀ kind, ∀ entry ∈ records state kind,
    Holds platform state.masterKey kind entry
  anonymous : ∀ vault ∈ state.session, ∀ envelope ∈ vault.activeEnvelope,
    ∃ key salt payload, state.masterKey = some key ∧
      envelope = platform.encrypt key "session:active" salt payload ∧
      identityOf platform .session payload = none

theorem trim_trim (text : String) : trim (trim text) = trim text := by
  unfold trim
  rw [String.toList_ofList]
  have hmiddle := List.dropWhile_idempotent isWhitespace text.toList
  generalize text.toList.dropWhile isWhitespace = middle at hmiddle ⊢
  have hstart : (middle.rdropWhile isWhitespace).dropWhile isWhitespace =
      middle.rdropWhile isWhitespace := by
    cases hright : middle.rdropWhile isWhitespace with
    | nil => rfl
    | cons head tail =>
        obtain ⟨rest, hrest⟩ := hright ▸ List.rdropWhile_prefix isWhitespace
          middle
        rw [← hrest, List.cons_append] at hmiddle
        rw [List.dropWhile_cons] at hmiddle ⊢
        split
        · next hspace =>
            rw [if_pos hspace] at hmiddle
            have hle := (List.dropWhile_suffix (l := tail ++ rest)
              isWhitespace).length_le
            rw [hmiddle, List.length_cons] at hle
            omega
        · rfl
  rw [hstart, List.rdropWhile_idempotent]

theorem sealRecord_live (platform : Platform Key Envelope) (masterKey : Key)
    (draw : Draw Key) (context enterprise payload : String) {text : String}
    (h : trim text ≠ "") :
    isTombstone (sealRecord platform masterKey draw context enterprise
      (trim text) payload) = false := by
  rw [isTombstone, sealRecord, trim_trim]
  exact beq_false_of_ne h

theorem sessionScope_some {platform : Platform Key Envelope}
    {payload enterprise account : String}
    (h : sessionScope platform payload = some (enterprise, account)) :
    ∃ text, account = trim text ∧ trim text ≠ "" := by
  unfold sessionScope at h
  split at h
  · exact nomatch h
  · next extracted _ =>
      simp only at h
      split at h
      · next hne =>
          cases h
          exact ⟨extracted.account, rfl, by simpa using hne⟩
      · exact nomatch h

theorem credentialScope_ok {platform : Platform Key Envelope}
    {payload enterprise account : String}
    (h : credentialScope platform payload = .ok (enterprise, account)) :
    ∃ text, account = trim text ∧ trim text ≠ "" := by
  unfold credentialScope at h
  split at h
  · exact nomatch h
  · next extracted _ =>
      simp only at h
      split at h
      · exact nomatch h
      · next hne =>
          cases h
          exact ⟨extracted.account, rfl, by simpa using hne⟩

/-- The records after some were dropped and one was added. -/
def applied (added : Option (String × StoredRecord Envelope))
    (records : Records Envelope) : Records Envelope :=
  match added with
  | some entry => OrderedMap.insert entry.1 entry.2 records
  | none => records

/-- What a call may add to the records of a vault. -/
def Adds (platform : Platform Key Envelope) (state next : State Key Envelope)
    (kind : Kind) (call : Call) (entry : String × StoredRecord Envelope) :
    Prop :=
  Holds platform next.masterKey kind entry ∧
    (isTombstone entry.2 = true ∧ call = .write kind "" ∧
        clearedKey platform state kind = some entry.1 ∨
      isTombstone entry.2 = false ∧
        Writes platform kind (recordIdentity platform entry.2) call)

/-- What one call does to the records of a vault. -/
structure Effect (platform : Platform Key Envelope)
    (state next : State Key Envelope) (kind : Kind) (call : Call)
    (keep : String × StoredRecord Envelope → Bool)
    (added : Option (String × StoredRecord Envelope)) : Prop where
  result : records next kind = applied added ((records state kind).filter keep)
  dropped : ∀ entry ∈ records state kind, keep entry = false →
    isTombstone entry.2 = false →
    Erases platform state kind (recordIdentity platform entry.2) call
  erased : ∀ entry ∈ records state kind, isTombstone entry.2 = false →
    Erases platform state kind (recordIdentity platform entry.2) call →
    keep entry = false ∨ ∃ other ∈ added, other.1 = entry.1
  adds : ∀ entry ∈ added, Adds platform state next kind call entry

variable {platform : Platform Key Envelope} {state : State Key Envelope}

theorem Effect.unchanged {next : State Key Envelope} {kind : Kind}
    {call : Call} (h : records next kind = records state kind)
    (hquiet : ∀ entry ∈ records state kind,
      ¬ Erases platform state kind (recordIdentity platform entry.2) call) :
    Effect platform state next kind call (fun _ => true) none where
  result := by rw [h, applied, List.filter_eq_self.mpr (fun _ _ => rfl)]
  dropped := fun _ _ hkeep => nomatch hkeep
  erased := fun entry hmem _ herases => absurd herases (hquiet entry hmem)
  adds := fun _ hentry => nomatch hentry

/-- An entry under the key of an identity that owns its key is that
identity's. -/
theorem Owned.identity {kind : Kind} {identity : Identity}
    (h : Owned platform state kind identity)
    (hkeyed : Keyed Prod.fst (records state kind))
    {entry : String × StoredRecord Envelope}
    (hmem : entry ∈ records state kind) (hkey : entry.1 = identity.key)
    (hlive : isTombstone entry.2 = false) :
    recordIdentity platform entry.2 = identity := by
  refine h entry.2 ?_ hlive
  rw [valueAt, ← hkey, hkeyed entry hmem]
  rfl

theorem WellFormed.key (h : WellFormed platform state) {kind : Kind}
    {entry : String × StoredRecord Envelope}
    (hmem : entry ∈ records state kind)
    (hlive : isTombstone entry.2 = false) :
    entry.1 = (recordIdentity platform entry.2).key := by
  obtain ⟨_, _, _, _, _, ⟨_, htomb⟩ | ⟨_, _, hkey⟩⟩ := h.holds kind entry hmem
  · rw [hlive] at htomb
    exact nomatch htomb
  · exact hkey

end AiTeam.Vault
