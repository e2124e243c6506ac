/-
Passkey logins cannot be replayed or rolled back: along every run in which a
login stores its sign count over the one it was checked against, a challenge
leads to one login of its scope, origin and list, and counts only rise.
-/
import AiTeam.Passkey.Service

namespace AiTeam.Passkey

/-! ### The law -/

def Event.login? : Event → Option Login
  | .loggedIn login => some login
  | .made _ _ => none

/-- The successful logins, oldest first. -/
def logins (past : List Event) : List Login :=
  past.filterMap Event.login?

def Login.key (login : Login) : Text × Text :=
  (login.tenantId, login.credentialId)

/-- The login is one that the challenge was made for. -/
def Entry.Admits (entry : Entry) (login : Login) : Prop :=
  entry.kind = .login ∧ entry.scope = login.tenantId ∧
    entry.rpId = login.origin.rpId ∧ entry.origin = login.origin.origin ∧
    (entry.credentialIds = [] ∨ login.credentialId ∈ entry.credentialIds) ∧
    login.acceptedAt - entry.ts ≤ challengeTtl

/-- Two logins with one sign count have counters that are not in use. -/
def Apart (first second : Login) : Prop :=
  first.key = second.key → first.signCount = second.signCount →
    first.signCount = 0

/-- Passkey logins as they are promised. -/
structure PasskeyLaw (past : List Event) : Prop where
  once : (logins past).Pairwise fun first second =>
    first.challenge ≠ second.challenge
  made : ∀ login ∈ logins past, ∃ entry, .made login.challenge entry ∈ past ∧
    entry.Admits login ∧
    ∀ other, .made login.challenge other ∈ past → other = entry
  counts : (logins past).Pairwise Apart

/-- No stored sign count decreases. -/
def CountsRise (crypto : Crypto) (acts : List (Act Request Int Outside)) :
    Prop :=
  ∀ first last, acts = first ++ last →
    ∀ row ∈ ((service crypto).machine.run (Service.idle empty)
      first).store.credentials,
    ∃ row' ∈ ((service crypto).machine.run (Service.idle empty)
      acts).store.credentials,
      row'.key = row.key ∧ row.signCount ≤ row'.signCount

/-- What the runs have to keep: an empty id of the payload stands for no
credential that the list leaves out; no other login has stored a sign count of
the credential since this one read it; and an authenticator sends a zero only
where a zero is stored. -/
def Careful (db : Db) (_ : Int) : Stage → Prop
  | .finishLogin _ _ payload credential => payload.listedId = some [] →
      ∀ item ∈ db.challenges, payload.challenge = some item.1 →
        [] ∈ item.2.credentialIds →
        credential.credentialId ∈ item.2.credentialIds
  | .updateUsage login credential =>
      (∀ row ∈ db.credentials, row.key = login.key →
        row.signCount = credential.signCount) ∧
      (login.signCount = 0 → credential.signCount = 0)
  | _ => True

instance (db : Db) (now : Int) :
    (stage : Stage) → Decidable (Careful db now stage)
  | .finishLogin _ _ payload credential => inferInstanceAs (Decidable
      (payload.listedId = some [] →
        ∀ item ∈ db.challenges, payload.challenge = some item.1 →
          [] ∈ item.2.credentialIds →
          credential.credentialId ∈ item.2.credentialIds))
  | .updateUsage login credential => inferInstanceAs (Decidable
      ((∀ row ∈ db.credentials, row.key = login.key →
        row.signCount = credential.signCount) ∧
      (login.signCount = 0 → credential.signCount = 0)))
  | .start _ | .listLogin _ _ _ | .makeLogin _ _ _ | .checkUser _ _ _ _
  | .findUser _ | .listRegistered _ _ _ | .makeRegistration _ _ _ _
  | .finishRegistration _ _ _ _ _ | .checkRegistered _ | .insert _
  | .returned | .failed => isTrue trivial

/-! ### The invariant -/

/-- The challenge was drawn and is not in memory any more. -/
def Spent (db : Db) (challenge : Nat) : Prop :=
  challenge < db.drawn ∧ ∀ item ∈ db.challenges, item.1 ≠ challenge

/-- The credential is stored, with at least the sign count. -/
def Reached (db : Db) (key : Text × Text) (signCount : Nat) : Prop :=
  ∃ row ∈ db.credentials, row.key = key ∧ signCount ≤ row.signCount

def Accepted (past : List Event) (login : Login) : Prop :=
  ∃ entry, .made login.challenge entry ∈ past ∧ entry.Admits login

structure Sound (db : Db) (past : List Event) : Prop where
  keyed : Keyed Credential.key db.credentials
  stored : ∀ item ∈ db.challenges, .made item.1 item.2 ∈ past
  drawn : ∀ challenge entry, .made challenge entry ∈ past →
    challenge < db.drawn
  unique : ∀ challenge entry other, .made challenge entry ∈ past →
    .made challenge other ∈ past → other = entry
  spent : ∀ login ∈ logins past, Spent db login.challenge
  accepted : ∀ login ∈ logins past, Accepted past login
  reached : ∀ login ∈ logins past, Reached db login.key login.signCount
  once : (logins past).Pairwise fun first second =>
    first.challenge ≠ second.challenge
  counts : (logins past).Pairwise Apart

/-- An accepted login that has not returned. -/
structure Pending (db : Db) (past : List Event) (login : Login) : Prop where
  spent : Spent db login.challenge
  accepted : Accepted past login
  fresh : ∀ other ∈ logins past, other.challenge ≠ login.challenge

/-- The count has passed the check against the one of the credential. -/
def Advanced (login : Login) (credential : Credential) : Prop :=
  login.signCount ≠ 0 → credential.signCount ≠ 0 →
    credential.signCount < login.signCount

/-- What a call knows between two statements. -/
def Knows (db : Db) (past : List Event) : Stage → Prop
  | .checkUser _ tenantId payload credential
  | .finishLogin _ tenantId payload credential =>
      payload.credentialId = some credential.credentialId ∧
        Reached db (tenantId, credential.credentialId) 0
  | .updateUsage login credential => Pending db past login ∧
      Reached db login.key 0 ∧ Advanced login credential
  | .findUser login => Pending db past login ∧
      Reached db login.key login.signCount ∧
      ∀ other ∈ logins past, Apart other login
  | _ => True

/-- The login that a call holds a challenge for. -/
def Stage.login? : Stage → Option Login
  | .updateUsage login _ | .findUser login => some login
  | _ => none

/-- The login whose sign count a call has stored. -/
def Stage.written? : Stage → Option Login
  | .findUser login => some login
  | _ => none

/-- Two calls hold different challenges and have stored different counts. -/
def StagesApart (stage other : Stage) : Prop :=
  (∀ login ∈ stage.login?, ∀ another ∈ other.login?,
    login.challenge ≠ another.challenge) ∧
  ∀ login ∈ stage.written?, ∀ another ∈ other.written?, Apart login another

/-- What never goes back. -/
structure Onward (db db' : Db) : Prop where
  spent : ∀ challenge, Spent db challenge → Spent db' challenge
  reached : ∀ key signCount, Reached db key signCount →
    Reached db' key signCount

variable {stage next : Stage} {now : Int} {challenges : Challenges}
  {entry : Entry} {origin : AuthOrigin} {payload : LoginPayload}
  {tenantId : Text}

section

variable {db db' : Db} {past events : List Event}

theorem Apart.symm {first second : Login} (h : Apart first second) :
    Apart second first := by
  intro hkey hcount
  rw [hcount]
  exact h hkey.symm hcount.symm

theorem StagesApart.symm {other : Stage} (h : StagesApart stage other) :
    StagesApart other stage :=
  ⟨fun login hlogin another hanother =>
      (h.1 another hanother login hlogin).symm,
    fun login hlogin another hanother =>
      (h.2 another hanother login hlogin).symm⟩

theorem stagesApart_of_none (h : stage.login? = none) (other : Stage) :
    StagesApart stage other := by
  have hwritten : stage.written? = none := by
    cases stage <;> first | rfl | cases h
  constructor
  · intro login hlogin
    rw [h] at hlogin
    cases hlogin
  · intro login hlogin
    rw [hwritten] at hlogin
    cases hlogin

theorem Onward.refl (db : Db) : Onward db db :=
  ⟨fun _ h => h, fun _ _ h => h⟩

theorem Onward.trans {db'' : Db} (h : Onward db db') (h' : Onward db' db'') :
    Onward db db'' :=
  ⟨fun challenge hspent => h'.spent challenge (h.spent challenge hspent),
    fun key signCount hreached =>
      h'.reached key signCount (h.reached key signCount hreached)⟩

theorem logins_append (past events : List Event) :
    logins (past ++ events) = logins past ++ logins events :=
  List.filterMap_append

theorem Accepted.append {login : Login} (h : Accepted past login)
    (events : List Event) : Accepted (past ++ events) login := by
  obtain ⟨entry, hmade, hadmits⟩ := h
  exact ⟨entry, List.mem_append_left _ hmade, hadmits⟩

theorem Pending.onward {login : Login} (h : Pending db past login)
    (honward : Onward db db')
    (hfresh : ∀ other ∈ logins events, other.challenge ≠ login.challenge) :
    Pending db' (past ++ events) login := by
  refine ⟨honward.spent _ h.spent, h.accepted.append events, ?_⟩
  intro other hother
  rw [logins_append] at hother
  rcases List.mem_append.mp hother with hold | hnew
  · exact h.fresh other hold
  · exact hfresh other hnew

/-- A call keeps what it knows over the statements of the others. -/
theorem Knows.onward (h : Knows db past stage) (honward : Onward db db')
    (hheld : ∀ login ∈ stage.login?, ∀ other ∈ logins events,
      other.challenge ≠ login.challenge)
    (hwritten : ∀ login ∈ stage.written?, ∀ other ∈ logins events,
      Apart other login) : Knows db' (past ++ events) stage := by
  cases stage with
  | checkUser _ _ _ _ => exact ⟨h.1, honward.reached _ _ h.2⟩
  | finishLogin _ _ _ _ => exact ⟨h.1, honward.reached _ _ h.2⟩
  | updateUsage login _ =>
      exact ⟨h.1.onward honward (hheld login rfl),
        honward.reached _ _ h.2.1, h.2.2⟩
  | findUser login =>
      obtain ⟨hpending, hreached, hcounts⟩ := h
      refine ⟨hpending.onward honward (hheld login rfl),
        honward.reached _ _ hreached, ?_⟩
      intro other hother
      rw [logins_append] at hother
      rcases List.mem_append.mp hother with hold | hnew
      · exact hcounts other hold
      · exact hwritten login rfl other hnew
  | _ => trivial

theorem Knows.later (h : Knows db past stage) (honward : Onward db db') :
    Knows db' past stage := by
  have hkept : Knows db' (past ++ []) stage := by
    apply h.onward honward
    · intro login _ other hother
      cases hother
    · intro login _ other hother
      cases hother
  rwa [List.append_nil] at hkept

/-- A statement leaves sound tables, what its call has to know, and what the
others know. -/
def Carried (db : Db) (past : List Event) (stage : Stage)
    (result : Db × Stage × List Event) : Prop :=
  Sound result.1 (past ++ result.2.2) ∧
    Knows result.1 (past ++ result.2.2) result.2.1 ∧
    Onward db result.1 ∧
    ∀ other, Knows db past other → StagesApart stage other →
      Knows result.1 (past ++ result.2.2) other ∧
        StagesApart result.2.1 other

/-- A statement after which no login returns. -/
theorem carried_of_quiet (hsound : Sound db' (past ++ events))
    (honward : Onward db db') (hknows : Knows db' (past ++ events) next)
    (hquiet : logins events = [])
    (hapart : ∀ other, Knows db past other → StagesApart stage other →
      StagesApart next other) : Carried db past stage (db', next, events) := by
  refine ⟨hsound, hknows, honward, ?_⟩
  intro other hother hstages
  refine ⟨hother.onward honward ?_ ?_, hapart other hother hstages⟩
  · intro login _ another hanother
    rw [hquiet] at hanother
    cases hanother
  · intro login _ another hanother
    rw [hquiet] at hanother
    cases hanother

/-- A statement after which the call holds no challenge. -/
theorem Sound.leave (h : Sound db' past) (honward : Onward db db')
    (hknows : Knows db' past next) (hnone : next.login? = none) :
    Carried db past stage (db', next, []) := by
  apply carried_of_quiet (by simpa using h) honward (by simpa using hknows)
    rfl
  exact fun other _ _ => stagesApart_of_none hnone other

theorem Sound.stay (h : Sound db past) (hknows : Knows db past next)
    (hnone : next.login? = none) : Carried db past stage (db, next, []) :=
  h.leave (Onward.refl db) hknows hnone

theorem Knows.pending {login : Login} (h : Knows db past stage)
    (hlogin : stage.login? = some login) : Pending db past login := by
  cases stage with
  | updateUsage held _ =>
      obtain rfl := Option.some.inj hlogin
      exact h.1
  | findUser held =>
      obtain rfl := Option.some.inj hlogin
      exact h.1
  | _ => cases hlogin

/-! ### Challenges -/

theorem mem_cleanup {item : Nat × Entry}
    (h : item ∈ cleanupChallenges challenges now) :
    item ∈ challenges ∧ now - item.2.ts ≤ challengeTtl := by
  obtain ⟨hmem, hlive⟩ := List.mem_filter.mp h
  rw [Bool.not_eq_true', decide_eq_false_iff_not] at hlive
  exact ⟨hmem, Int.not_lt.mp hlive⟩

/-- Tables whose challenges have become fewer. -/
theorem Sound.fewer (h : Sound db past)
    (hfewer : ∀ item ∈ challenges, item ∈ db.challenges) :
    Sound { db with challenges } past ∧
      Onward db { db with challenges } := by
  have hspent : ∀ challenge, Spent db challenge →
      Spent { db with challenges } challenge := by
    intro challenge hspent
    exact ⟨hspent.1, fun item hitem => hspent.2 item (hfewer item hitem)⟩
  constructor
  · refine ⟨h.keyed, ?_, h.drawn, h.unique, ?_, h.accepted, h.reached,
      h.once, h.counts⟩
    · exact fun item hitem => h.stored item (hfewer item hitem)
    · exact fun login hlogin => hspent _ (h.spent login hlogin)
  · exact ⟨hspent, fun _ _ hreached => hreached⟩

theorem mem_assign {challenge : Nat} {item : Nat × Entry}
    (h : item ∈ assign challenge entry challenges) :
    item ∈ challenges ∨ item = (challenge, entry) := by
  rcases List.mem_append.mp h with hold | hnew
  · exact Or.inl (List.mem_filter.mp hold).1
  · exact Or.inr (List.mem_singleton.mp hnew)

theorem Sound.make (h : Sound db past) (entry : Entry) :
    Carried db past stage (makeChallenge db entry) := by
  have hmem : ∀ item ∈ storeChallenge db.challenges db.drawn entry,
      item ∈ db.challenges ∨ item = (db.drawn, entry) := by
    intro item hitem
    rcases mem_assign hitem with hold | hnew
    · exact Or.inl (mem_cleanup hold).1
    · exact Or.inr hnew
  have hspent : ∀ challenge, Spent db challenge →
      Spent (makeChallenge db entry).1 challenge := by
    rintro challenge ⟨hdrawn, hgone⟩
    refine ⟨Nat.lt_succ_of_lt hdrawn, ?_⟩
    intro item hitem
    rcases hmem item hitem with hold | rfl
    · exact hgone item hold
    · exact (Nat.ne_of_lt hdrawn).symm
  have hlogins : logins (past ++ [.made db.drawn entry]) = logins past := by
    rw [logins_append]
    exact List.append_nil _
  have hsound : Sound (makeChallenge db entry).1
      (past ++ [.made db.drawn entry]) := by
    constructor
    · exact h.keyed
    · intro item hitem
      rcases hmem item hitem with hold | rfl
      · exact List.mem_append_left _ (h.stored item hold)
      · exact List.mem_append_right _ List.mem_cons_self
    · intro challenge other hmade
      rcases List.mem_append.mp hmade with hpast | hnew
      · exact Nat.lt_succ_of_lt (h.drawn challenge other hpast)
      · obtain ⟨rfl, -⟩ := Event.made.inj (List.mem_singleton.mp hnew)
        exact Nat.lt_succ_self _
    · intro challenge first second hfirst hsecond
      rcases List.mem_append.mp hfirst with hpast | hnew
      · rcases List.mem_append.mp hsecond with hpast' | hnew'
        · exact h.unique challenge first second hpast hpast'
        · obtain ⟨rfl, -⟩ := Event.made.inj (List.mem_singleton.mp hnew')
          exact absurd (h.drawn _ _ hpast) (Nat.lt_irrefl _)
      · obtain ⟨rfl, rfl⟩ := Event.made.inj (List.mem_singleton.mp hnew)
        rcases List.mem_append.mp hsecond with hpast' | hnew'
        · exact absurd (h.drawn _ _ hpast') (Nat.lt_irrefl _)
        · exact (Event.made.inj (List.mem_singleton.mp hnew')).2
    · rw [hlogins]
      exact fun login hlogin => hspent _ (h.spent login hlogin)
    · rw [hlogins]
      exact fun login hlogin => (h.accepted login hlogin).append _
    · rw [hlogins]
      exact h.reached
    · rw [hlogins]
      exact h.once
    · rw [hlogins]
      exact h.counts
  apply carried_of_quiet hsound ⟨hspent, fun _ _ hreached => hreached⟩
  · trivial
  · rfl
  · exact fun other _ _ => stagesApart_of_none rfl other

/-- What a challenge that passes `_validate_client` says. -/
theorem validateClient_some {left : Challenges}
    {clientData : Option ClientData} {expectedType : Text} {kind : Kind}
    {scope : Text}
    (h : validateClient challenges now clientData expectedType kind origin
      scope = (left, some entry)) :
    ∃ challenge, clientData.bind ClientData.challenge = some challenge ∧
      (challenge, entry) ∈ challenges ∧
      now - entry.ts ≤ challengeTtl ∧ entry.kind = kind ∧
      entry.rpId = origin.rpId ∧ entry.origin = origin.origin ∧
      entry.scope = scope ∧
      left = discard challenge (cleanupChallenges challenges now) := by
  cases clientData with
  | none => cases h
  | some data =>
      simp only [validateClient] at h
      split at h
      · cases h
      · cases hchallenge : data.challenge with
        | none =>
            rw [hchallenge] at h
            cases h
        | some challenge =>
            rw [hchallenge] at h
            simp only [consumeChallenge, Prod.mk.injEq] at h
            obtain ⟨rfl, hentry⟩ := h
            rw [Option.filter_eq_some_iff, Option.filter_eq_some_iff] at hentry
            obtain ⟨⟨hvalue, hkind⟩, hchecks⟩ := hentry
            simp only [Bool.and_eq_true, beq_iff_eq] at hkind hchecks
            have hitem := lookup_mem (lookup_of_valueAt hvalue)
            obtain ⟨hmem, hlive⟩ := mem_cleanup hitem
            exact ⟨challenge, hchallenge, hmem, hlive, hkind,
              hchecks.1.1.1.1, hchecks.1.1.1.2, hchecks.1.1.2, rfl⟩

/-- `_validate_client` leaves no new challenge. -/
theorem validateClient_fewer {left : Challenges}
    {clientData : Option ClientData} {expectedType : Text} {kind : Kind}
    {scope : Text} {entry : Option Entry}
    (h : validateClient challenges now clientData expectedType kind origin
      scope = (left, entry)) : ∀ item ∈ left, item ∈ challenges := by
  have hleft : left = (validateClient challenges now clientData expectedType
      kind origin scope).1 := by rw [h]
  rw [hleft]
  cases clientData with
  | none => exact fun _ hitem => hitem
  | some data =>
      simp only [validateClient]
      split
      · exact fun _ hitem => hitem
      · cases data.challenge with
        | none => exact fun _ hitem => hitem
        | some challenge =>
            intro item hitem
            exact (mem_cleanup (List.mem_filter.mp hitem).1).1

theorem checkAssertion_listed {crypto : Crypto} {payloadId : Option Text}
    {assertion : Assertion} {storedPem : Text} {oldSignCount signCount : Nat}
    (h : checkAssertion crypto payloadId assertion entry origin storedPem
      oldSignCount = some signCount) :
    entry.credentialIds = [] ∨
      ∃ id, payloadId = some id ∧ id ∈ entry.credentialIds := by
  rw [checkAssertion] at h
  split at h
  · cases h
  · next hlisted =>
      by_cases hempty : entry.credentialIds = []
      · exact Or.inl hempty
      · right
        have hany : payloadId.any (fun id => entry.credentialIds.contains id) =
            true := by
          by_contra hnot
          exact hlisted ⟨hempty, hnot⟩
        obtain ⟨id, hid, hmem⟩ := (Option.any_eq_true _ _).mp hany
        exact ⟨id, hid, List.contains_iff_mem.mp hmem⟩

/-- The check of the counters, where both are in use. -/
theorem checkAssertion_count {crypto : Crypto} {payloadId : Option Text}
    {assertion : Assertion} {storedPem : Text} {oldSignCount signCount : Nat}
    (h : checkAssertion crypto payloadId assertion entry origin storedPem
      oldSignCount = some signCount) (hnew : signCount ≠ 0)
    (hold : oldSignCount ≠ 0) : oldSignCount < signCount := by
  simp only [checkAssertion] at h
  repeat' split at h
  all_goals cases h
  next hcheck => exact Nat.lt_of_not_le fun hle => hcheck ⟨hnew, hold, hle⟩

/-- An id of the payload that is in the list is the credential's, unless it is
empty. -/
theorem LoginPayload.credentialId_listed {credentialId id : Text}
    (h : payload.credentialId = some credentialId)
    (hid : payload.listedId = some id) (hne : id ≠ []) : id = credentialId := by
  rw [LoginPayload.listedId] at hid
  split at hid
  · next value heq =>
      obtain rfl := Option.some.inj hid
      cases value with
      | nil => exact absurd rfl hne
      | cons head tail =>
          rw [LoginPayload.credentialId, heq] at h
          simpa using h
  · cases hid

section

variable (h : Sound db past)
include h

theorem Sound.finishLogin {crypto : Crypto} {credential : Credential}
    (hknows : Knows db past (.finishLogin origin tenantId payload credential))
    (hcareful : Careful db now
      (.finishLogin origin tenantId payload credential)) :
    Carried db past (.finishLogin origin tenantId payload credential)
      (statement crypto db now
        (.finishLogin origin tenantId payload credential)) := by
  obtain ⟨hcredential, hreached⟩ := hknows
  simp only [statement, Passkey.finishLogin]
  cases hvalid : validateClient db.challenges now payload.response.clientData
      "webauthn.get".toList .login origin tenantId with
  | mk left entry =>
  obtain ⟨hsound, honward⟩ := h.fewer (validateClient_fewer hvalid)
  have hfailed : Carried db past
      (.finishLogin origin tenantId payload credential)
      ({ db with challenges := left }, .failed, []) :=
    hsound.leave honward trivial rfl
  cases entry with
  | none => exact hfailed
  | some entry =>
      obtain ⟨challenge, hchallenge, hmem, hlive, hkind, hrp, horigin,
        hscope, rfl⟩ := validateClient_some hvalid
      rw [Option.bind_some]
      cases hcheck : checkAssertion crypto payload.listedId payload.response
          entry origin credential.publicKeyPem credential.signCount with
      | none => exact hfailed
      | some signCount =>
          have hanswered : payload.challenge = some challenge := hchallenge
          simp only [hanswered]
          have hlisted : entry.credentialIds = [] ∨
              credential.credentialId ∈ entry.credentialIds := by
            rcases checkAssertion_listed hcheck with hall | ⟨id, hid, hin⟩
            · exact Or.inl hall
            · right
              by_cases hempty : id = []
              · subst hempty
                exact hcareful hid _ hmem hanswered hin
              · rw [← LoginPayload.credentialId_listed hcredential hid hempty]
                exact hin
          have hmade := h.stored _ hmem
          have hspent : Spent { db with
              challenges := discard challenge
                (cleanupChallenges db.challenges now) } challenge := by
            refine ⟨h.drawn challenge entry hmade, ?_⟩
            intro item hitem hsame
            have hother := (List.mem_filter.mp hitem).2
            simp [hsame] at hother
          apply carried_of_quiet (by simpa using hsound) honward
          · refine ⟨⟨hspent, ?_, ?_⟩, hreached, checkAssertion_count hcheck⟩
            · refine ⟨entry, List.mem_append_left _ hmade, hkind, hscope, hrp,
                horigin, hlisted, hlive⟩
            · rw [List.append_nil]
              rintro other hother rfl
              exact (h.spent other hother).2 _ hmem rfl
          · rfl
          · -- The challenge was in memory, those of the others are spent.
            intro other hother _
            constructor
            · intro login hlogin another hanother hsame
              obtain rfl := Option.some.inj hlogin
              exact (hother.pending hanother).spent.2 _ hmem hsame
            · intro login hlogin
              cases hlogin

/-! ### Credentials -/

theorem Sound.credentials {credentials : List Credential}
    (hkeyed : Keyed Credential.key credentials)
    (hreached : ∀ key signCount, Reached db key signCount →
      Reached { db with credentials } key signCount) :
    Sound { db with credentials } past ∧
      Onward db { db with credentials } := by
  constructor
  · refine ⟨hkeyed, h.stored, h.drawn, h.unique, h.spent, h.accepted, ?_,
      h.once, h.counts⟩
    exact fun login hlogin => hreached _ _ (h.reached login hlogin)
  · exact ⟨fun _ hspent => hspent, hreached⟩

theorem Sound.insert {row : Credential} {credentials : List Credential}
    (hinsert : insertCredential db.credentials row = some credentials) :
    Sound { db with credentials } past ∧
      Onward db { db with credentials } := by
  rw [insertCredential] at hinsert
  split at hinsert
  · next hfree =>
      obtain rfl := Option.some.inj hinsert
      rw [Bool.and_eq_true, Option.isNone_iff_eq_none] at hfree
      apply h.credentials
      · exact h.keyed.append hfree.2
      · rintro key signCount ⟨old, hold, hreached⟩
        exact ⟨old, List.mem_append_left _ hold, hreached⟩
  · cases hinsert

/-- A stored count rises, or two zeros meet. -/
theorem Sound.update {login : Login} {credentials : List Credential}
    (hupdate : updateUsage db.credentials login.tenantId login.credentialId
      login.signCount = some credentials)
    (hrises : ∀ row ∈ db.credentials, row.key = login.key →
      row.signCount < login.signCount ∨
        login.signCount = 0 ∧ row.signCount = 0)
    (hstored : Reached db login.key 0) :
    (Sound { db with credentials } past ∧
      Onward db { db with credentials }) ∧
      Reached { db with credentials } login.key login.signCount := by
  rw [updateUsage] at hupdate
  split at hupdate
  · obtain rfl := Option.some.inj hupdate
    constructor
    · apply h.credentials
      · exact h.keyed.updateWhere _ _ fun _ => rfl
      · rintro key signCount ⟨row, hrow, hkey, hcount⟩
        refine ⟨_, List.mem_map_of_mem hrow, ?_⟩
        split
        · next hguard =>
            have hrise := hrises row hrow (beq_iff_eq.mp hguard)
            refine ⟨hkey, ?_⟩
            change signCount ≤ login.signCount
            omega
        · exact ⟨hkey, hcount⟩
    · obtain ⟨row, hrow, hkey, -⟩ := hstored
      refine ⟨_, List.mem_map_of_mem hrow, ?_⟩
      have hguard : (row.key == (login.tenantId, login.credentialId)) = true :=
        beq_iff_eq.mpr hkey
      rw [if_pos hguard]
      exact ⟨hkey, Nat.le_refl _⟩
  · cases hupdate

theorem Sound.updateUsage {crypto : Crypto} {login : Login}
    {credential : Credential}
    (hknows : Knows db past (.updateUsage login credential))
    (hcareful : Careful db now (.updateUsage login credential)) :
    Carried db past (.updateUsage login credential)
      (statement crypto db now (.updateUsage login credential)) := by
  obtain ⟨hpending, hstored, hadvanced⟩ := hknows
  obtain ⟨hsame, hzero⟩ := hcareful
  -- What was checked against the count read holds of the one still stored.
  have hrises : ∀ row ∈ db.credentials, row.key = login.key →
      row.signCount < login.signCount ∨
        login.signCount = 0 ∧ row.signCount = 0 := by
    intro row hrow hkey
    rw [hsame row hrow hkey]
    by_cases hnew : login.signCount = 0
    · exact .inr ⟨hnew, hzero hnew⟩
    · by_cases hold : credential.signCount = 0
      · rw [hold]
        exact .inl (Nat.pos_of_ne_zero hnew)
      · exact .inl (hadvanced hnew hold)
  simp only [statement]
  cases hupdate : Passkey.updateUsage db.credentials login.tenantId
      login.credentialId login.signCount with
  | none => exact h.stay trivial rfl
  | some credentials =>
      obtain ⟨⟨hsound, honward⟩, hreached⟩ := h.update hupdate hrises hstored
      -- Whoever stored the same count before left the counter at zero.
      have hcounts : ∀ other : Login, Reached db other.key other.signCount →
          Apart other login := by
        rintro other ⟨row, hrow, hkey, hcount⟩ hsame heq
        have hrise := hrises row hrow (hkey.trans hsame)
        omega
      apply carried_of_quiet (by simpa using hsound) honward
      · rw [List.append_nil]
        refine ⟨⟨honward.spent _ hpending.spent, hpending.accepted,
          hpending.fresh⟩, hreached, ?_⟩
        exact fun other hother => hcounts other (h.reached other hother)
      · rfl
      · intro other hother hstages
        constructor
        · exact hstages.1
        · intro held hheld another hanother
          obtain rfl := Option.some.inj hheld
          cases other with
          | findUser written =>
              obtain rfl := Option.some.inj hanother
              exact (hcounts _ hother.2.1).symm
          | _ => cases hanother

/-- The login returns: its challenge and its count are its own. -/
theorem Sound.loggedIn {login : Login}
    (hknows : Knows db past (.findUser login)) :
    Carried db past (.findUser login) (db, .returned, [.loggedIn login]) := by
  obtain ⟨hpending, hreached, hcounts⟩ := hknows
  have hlogins : logins (past ++ [.loggedIn login]) =
      logins past ++ [login] := logins_append past _
  have hall : ∀ {P : Login → Prop}, (∀ other ∈ logins past, P other) →
      P login → ∀ other ∈ logins (past ++ [.loggedIn login]), P other := by
    intro P hold hnew other hother
    rw [hlogins] at hother
    rcases List.mem_append.mp hother with hpast | hself
    · exact hold other hpast
    · rw [List.mem_singleton.mp hself]
      exact hnew
  have hmade : ∀ {challenge entry},
      .made challenge entry ∈ past ++ [.loggedIn login] →
      .made challenge entry ∈ past := by
    intro challenge entry hmem
    simpa using hmem
  refine ⟨?_, trivial, Onward.refl db, ?_⟩
  · constructor
    · exact h.keyed
    · exact fun item hitem => List.mem_append_left _ (h.stored item hitem)
    · exact fun challenge entry hmem => h.drawn challenge entry (hmade hmem)
    · exact fun challenge entry other hfirst hsecond =>
        h.unique challenge entry other (hmade hfirst) (hmade hsecond)
    · exact hall h.spent hpending.spent
    · exact hall (fun other hother => (h.accepted other hother).append _)
        (hpending.accepted.append _)
    · exact hall h.reached hreached
    · rw [hlogins]
      apply List.pairwise_append.mpr
      refine ⟨h.once, List.pairwise_singleton _ _, ?_⟩
      intro other hother last hlast
      rw [List.mem_singleton.mp hlast]
      exact hpending.fresh other hother
    · rw [hlogins]
      apply List.pairwise_append.mpr
      refine ⟨h.counts, List.pairwise_singleton _ _, ?_⟩
      intro other hother last hlast
      rw [List.mem_singleton.mp hlast]
      exact hcounts other hother
  · intro other hother hstages
    refine ⟨hother.onward (Onward.refl db) ?_ ?_,
      stagesApart_of_none rfl other⟩
    · intro held hheld another hanother
      rw [List.mem_singleton.mp hanother]
      exact hstages.1 login rfl held hheld
    · intro held hheld another hanother
      rw [List.mem_singleton.mp hanother]
      exact hstages.2 login rfl held hheld

/-! ### Statements -/

theorem Sound.startLogin {crypto : Crypto} :
    Carried db past (.start (.finishLogin origin tenantId payload))
      (statement crypto db now
        (.start (.finishLogin origin tenantId payload))) := by
  simp only [statement]
  cases hid : payload.credentialId with
  | none => exact h.stay trivial rfl
  | some credentialId =>
      simp only
      cases hfind : findByCredential db.credentials tenantId credentialId with
      | none => exact h.stay trivial rfl
      | some credential =>
          have hkey : credential.key = (tenantId, credentialId) :=
            lookup_key hfind
          obtain ⟨-, hcredential⟩ := Prod.mk.inj hkey
          apply h.stay _ rfl
          rw [← hcredential] at hkey
          exact ⟨by rw [hid, hcredential], credential, lookup_mem hfind, hkey,
            Nat.zero_le _⟩

theorem Sound.finishRegistration {crypto : Crypto} {userId label : Text}
    {attestation : Attestation} :
    Carried db past
      (.finishRegistration origin tenantId userId label attestation)
      (statement crypto db now
        (.finishRegistration origin tenantId userId label attestation)) := by
  simp only [statement, Passkey.finishRegistration]
  cases hvalid : validateClient db.challenges now attestation.clientData
      "webauthn.create".toList .register origin
      (registrationScope tenantId userId) with
  | mk left entry =>
  obtain ⟨hsound, honward⟩ := h.fewer (validateClient_fewer hvalid)
  simp only
  split
  · exact hsound.leave honward trivial rfl
  · exact hsound.leave honward trivial rfl

theorem Sound.statement {crypto : Crypto} (hknows : Knows db past stage)
    (hcareful : Careful db now stage) :
    Carried db past stage (statement crypto db now stage) := by
  cases stage with
  | start request =>
      cases request with
      | authenticationOptions origin tenantId account =>
          simp only [Passkey.statement]
          split
          · exact h.stay trivial rfl
          · exact h.stay trivial rfl
          · split
            · exact h.stay trivial rfl
            · split <;> exact h.stay trivial rfl
      | finishLogin origin tenantId payload => exact h.startLogin
      | registrationOptions origin tenantId userId =>
          simp only [Passkey.statement]
          split <;> exact h.stay trivial rfl
      | finishRegistration origin tenantId userId label attestation =>
          simp only [Passkey.statement]
          split <;> exact h.stay trivial rfl
  | listLogin origin tenantId userId =>
      simp only [Passkey.statement]
      split <;> exact h.stay trivial rfl
  | makeLogin origin tenantId allow => exact h.make _
  | checkUser origin tenantId payload credential =>
      simp only [Passkey.statement]
      split
      · exact h.stay hknows rfl
      · exact h.stay trivial rfl
  | finishLogin origin tenantId payload credential =>
      exact h.finishLogin hknows hcareful
  | updateUsage login credential => exact h.updateUsage hknows hcareful
  | findUser login =>
      simp only [Passkey.statement]
      split
      · exact h.loggedIn hknows
      · exact h.stay trivial rfl
  | listRegistered origin tenantId userId => exact h.stay trivial rfl
  | makeRegistration origin tenantId userId existing => exact h.make _
  | finishRegistration origin tenantId userId label attestation =>
      exact h.finishRegistration
  | checkRegistered row =>
      simp only [Passkey.statement]
      split <;> exact h.stay trivial rfl
  | insert row =>
      simp only [Passkey.statement]
      cases hinsert : insertCredential db.credentials row with
      | none => exact h.stay trivial rfl
      | some credentials =>
          obtain ⟨hsound, honward⟩ := h.insert hinsert
          exact hsound.leave honward trivial rfl
  | returned =>
      rw [statement_ended crypto db now (.inl rfl)]
      exact h.stay trivial rfl
  | failed =>
      rw [statement_ended crypto db now (.inr rfl)]
      exact h.stay trivial rfl

theorem Sound.outside (action : Outside) :
    Sound (outside db action).1 past ∧
      Onward db (Passkey.outside db action).1 := by
  cases action with
  | accounts users =>
      exact ⟨⟨h.keyed, h.stored, h.drawn, h.unique, h.spent, h.accepted,
        h.reached, h.once, h.counts⟩, fun _ hspent => hspent,
        fun _ _ hreached => hreached⟩
  | restart =>
      apply h.fewer
      intro item hitem
      cases hitem

end

theorem outside_quiet (action : Outside) : (outside db action).2 = [] := by
  cases action <;> rfl

theorem sound_empty : Sound empty [] := by
  constructor
  · exact Keyed.nil _
  all_goals simp [empty, logins]

end

/-- The proof of the service by what every call knows and what keeps the calls
apart. -/
def proof (crypto : Crypto) :
    (service crypto).Proof Careful (fun _ _ => True) where
  inv := Sound
  knows := Knows
  apart := StagesApart
  symm h := h.symm
  starts _ request :=
    ⟨trivial, fun other _ => stagesApart_of_none rfl other⟩
  keeps hsound hknows hcareful := by
    obtain ⟨hnext, hself, -, hothers⟩ := hsound.statement hknows hcareful
    exact ⟨hnext, hself, hothers⟩
  bears {store past action} hsound _ := by
    obtain ⟨hnext, honward⟩ := hsound.outside action
    have hquiet : ((service crypto).outside store action).2 = [] :=
      outside_quiet action
    intro result
    rw [hquiet, List.append_nil]
    exact ⟨hnext, fun stage hknows => hknows.later honward⟩

theorem progress (crypto : Crypto) : (proof crypto).Progress Onward where
  refl := Onward.refl
  trans h h' := h.trans h'
  keeps hsound hknows hcareful := (hsound.statement hknows hcareful).2.2.1
  bears hsound _ := (hsound.outside _).2

/-- Along every careful run passkey logins are neither replayed nor rolled
back. -/
theorem careful_passkeys_not_replayed (crypto : Crypto)
    (acts : List (Act Request Int Outside))
    (hcareful : (service crypto).machine.Admissible
      (Service.Restricted Careful fun _ _ => True) (Service.idle empty)
      acts) :
    PasskeyLaw ((service crypto).machine.trace (Service.idle empty) acts) ∧
      CountsRise crypto acts := by
  constructor
  · have hsound := ((proof crypto).run sound_empty acts hcareful).inv
    refine ⟨hsound.once, ?_, hsound.counts⟩
    intro login hlogin
    obtain ⟨entry, hmade, hadmits⟩ := hsound.accepted login hlogin
    exact ⟨entry, hmade, hadmits,
      fun other hother => hsound.unique _ _ _ hmade hother⟩
  · rintro first last rfl row hrow
    have honward := (progress crypto).run sound_empty hcareful
    exact honward.reached _ _ ⟨row, hrow, rfl, Nat.le_refl _⟩

namespace ReplayWitness

/-- Signatures that always verify, and one digest. -/
def crypto : Crypto where
  idna _ := some []
  sha256 _ := List.replicate 32 0
  verify _ _ _ := true

def site : AuthOrigin := ⟨['r'], ['o']⟩

def tenant : Text := ['t']

/-- Authenticator data with all flags and a sign count. -/
def authData (count : UInt8) : Bytes :=
  List.replicate 32 0 ++ [69, 0, 0, 0, count]

def clientData (type : Text) (challenge : Nat) : ClientData :=
  ⟨some type, some challenge, some site.origin, false⟩

def proceed (index count : Nat) : List (Act Request Int Outside) :=
  List.replicate count (.proceed index 0)

/-- A credential with the sign count 5, by the calls 0 and 1. -/
def registered : List (Act Request Int Outside) :=
  .outside (.accounts [⟨tenant, ['u'], ['a'], true⟩]) ::
    .request (.registrationOptions site tenant ['u']) :: proceed 0 3 ++
    .request (.finishRegistration site tenant ['u'] [] ⟨some (clientData
      "webauthn.create".toList 0), some (authData 5), some (['c'], [])⟩) ::
    proceed 1 4

/-- A login with a challenge of its own, by two calls. -/
def loggedIn (index challenge : Nat) (count : UInt8) :
    List (Act Request Int Outside) :=
  .request (.authenticationOptions site tenant none) :: proceed index 2 ++
    .request (.finishLogin site tenant ⟨.text ['c'], .missing, ⟨[], some
      (clientData "webauthn.get".toList challenge), some (authData count),
      some []⟩⟩) :: proceed (index + 1) 5

def login (challenge count : Nat) : Login :=
  ⟨site, tenant, ['u'], ['c'], challenge, count, 0⟩

def rolledBack : List (Act Request Int Outside) :=
  registered ++ loggedIn 2 1 7 ++ loggedIn 4 2 0

def repeated : List (Act Request Int Outside) :=
  rolledBack ++ loggedIn 6 3 7

end ReplayWitness

open ReplayWitness in
/-- A login with the sign count zero rolls the stored count back, after which
an old count passes a second time. -/
theorem zero_count_rolls_back :
    ¬ CountsRise crypto rolledBack ∧
      ¬ PasskeyLaw ((service crypto).machine.trace (Service.idle empty)
        repeated) := by
  constructor
  · intro hrise
    have hzero : ∀ row ∈ ((service crypto).machine.run (Service.idle empty)
        rolledBack).store.credentials, row.signCount = 0 := by decide
    have hseven : ⟨tenant, ['u'], ['c'], [], 7, []⟩ ∈
        ((service crypto).machine.run (Service.idle empty)
          (registered ++ loggedIn 2 1 7)).store.credentials := by
      decide
    obtain ⟨row, hrow, -, hle⟩ := hrise _ _ rfl _ hseven
    rw [hzero row hrow] at hle
    exact absurd hle (by decide)
  · intro law
    have hlogins : logins ((service crypto).machine.trace
        (Service.idle empty) repeated) = [login 1 7, login 2 0, login 3 7] := by
      decide
    have hcounts := law.counts
    rw [hlogins] at hcounts
    have hapart : Apart (login 1 7) (login 3 7) :=
      (List.pairwise_cons.mp hcounts).1 _ (by decide)
    exact absurd (hapart rfl rfl) (by decide)

open ReplayWitness in
/-- Two logins with rising sign counts. -/
theorem careful_passkeys_not_replayed_rising :
    (service crypto).machine.Admissible
        (Service.Restricted Careful fun _ _ => True) (Service.idle empty)
        (registered ++ loggedIn 2 1 7 ++ loggedIn 4 2 8) ∧
      PasskeyLaw ((service crypto).machine.trace (Service.idle empty)
        (registered ++ loggedIn 2 1 7 ++ loggedIn 4 2 8)) ∧
      (logins ((service crypto).machine.trace (Service.idle empty)
        (registered ++ loggedIn 2 1 7 ++ loggedIn 4 2 8))).map
          Login.signCount = [7, 8] := by
  have hcareful : (service crypto).machine.Admissible
      (Service.Restricted Careful fun _ _ => True) (Service.idle empty)
      (registered ++ loggedIn 2 1 7 ++ loggedIn 4 2 8) := by decide
  exact ⟨hcareful, (careful_passkeys_not_replayed crypto _ hcareful).1,
    by decide⟩

end AiTeam.Passkey
