/-
A password reset ends old sessions: along every run in which no login creates
its session after its password was dealt with, and no bootstrap replaces a
password with live sessions, a session of an earlier password is over once the
reset has returned.
-/
import AiTeam.AuthSession.Service

namespace AiTeam.AuthSession

/-! ### The law -/

/-- A password reset as it is promised. -/
def ResetLaw (db : Db) (past : List Event) : Prop :=
  ∀ newer, .replaced newer ∈ past → ∀ row ∈ db.sessions, ∀ older,
    row.origin = some older → older.account = newer.account →
    older.serial < newer.serial → isActive db row.jti row.userId = false

/-- No session that a login of the account created is live. -/
def NoneLive (db : Db) (account : Text) : Prop :=
  ∀ row ∈ db.sessions, ∀ verified ∈ row.origin, verified.account = account →
    row.live db.now = false

/-- No reset or replacement since has dealt with the sessions of the account. -/
def InForce (db : Db) (verified : Credential) : Prop :=
  ∀ newer ∈ db.closed, newer.account = verified.account →
    newer.serial ≤ verified.serial

/-- What the runs have to keep: a login creates its session while what it
verified is in force, and a replacement finds no live session of a login. -/
def Careful (policy : Policy) (db : Db) (_ : Nat) : Stage → Prop
  | .createSession grant _ _ =>
      ∀ verified ∈ grant.verified, InForce db verified
  | .replaceSecret account _ => NoneLive db account
  | .start (.syncOwnerBootstrapIdempotent account password _ key _) =>
      policy.complex password = true →
      lookup Receipt.key key db.receipts = none →
      (∃ row ∈ findIdentity db account, row.active = true) →
      NoneLive db account
  | _ => True

instance (db : Db) (account : Text) : Decidable (NoneLive db account) :=
  inferInstanceAs (Decidable (∀ row ∈ db.sessions, ∀ verified ∈ row.origin,
    verified.account = account → row.live db.now = false))

instance (db : Db) (verified : Credential) : Decidable (InForce db verified) :=
  inferInstanceAs (Decidable (∀ newer ∈ db.closed,
    newer.account = verified.account → newer.serial ≤ verified.serial))

instance (policy : Policy) (db : Db) (salt : Nat) :
    (stage : Stage) → Decidable (Careful policy db salt stage)
  | .createSession grant _ _ => inferInstanceAs (Decidable
      (∀ verified ∈ grant.verified, InForce db verified))
  | .replaceSecret account _ => inferInstanceAs (Decidable
      (NoneLive db account))
  | .start (.syncOwnerBootstrapIdempotent account password _ key _) =>
      inferInstanceAs (Decidable (policy.complex password = true →
        lookup Receipt.key key db.receipts = none →
        (∃ row ∈ findIdentity db account, row.active = true) →
        NoneLive db account))
  | .start (.login _ _) | .start (.ownerReset _ _ _)
  | .start (.syncOwnerBootstrapResult _ _) | .start (.create _ _ _ _ _)
  | .start (.issue _) | .provision _ _ | .create _ _ _ _ _
  | .resetSecret _ _ _ | .revokeUser _ _ | .findUser _ | .returned
  | .failed => isTrue trivial

/-! ### The invariant -/

/-- The account is the user's. -/
def Owns (db : Db) (account : Text) (userId : Nat) : Prop :=
  ∃ identity ∈ db.identities, identity.account = account ∧
    identity.userId = userId

structure Sound (db : Db) (past : List Event) : Prop where
  accounts : Keyed Identity.account db.identities
  jtis : Keyed SessionRow.jti db.sessions
  fresh : ∀ row ∈ db.sessions, row.jti < db.sessions.length
  owned : ∀ row ∈ db.sessions, ∀ verified ∈ row.origin,
    Owns db verified.account row.userId
  ended : ∀ newer ∈ db.closed, ∀ row ∈ db.sessions,
    ∀ older ∈ row.origin, older.account = newer.account →
    older.serial < newer.serial → row.live db.now = false
  replaced : ∀ newer, .replaced newer ∈ past → newer ∈ db.closed

/-- A session that was revoked. -/
def Revoked (db : Db) (jti : Nat) : Prop :=
  ∃ row, lookup SessionRow.jti jti db.sessions = some row ∧
    row.revokedAt.isSome = true

/-- What never goes back. -/
structure Onward (db db' : Db) : Prop where
  owns : ∀ account userId, Owns db account userId → Owns db' account userId
  closed : ∀ credential ∈ db.closed, credential ∈ db'.closed
  revoked : ∀ jti, Revoked db jti → Revoked db' jti

/-- What a call knows between two transactions. -/
def Knows (db : Db) : Stage → Prop
  | .resetSecret account _ identity => Owns db account identity.userId
  | .revokeUser userId credential => Owns db credential.account userId
  | .findUser grant | .createSession grant _ _ =>
      (∀ verified ∈ grant.verified, Owns db verified.account grant.userId) ∧
        ∀ credential ∈ grant.reset, credential ∈ db.closed
  | _ => True

variable {stage : Stage} {account secret : Text} {userId : Nat}
  {mustReset : Bool} {policy : Policy}

section

variable {db db' : Db} {past : List Event}

theorem Onward.refl (db : Db) : Onward db db :=
  ⟨fun _ _ h => h, fun _ h => h, fun _ h => h⟩

theorem Onward.trans {db'' : Db} (h : Onward db db') (h' : Onward db' db'') :
    Onward db db'' :=
  ⟨fun account userId howns => h'.owns account userId
      (h.owns account userId howns),
    fun credential hclosed => h'.closed credential
      (h.closed credential hclosed),
    fun jti hrevoked => h'.revoked jti (h.revoked jti hrevoked)⟩

theorem Knows.onward (h : Knows db stage) (honward : Onward db db') :
    Knows db' stage := by
  cases stage with
  | resetSecret account _ identity => exact honward.owns _ _ h
  | revokeUser userId credential => exact honward.owns _ _ h
  | findUser grant =>
      exact ⟨fun verified hverified =>
          honward.owns _ _ (h.1 verified hverified),
        fun credential hreset => honward.closed _ (h.2 credential hreset)⟩
  | createSession grant _ _ =>
      exact ⟨fun verified hverified =>
          honward.owns _ _ (h.1 verified hverified),
        fun credential hreset => honward.closed _ (h.2 credential hreset)⟩
  | _ => trivial

/-! ### Rows -/

theorem findIdentity_owns {row : IdentityRow}
    (h : findIdentity db account = some row) : Owns db account row.userId := by
  obtain ⟨identity, hlookup, hjoin⟩ := Option.bind_eq_some_iff.mp h
  rw [joinUser, Option.map_eq_some_iff] at hjoin
  obtain ⟨user, -, rfl⟩ := hjoin
  exact ⟨identity, lookup_mem hlookup, lookup_key hlookup, rfl⟩

theorem Owns.eq (hkeyed : Keyed Identity.account db.identities) {other : Nat}
    (h : Owns db account userId) (hother : Owns db account other) :
    userId = other := by
  obtain ⟨identity, hmem, haccount, rfl⟩ := h
  obtain ⟨another, hanother, hsame, rfl⟩ := hother
  rw [hkeyed.eq_of_key hmem hanother (haccount.trans hsame.symm)]

/-- A change of accounts alone. -/
theorem Sound.accounts_only (h : Sound db past) (db' : Db)
    (hsessions : db'.sessions = db.sessions) (hnow : db'.now = db.now)
    (hclosed : db'.closed = db.closed)
    (hkeyed : Keyed Identity.account db'.identities)
    (howns : ∀ account userId, Owns db account userId →
      Owns db' account userId) :
    Sound db' past ∧ Onward db db' := by
  constructor
  · constructor
    · exact hkeyed
    · rw [hsessions]
      exact h.jtis
    · rw [hsessions]
      exact h.fresh
    · rw [hsessions]
      intro row hrow verified hverified
      exact howns _ _ (h.owned row hrow verified hverified)
    · rw [hsessions, hnow, hclosed]
      exact h.ended
    · rw [hclosed]
      exact h.replaced
  · constructor
    · exact howns
    · rw [hclosed]
      exact fun _ hmem => hmem
    · intro jti hrevoked
      rw [Revoked, hsessions]
      exact hrevoked

theorem updateSecret_owns {other : Text} (h : Owns db other userId) :
    Owns (updateSecret db account secret mustReset) other userId := by
  obtain ⟨identity, hmem, haccount, huser⟩ := h
  refine ⟨_, List.mem_map_of_mem hmem, ?_⟩
  split
  · exact ⟨haccount, huser⟩
  · exact ⟨haccount, huser⟩

theorem Sound.setSecret (h : Sound db past) (account secret : Text)
    (mustReset : Bool) :
    Sound (updateSecret db account secret mustReset) past ∧
      Onward db (updateSecret db account secret mustReset) := by
  apply h.accounts_only
    (updateSecret db account secret mustReset) rfl rfl rfl
  · exact h.accounts.updateWhere _ _ fun _ => rfl
  · exact fun _ _ howns => updateSecret_owns howns

theorem Sound.createUser (h : Sound db past) {displayName : Text}
    {roles : List Text}
    (hcreate : createUserWithIdentity db account secret displayName roles
      mustReset = some (db', userId)) : Sound db' past ∧ Onward db db' := by
  rw [createUserWithIdentity] at hcreate
  split at hcreate
  · cases hcreate
  · next hfree =>
      obtain ⟨rfl, rfl⟩ := Prod.mk.inj (Option.some.inj hcreate)
      refine h.accounts_only _ rfl rfl rfl ?_ ?_
      · apply h.accounts.append
        rw [lookup, List.find?_eq_none]
        intro identity hmem htaken
        apply hfree
        exact List.any_eq_true.mpr ⟨identity, hmem, by simpa using htaken⟩
      · rintro other user ⟨identity, hmem, howned⟩
        exact ⟨identity, List.mem_append_left _ hmem, howned⟩

/-- A credential is in force once no session of an earlier one is live. -/
theorem Sound.close (h : Sound db past) {credential : Credential}
    (hended : ∀ row ∈ db.sessions, ∀ older ∈ row.origin,
      older.account = credential.account → row.live db.now = false) :
    Sound { db with closed := credential :: db.closed } past ∧
      Onward db { db with closed := credential :: db.closed } := by
  constructor
  · constructor
    · exact h.accounts
    · exact h.jtis
    · exact h.fresh
    · exact h.owned
    · intro newer hnewer row hrow older holder haccount hserial
      rcases List.mem_cons.mp hnewer with rfl | hold
      · exact hended row hrow older holder haccount
      · exact h.ended newer hold row hrow older holder haccount hserial
    · intro newer hnewer
      exact List.mem_cons_of_mem _ (h.replaced newer hnewer)
  · constructor
    · exact fun _ _ howns => howns
    · exact fun _ hmem => List.mem_cons_of_mem _ hmem
    · exact fun _ hrevoked => hrevoked

theorem revoke_live (now : Nat) (reason : Text) (row : SessionRow) :
    (row.revoke now reason).live now = false := by
  rw [SessionRow.live, SessionRow.revoke]
  cases row.revokedAt <;> rfl

/-- Revocations, whatever rows they pick. -/
theorem Sound.endSessions (h : Sound db past) (guard : SessionRow → Bool)
    (reason : Text) :
    Sound (revokeWhere db guard reason) past ∧
      Onward db (revokeWhere db guard reason) := by
  constructor
  · constructor
    · exact h.accounts
    · exact h.jtis.updateWhere _ _ fun _ => rfl
    · intro row hrow
      obtain ⟨before, hbefore, rfl⟩ := List.mem_map.mp hrow
      rw [revokeWhere, updateWhere, List.length_map]
      split
      · exact h.fresh before hbefore
      · exact h.fresh before hbefore
    · intro row hrow verified hverified
      obtain ⟨before, hbefore, rfl⟩ := List.mem_map.mp hrow
      split at hverified
      · next hguard =>
          rw [if_pos hguard]
          exact h.owned before hbefore verified hverified
      · next hguard =>
          rw [if_neg hguard]
          exact h.owned before hbefore verified hverified
    · intro newer hnewer row hrow older holder haccount hserial
      obtain ⟨before, hbefore, rfl⟩ := List.mem_map.mp hrow
      split at holder
      · next hguard =>
          rw [if_pos hguard]
          exact revoke_live _ _ _
      · next hguard =>
          rw [if_neg hguard]
          exact h.ended newer hnewer before hbefore older holder haccount
            hserial
    · exact h.replaced
  · constructor
    · exact fun _ _ howns => howns
    · exact fun _ hmem => hmem
    · rintro jti ⟨row, hlookup, hrevoked⟩
      refine ⟨if guard row then row.revoke db.now reason else row, ?_, ?_⟩
      · have hupdated := lookup_updateWhere SessionRow.jti jti guard
          (SessionRow.revoke db.now reason) (fun _ => rfl) db.sessions
        rw [hlookup, Option.map_some] at hupdated
        exact hupdated
      · split
        · rw [SessionRow.revoke]
          cases hat : row.revokedAt with
          | none =>
              rw [hat] at hrevoked
              exact absurd hrevoked (by decide)
          | some _ => rfl
        · exact hrevoked

/-- A new session: what its login verified is in force. -/
theorem Sound.addSession (h : Sound db past) (issuedAt expiresAt : Nat)
    {origin : Option Credential}
    (howns : ∀ verified ∈ origin, Owns db verified.account userId)
    (hforce : ∀ verified ∈ origin, InForce db verified) :
    Sound (createSession db userId issuedAt expiresAt origin).1 past ∧
      Onward db (createSession db userId issuedAt expiresAt
        origin).1 := by
  have hunused : lookup SessionRow.jti db.sessions.length db.sessions =
      none := by
    rw [lookup, List.find?_eq_none]
    intro row hrow htaken
    exact absurd (of_decide_eq_true htaken) (Nat.ne_of_lt (h.fresh row hrow))
  constructor
  · constructor
    · exact h.accounts
    · exact h.jtis.append hunused
    · intro row hrow
      rw [createSession, List.length_append,
        List.length_singleton]
      rcases List.mem_append.mp hrow with hold | hnew
      · exact Nat.lt_succ_of_lt (h.fresh row hold)
      · rw [List.mem_singleton.mp hnew]
        exact Nat.lt_succ_self _
    · intro row hrow verified hverified
      rcases List.mem_append.mp hrow with hold | hnew
      · exact h.owned row hold verified hverified
      · rw [List.mem_singleton.mp hnew] at hverified ⊢
        exact howns verified hverified
    · intro newer hnewer row hrow older holder haccount hserial
      rcases List.mem_append.mp hrow with hold | hnew
      · exact h.ended newer hnewer row hold older holder haccount hserial
      · rw [List.mem_singleton.mp hnew] at holder
        have hlow := hforce older holder newer hnewer haccount.symm
        exact absurd hserial (Nat.not_lt_of_le hlow)
    · exact h.replaced
  · constructor
    · exact fun _ _ howned => howned
    · exact fun _ hmem => hmem
    · rintro jti ⟨row, hlookup, hrevoked⟩
      refine ⟨row, ?_, hrevoked⟩
      rw [createSession, lookup_append, hlookup, Option.some_or]

theorem Sound.emit (h : Sound db past) {events : List Event}
    (hevents : ∀ newer, .replaced newer ∈ events → newer ∈ db.closed) :
    Sound db (past ++ events) := by
  refine ⟨h.accounts, h.jtis, h.fresh, h.owned, h.ended, ?_⟩
  intro newer hnewer
  rcases List.mem_append.mp hnewer with hpast | hnew
  · exact h.replaced newer hpast
  · exact hevents newer hnew

/-- After `revoke_user` none of the sessions of the user's accounts is live. -/
theorem Sound.noneLive_revokeUser (h : Sound db past)
    (howns : Owns db account userId) (reason : Text) :
    NoneLive (revokeUser db userId reason) account := by
  intro row hrow verified hverified haccount
  obtain ⟨before, hbefore, rfl⟩ := List.mem_map.mp hrow
  split at hverified
  · next hguard =>
      rw [if_pos hguard]
      exact revoke_live _ _ _
  · next hguard =>
      rw [if_neg hguard]
      have howned := h.owned before hbefore verified hverified
      rw [haccount] at howned
      have huser : before.userId = userId := howned.eq h.accounts howns
      have hrevoked : before.revokedAt.isNone = false := by
        simp only [huser, beq_self_eq_true, Bool.true_and] at hguard
        exact Bool.eq_false_iff.mpr hguard
      rw [SessionRow.live, hrevoked, Bool.false_and]

/-- The replacement of `sync_owner_bootstrap_in_session`. -/
theorem Sound.bootstrap (h : Sound db past) {key fingerprint : Text}
    {replaced : Bool}
    (hexecute : executeBootstrap db account secret mustReset key fingerprint =
      some (db', userId, replaced)) :
    (Sound db' past ∧ Onward db db') ∧
      (replaced = true → db'.sessions = db.sessions ∧ db'.now = db.now ∧
        lookup Receipt.key key db.receipts = none ∧
        ∃ row ∈ findIdentity db account, row.active = true) := by
  rw [executeBootstrap] at hexecute
  cases hreceipt : lookup Receipt.key key db.receipts with
  | some receipt =>
      rw [hreceipt] at hexecute
      simp only at hexecute
      split at hexecute
      · cases hexecute
        exact ⟨⟨h, Onward.refl db⟩, fun hfalse => absurd hfalse (by decide)⟩
      · cases hexecute
  | none =>
      rw [hreceipt] at hexecute
      simp only [Option.map_eq_some_iff] at hexecute
      obtain ⟨⟨next, user, done⟩, hsync, hnext⟩ := hexecute
      obtain ⟨rfl, rfl, rfl⟩ := by simpa using hnext
      rw [syncOwnerBootstrapInSession] at hsync
      cases hfind : findIdentity db account with
      | none =>
          rw [hfind] at hsync
          simp only [Option.map_eq_some_iff] at hsync
          obtain ⟨⟨created, id⟩, hcreate, hdone⟩ := hsync
          obtain ⟨rfl, rfl, rfl⟩ := by simpa using hdone
          obtain ⟨hsound, honward⟩ := h.createUser hcreate
          obtain ⟨hsound', honward'⟩ := hsound.accounts_only
            { created with
              receipts := created.receipts ++ [⟨key, fingerprint, id⟩] }
            rfl rfl rfl hsound.accounts fun _ _ howns => howns
          exact ⟨⟨hsound', honward.trans honward'⟩,
            fun hfalse => absurd hfalse (by decide)⟩
      | some row =>
          rw [hfind] at hsync
          simp only at hsync
          split at hsync
          · next hactive =>
              obtain ⟨rfl, rfl, rfl⟩ := by simpa using hsync
              obtain ⟨hsound, honward⟩ :=
                h.setSecret account secret mustReset
              obtain ⟨hsound', honward'⟩ := hsound.accounts_only
                { updateSecret db account secret mustReset with
                  receipts := db.receipts ++
                    [⟨key, fingerprint, row.userId⟩] }
                rfl rfl rfl hsound.accounts fun _ _ howns => howns
              exact ⟨⟨hsound', honward.trans honward'⟩,
                fun _ => ⟨rfl, rfl, rfl, row, rfl, hactive⟩⟩
          · cases hsync

/-! ### Statements -/

theorem knows_login (account password : Text) :
    Knows db (login policy db account password) := by
  rw [login]
  cases hfind : findIdentity db account with
  | none => trivial
  | some row =>
      simp only
      split; trivial
      split; trivial
      split; trivial
      split; trivial
      constructor
      · intro verified hverified
        obtain rfl := Option.some.inj hverified
        exact findIdentity_owns hfind
      · intro credential hreset
        cases hreset

theorem knows_ownerReset (account oldPassword newPassword : Text) :
    Knows db (ownerReset policy db account oldPassword newPassword) := by
  rw [ownerReset]
  split
  · trivial
  · cases hfind : findIdentity db account with
    | none => trivial
    | some row =>
        simp only
        split; trivial
        split; trivial
        exact findIdentity_owns hfind

theorem knows_syncOwnerBootstrapResult (account bootstrapPassword : Text) :
    Knows db
      (syncOwnerBootstrapResult policy db account bootstrapPassword) := by
  rw [syncOwnerBootstrapResult]
  split
  · trivial
  · cases hfind : findIdentity db account with
    | none => trivial
    | some row =>
        simp only
        split <;> trivial

theorem knows_checkCreate (account password displayName : Text)
    (roles : List Text) (mustReset : Bool) :
    Knows db (checkCreate policy db account password displayName roles
      mustReset) := by
  rw [checkCreate]
  split; trivial
  split <;> trivial

/-- A transaction leaves sound rows and what its call has to know. -/
def Carried (db : Db) (past : List Event)
    (result : Db × Stage × List Event) : Prop :=
  Sound result.1 (past ++ result.2.2) ∧ Knows result.1 result.2.1 ∧
    Onward db result.1

theorem Sound.stay (h : Sound db past) (hknows : Knows db stage) :
    Carried db past (db, stage, []) := by
  rw [Carried, List.append_nil]
  exact ⟨h, hknows, Onward.refl db⟩

/-- A replacement that found no live session of a login. -/
theorem Sound.replace (h : Sound db' past) (honward : Onward db db')
    {credential : Credential} (hnone : NoneLive db' credential.account) :
    Carried db past ({ db' with closed := credential :: db'.closed },
      .returned, [.replaced credential]) := by
  obtain ⟨hclosed, honward'⟩ := h.close hnone
  refine ⟨hclosed.emit ?_, trivial, honward.trans honward'⟩
  intro newer hnewer
  obtain rfl := Event.replaced.inj (List.mem_singleton.mp hnewer)
  exact List.mem_cons_self

theorem Sound.issueSession (h : Sound db past) {grant : Grant}
    (roles : List Text) (issuedAt : Nat)
    (hknows : Knows db (.createSession grant roles issuedAt))
    (hforce : ∀ verified ∈ grant.verified, InForce db verified) :
    Carried db past (issueSession db grant roles issuedAt) := by
  obtain ⟨howns, hreset⟩ := hknows
  obtain ⟨hsound, honward⟩ := h.addSession issuedAt
    (issuedAt + accessTtlSeconds * second) howns hforce
  refine ⟨hsound.emit ?_, trivial, honward⟩
  intro newer hnewer
  rcases List.mem_cons.mp hnewer with hissued | hreplaced
  · exact Event.noConfusion hissued
  · rw [Option.mem_toList, Option.map_eq_some_iff] at hreplaced
    obtain ⟨credential, hgrant, heq⟩ := hreplaced
    obtain rfl := Event.replaced.inj heq
    exact honward.closed _ (hreset _ hgrant)

theorem Sound.statement (h : Sound db past) {salt : Nat}
    (hknows : Knows db stage) (hcareful : Careful policy db salt stage) :
    Carried db past (statement policy db salt stage) := by
  cases stage with
  | start request =>
      cases request with
      | login account password =>
          exact h.stay (knows_login account password)
      | ownerReset account oldPassword newPassword =>
          exact h.stay (knows_ownerReset account oldPassword newPassword)
      | syncOwnerBootstrapResult account bootstrapPassword =>
          exact h.stay
            (knows_syncOwnerBootstrapResult account bootstrapPassword)
      | create account password displayName roles mustReset =>
          exact h.stay (knows_checkCreate account password displayName roles
            mustReset)
      | issue userId =>
          apply h.stay
          constructor <;> intro credential hnone <;> cases hnone
      | syncOwnerBootstrapIdempotent account password mustReset key
          fingerprint =>
          rw [AuthSession.statement]
          split
          · exact h.stay trivial
          · next hcomplex =>
              cases hexecute : executeBootstrap db account
                  (policy.hash password salt) mustReset key fingerprint with
              | none => exact h.stay trivial
              | some result =>
                  obtain ⟨next, userId, replaced⟩ := result
                  obtain ⟨⟨hsound, honward⟩, hwhen⟩ := h.bootstrap hexecute
                  cases replaced with
                  | false =>
                      refine ⟨?_, trivial, honward⟩
                      rw [List.append_nil]
                      exact hsound
                  | true =>
                      obtain ⟨hsessions, hnow, hfirst, hactive⟩ := hwhen rfl
                      apply hsound.replace honward
                      rw [NoneLive, hsessions, hnow]
                      exact hcareful (by simpa using hcomplex) hfirst hactive
  | provision account password =>
      exact h.stay (knows_checkCreate account password _ _ _)
  | create account password displayName roles mustReset =>
      rw [AuthSession.statement]
      cases hcreate : createUserWithIdentity db account
          (policy.hash password salt) displayName roles mustReset with
      | none => exact h.stay trivial
      | some result =>
          obtain ⟨hsound, honward⟩ := h.createUser hcreate
          refine ⟨?_, trivial, honward⟩
          rw [List.append_nil]
          exact hsound
  | resetSecret account password identity =>
      obtain ⟨hsound, honward⟩ :=
        h.setSecret account (policy.hash password salt) false
      refine ⟨?_, updateSecret_owns hknows, honward⟩
      rw [AuthSession.statement, List.append_nil]
      exact hsound
  | replaceSecret account password =>
      obtain ⟨hsound, honward⟩ :=
        h.setSecret account (policy.hash password salt) true
      exact hsound.replace honward hcareful
  | revokeUser userId credential =>
      have hnone := h.noneLive_revokeUser hknows passwordReset
      obtain ⟨hsound, honward⟩ := h.endSessions
        (fun row => row.userId == userId && row.revokedAt.isNone)
        passwordReset
      obtain ⟨hclosed, honward'⟩ := hsound.close hnone
      refine ⟨?_, ?_, honward.trans honward'⟩
      · rw [AuthSession.statement, List.append_nil]
        exact hclosed
      · constructor
        · intro verified hverified
          cases hverified
        · intro reset hreset
          obtain rfl := Option.some.inj hreset
          exact List.mem_cons_self
  | findUser grant =>
      rw [AuthSession.statement]
      cases findUser db grant.userId with
      | none => exact h.stay trivial
      | some row =>
          simp only
          split
          · exact h.stay hknows
          · exact h.stay trivial
  | createSession grant roles issuedAt =>
      exact h.issueSession roles issuedAt hknows hcareful
  | returned => exact h.stay trivial
  | failed => exact h.stay trivial

theorem Sound.outside (h : Sound db past) (action : Outside) :
    Sound (outside db action).1 (past ++ (outside db action).2) ∧
      Onward db (AuthSession.outside db action).1 := by
  cases action with
  | isActive jti userId =>
      refine ⟨h.emit ?_, Onward.refl db⟩
      intro newer hnewer
      simp [AuthSession.outside] at hnewer
  | revoke jti userId reason =>
      simp only [AuthSession.outside, List.append_nil]
      exact h.endSessions _ reason
  | setActive userId active =>
      simp only [AuthSession.outside, List.append_nil]
      exact h.accounts_only _ rfl rfl rfl h.accounts fun _ _ howns => howns
  | tick microseconds =>
      simp only [AuthSession.outside, List.append_nil]
      constructor
      · refine ⟨h.accounts, h.jtis, h.fresh, h.owned, ?_, h.replaced⟩
        intro newer hnewer row hrow older holder haccount hserial
        have hended :=
          h.ended newer hnewer row hrow older holder haccount hserial
        rw [SessionRow.live, Bool.and_eq_false_iff, decide_eq_false_iff_not]
          at hended ⊢
        exact hended.imp_right fun hover hlive =>
          hover (Nat.lt_of_le_of_lt (Nat.le_add_right _ _) hlive)
      · exact ⟨fun _ _ howns => howns, fun _ hmem => hmem,
          fun _ hrevoked => hrevoked⟩

theorem sound_empty (now : Nat) : Sound (empty now) [] := by
  constructor
  · exact Keyed.nil _
  · exact Keyed.nil _
  all_goals simp [empty]

end

/-- The proof of the service by what every call knows of the rows. -/
def proof (policy : Policy) :
    (service policy).Proof (Careful policy) (fun _ _ => True) where
  inv := Sound
  knows db _ stage := Knows db stage
  apart _ _ := True
  symm _ := trivial
  starts _ request := by
    cases request <;> exact ⟨trivial, fun _ _ => trivial⟩
  keeps hsound hknows hcareful := by
    obtain ⟨hnext, hself, honward⟩ := hsound.statement hknows hcareful
    exact ⟨hnext, hself, fun _ hother _ => ⟨hother.onward honward, trivial⟩⟩
  bears hsound _ := by
    obtain ⟨hnext, honward⟩ := hsound.outside _
    exact ⟨hnext, fun _ hother => hother.onward honward⟩

theorem progress (policy : Policy) : (proof policy).Progress Onward where
  refl := Onward.refl
  trans h h' := h.trans h'
  keeps hsound hknows hcareful := (hsound.statement hknows hcareful).2.2
  bears hsound _ := (hsound.outside _).2

theorem Sound.resetLaw {db : Db} {past : List Event} (h : Sound db past) :
    ResetLaw db past := by
  intro newer hnewer row hrow older holder haccount hserial
  have hended := h.ended newer (h.replaced newer hnewer) row hrow older holder
    haccount hserial
  rw [isActive, h.jtis row hrow, Option.any_some, hended, Bool.and_false]

theorem Revoked.not_active {db : Db} {jti : Nat} (h : Revoked db jti)
    (userId : Nat) : isActive db jti userId = false := by
  obtain ⟨row, hlookup, hrevoked⟩ := h
  rw [isActive, hlookup, Option.any_some, SessionRow.live]
  cases hat : row.revokedAt with
  | none =>
      rw [hat] at hrevoked
      exact absurd hrevoked (by decide)
  | some _ => rw [Option.isNone_some, Bool.false_and, Bool.and_false]

/-- Along every careful run a reset ends the sessions of earlier passwords;
and a session that was revoked at some moment is not active at any later
one. -/
theorem careful_reset_ends_sessions (policy : Policy) (now : Nat)
    (acts : List (Act Request Nat Outside))
    (hcareful : (service policy).machine.Admissible
      (Service.Restricted (Careful policy) fun _ _ => True)
      (Service.idle (empty now)) acts) :
    let machine := (service policy).machine
    let start := Service.idle (empty now)
    ResetLaw (machine.run start acts).store (machine.trace start acts) ∧
      ∀ first last, acts = first ++ last →
        ∀ row ∈ (machine.run start first).store.sessions,
          row.revokedAt.isSome = true → ∀ userId,
            isActive (machine.run start acts).store row.jti userId = false := by
  intro machine start
  constructor
  · exact ((proof policy).run (sound_empty now) acts hcareful).inv.resetLaw
  · rintro first last rfl row hrow hrevoked userId
    have hfirst := (proof policy).run (sound_empty now) first
      (Machine.admissible_left hcareful)
    have honward := (progress policy).run (sound_empty now) hcareful
    have hthen : Revoked (machine.run start first).store row.jti :=
      ⟨row, hfirst.inv.jtis row hrow, hrevoked⟩
    exact (honward.revoked _ hthen).not_active userId

namespace ResetWitness

def alice : Text := ['a']

/-- Hashes that are the passwords. -/
def plain : Policy where
  complex _ := true
  hash password _ := password
  verify password secret := password == secret
  maxAgeDays := 90

def proceed (index count : Nat) : List (Act Request Nat Outside) :=
  List.replicate count (.proceed index 0)

/-- The account of the first call. -/
def created : List (Act Request Nat Outside) :=
  .request (.create alice ['p'] alice [] false) :: proceed 0 2

def reset : Request := .ownerReset alice ['p'] ['q']

/-- The login of the second call creates its session last. -/
def overtaken : List (Act Request Nat Outside) :=
  created ++ .request (.login alice ['p']) :: proceed 1 2 ++
    .request reset :: proceed 2 5 ++ proceed 1 1

def replacedLater : List (Act Request Nat Outside) :=
  created ++ .request (.login alice ['p']) :: proceed 1 3 ++
    .request (.syncOwnerBootstrapIdempotent alice ['q'] true ['k'] ['f']) ::
      proceed 2 1

def resetLater : List (Act Request Nat Outside) :=
  created ++ .request (.login alice ['p']) :: proceed 1 3 ++
    .request reset :: proceed 2 5 ++ [.outside (.isActive 0 0)]

end ResetWitness

open ResetWitness in
/-- A login that verified the old password creates its session after the reset
has revoked the sessions; and a replacement leaves the sessions as they
are. -/
theorem reset_leaves_sessions :
    let machine := (service plain).machine
    let start := Service.idle (empty 0)
    ¬ ResetLaw (machine.run start overtaken).store
        (machine.trace start overtaken) ∧
      ¬ ResetLaw (machine.run start replacedLater).store
        (machine.trace start replacedLater) := by
  intro machine start
  constructor
  · intro law
    have hover := law ⟨alice, 1⟩ (by decide)
      ⟨1, 0, 0, 2592000000000, none, none, some ⟨alice, 0⟩⟩ (by decide)
      ⟨alice, 0⟩ rfl rfl (by decide)
    exact absurd hover (by decide)
  · intro law
    have hover := law ⟨alice, 1⟩ (by decide)
      ⟨0, 0, 0, 2592000000000, none, none, some ⟨alice, 0⟩⟩ (by decide)
      ⟨alice, 0⟩ rfl rfl (by decide)
    exact absurd hover (by decide)

open ResetWitness in
/-- A reset after a login is over. -/
theorem careful_reset_ends_sessions_afterLogin :
    let machine := (service plain).machine
    let start := Service.idle (empty 0)
    machine.Admissible (Service.Restricted (Careful plain) fun _ _ => True)
        start resetLater ∧
      ResetLaw (machine.run start resetLater).store
        (machine.trace start resetLater) ∧
      .replaced ⟨alice, 1⟩ ∈ machine.trace start resetLater ∧
      .checked 0 0 false ∈ machine.trace start resetLater := by
  have hcareful : (service plain).machine.Admissible
      (Service.Restricted (Careful plain) fun _ _ => True)
      (Service.idle (empty 0)) resetLater := by decide
  exact ⟨hcareful, (careful_reset_ends_sessions plain 0 _ hcareful).1,
    by decide, by decide⟩

end AiTeam.AuthSession
