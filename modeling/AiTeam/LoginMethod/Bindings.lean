/-
Bindings of external identities: along every run in which no login callback
puts back a binding that was removed meanwhile, an external identity has one
user, a user keeps a login method, and an unlinked provider logs nobody in.
-/
import AiTeam.LoginMethod.Service

namespace AiTeam.LoginMethod

/-! ### The law -/

/-- One of the two tables binds the external identity to the user. -/
def Owns (db : Db) (externalId : Text) (userId : Nat) : Prop :=
  (∃ row ∈ db.identities, row.key = (.oauth, externalId) ∧
    row.userId = userId) ∨
  ∃ row ∈ db.connections, row.externalId = externalId ∧ row.userId = userId

def OneOwner (db : Db) : Prop :=
  ∀ externalId userId other, Owns db externalId userId →
    Owns db externalId other → userId = other

/-- The user has a password, a binding or a passkey to sign in with. -/
def HasMethod (db : Db) (userId : Nat) : Prop :=
  (∃ row ∈ db.identities, row.userId = userId ∧
    (row.hasSecret = true ∨ row.provider = .oauth)) ∨
  (∃ row ∈ db.connections, row.userId = userId) ∨
  ∃ row ∈ db.passkeys, row.userId = userId

/-- Tables that keep their unique keys and bind no identity twice. -/
structure Fit (db : Db) : Prop where
  identities : Keyed Identity.key db.identities
  connections : Keyed Connection.key db.connections
  oneOwner : OneOwner db

/-- Whenever the provider was unlinked before the callback started, the
identity has been linked again since. -/
def RelinkedBefore (ticket : Nat) (past : List Event) (userId : Nat)
    (externalId : Text) : Prop :=
  ∀ before middle later,
    past = before ++ .unlinked userId (providerOf externalId) ::
      (middle ++ .started ticket :: later) →
    .linked userId externalId ∈ middle ++ later

/-- Login methods as they are promised, at the end of a run. -/
structure MethodLaw (start : Db) (acts : List (Act Request Unit Outside)) :
    Prop where
  oneOwner : OneOwner (service.machine.run (Service.idle start) acts).store
  keeps : ∀ first last, acts = first ++ last → ∀ userId,
    HasMethod (service.machine.run (Service.idle start) first).store userId →
    HasMethod (service.machine.run (Service.idle start) acts).store userId
  unlinked : ∀ front ticket userId externalId after,
    service.machine.trace (Service.idle start) acts =
      front ++ .loggedIn ticket userId externalId :: after →
    RelinkedBefore ticket front userId externalId

/-- What the runs have to keep: a callback that creates a connection finds the
identity of its user still bound. -/
def Careful (db : Db) (_ : Unit) : Stage → Prop
  | .upsert _ profile userId =>
      lookup Connection.key (profile.provider, profile.providerUserId)
        db.connections = none →
      ∃ row ∈ db.identities, row.key = (.oauth, profile.externalId) ∧
        row.userId = userId
  | _ => True

instance (db : Db) (choice : Unit) :
    (stage : Stage) → Decidable (Careful db choice stage)
  | .upsert _ profile userId => inferInstanceAs (Decidable
      (lookup Connection.key (profile.provider, profile.providerUserId)
        db.connections = none →
      ∃ row ∈ db.identities, row.key = (.oauth, profile.externalId) ∧
        row.userId = userId))
  | .start _ | .findConnection _ _ | .findUser _ _ _ | .findIdentity _ _
  | .issue _ _ _ | .linkConnection _ _ | .linkIdentity _ _ | .linkActive _ _
  | .link _ _ | .unlink _ _ | .findCredential _ _ | .insertPasskey _ _
  | .createIdentity _ | .returned | .failed => isTrue trivial

/-! ### The invariant -/

/-- Every unlink of the provider was followed by a link of the identity. -/
def Relinked (past : List Event) (userId : Nat) (externalId : Text) : Prop :=
  ∀ before rest, past = before ++ .unlinked userId (providerOf externalId) ::
    rest → .linked userId externalId ∈ rest

structure Sound (db : Db) (past : List Event) : Prop where
  fit : Fit db
  bound : ∀ externalId userId, Owns db externalId userId →
    Relinked past userId externalId
  started : ∀ ticket, .started ticket ∈ past → ticket < db.started
  logins : ∀ front ticket userId externalId after,
    past = front ++ .loggedIn ticket userId externalId :: after →
    RelinkedBefore ticket front userId externalId

/-- What a callback knows between two transactions. -/
def Knows (db : Db) (past : List Event) : Stage → Prop
  | .findConnection ticket _ | .findIdentity ticket _ => ticket < db.started
  | .findUser ticket profile userId | .upsert ticket profile userId
  | .issue ticket profile userId => ticket < db.started ∧
      RelinkedBefore ticket past userId profile.externalId
  | _ => True

/-- No user loses the last login method. -/
def Onward (db db' : Db) : Prop :=
  ∀ userId, HasMethod db userId → HasMethod db' userId

variable {userId : Nat} {externalId provider : Text} {row : Connection}
  {next : Stage}

section

variable {db db' : Db} {past events : List Event}

/-! ### Histories -/

theorem mem_of_split {front after : List Event} {event : Event}
    (h : events = front ++ event :: after) : event ∈ events :=
  h ▸ List.mem_append_right front List.mem_cons_self

theorem Relinked.append (h : Relinked past userId externalId)
    (hevents : ∀ rest before, events = before ++
      .unlinked userId (providerOf externalId) :: rest →
      .linked userId externalId ∈ rest) :
    Relinked (past ++ events) userId externalId := by
  intro before rest hsplit
  rcases split_append hsplit with ⟨left, hpast, rfl⟩ | ⟨front, -, hnew⟩
  · exact List.mem_append_left _ (h before left hpast)
  · exact hevents rest front hnew

/-- A link makes up for every unlink before. -/
theorem relinked_linked (past : List Event) (userId : Nat)
    (externalId : Text) :
    Relinked (past ++ [.linked userId externalId]) userId externalId := by
  intro before rest hsplit
  rcases split_append hsplit with ⟨left, -, rfl⟩ | ⟨front, -, hnew⟩
  · exact List.mem_append_right _ List.mem_cons_self
  · have hmem : .unlinked userId (providerOf externalId) ∈
        [Event.linked userId externalId] :=
      mem_of_split hnew
    simp at hmem

theorem Relinked.before (h : Relinked past userId externalId) (ticket : Nat) :
    RelinkedBefore ticket past userId externalId := by
  intro before middle later hsplit
  have hmem := h before _ hsplit
  simpa using hmem

theorem RelinkedBefore.append {ticket : Nat}
    (h : RelinkedBefore ticket past userId externalId)
    (hevents : .started ticket ∉ events) :
    RelinkedBefore ticket (past ++ events) userId externalId := by
  intro before middle later hsplit
  have hsplit' : past ++ events =
      (before ++ .unlinked userId (providerOf externalId) :: middle) ++
        .started ticket :: later := by
    rw [hsplit]
    simp
  rcases split_append hsplit' with ⟨rest, hpast, rfl⟩ | ⟨front, -, hnew⟩
  · have hmem := h before middle rest (by rw [hpast]; simp)
    rw [← List.append_assoc]
    exact List.mem_append_left _ hmem
  · exact absurd (mem_of_split hnew) hevents

theorem Knows.later {stage : Stage} (h : Knows db past stage)
    (hstarted : db.started ≤ db'.started)
    (hevents : ∀ ticket < db.started, .started ticket ∉ events) :
    Knows db' (past ++ events) stage := by
  cases stage with
  | findConnection ticket _ => exact Nat.lt_of_lt_of_le h hstarted
  | findIdentity ticket _ => exact Nat.lt_of_lt_of_le h hstarted
  | findUser ticket _ _ =>
      exact ⟨Nat.lt_of_lt_of_le h.1 hstarted,
        h.2.append (hevents ticket h.1)⟩
  | upsert ticket _ _ =>
      exact ⟨Nat.lt_of_lt_of_le h.1 hstarted,
        h.2.append (hevents ticket h.1)⟩
  | issue ticket _ _ =>
      exact ⟨Nat.lt_of_lt_of_le h.1 hstarted,
        h.2.append (hevents ticket h.1)⟩
  | _ => trivial

/-- The logins of a history that is gone on with. -/
theorem Sound.logins_append (h : Sound db past)
    (hevents : ∀ front ticket userId externalId after,
      events = front ++ .loggedIn ticket userId externalId :: after →
      RelinkedBefore ticket (past ++ front) userId externalId) :
    ∀ front ticket userId externalId after,
      past ++ events = front ++ .loggedIn ticket userId externalId :: after →
      RelinkedBefore ticket front userId externalId := by
  intro front ticket userId externalId after hsplit
  rcases split_append hsplit with ⟨rest, hpast, -⟩ | ⟨new, rfl, hnew⟩
  · exact h.logins front ticket userId externalId rest hpast
  · exact hevents new ticket userId externalId after hnew

/-! ### External identities -/

/-- The connection's external id as one of a profile. -/
theorem Connection.externalId_eq (row : Connection) :
    row.externalId = OAuthProfile.externalId
      ⟨row.provider, row.providerUserId, none⟩ := rfl

theorem Connection.key_of_externalId {profile : OAuthProfile}
    (h : row.externalId = profile.externalId) :
    row.key = (profile.provider, profile.providerUserId) := by
  rw [Connection.externalId_eq] at h
  have hprovider := congrArg providerOf h
  have hsuffix := congrArg suffix h
  rw [providerOf_externalId, providerOf_externalId] at hprovider
  rw [suffix_externalId, suffix_externalId] at hsuffix
  exact Prod.ext (Provider.name_inj hprovider) hsuffix

theorem Connection.externalId_of_key {profile : OAuthProfile}
    (h : row.key = (profile.provider, profile.providerUserId)) :
    row.externalId = profile.externalId := by
  obtain ⟨hprovider, hid⟩ := Prod.mk.inj h
  rw [Connection.externalId, hprovider, hid, OAuthProfile.externalId]

theorem findConnection_owns {profile : OAuthProfile}
    (hprofile : externalId = profile.externalId)
    (h : findConnection db externalId = some row) :
    Owns db externalId row.userId := by
  have hmatch := List.find?_some h
  rw [hprofile, providerOf_externalId, suffix_externalId, Bool.and_eq_true,
    beq_iff_eq, beq_iff_eq] at hmatch
  right
  refine ⟨row, List.mem_of_find?_eq_some h, ?_, rfl⟩
  rw [hprofile]
  apply Connection.externalId_of_key
  rw [Connection.key, Provider.name_inj hmatch.1, hmatch.2]

theorem findOAuthIdentity_owns {identity : Identity} {user : User}
    (h : findOAuthIdentity db externalId = some (identity, user)) :
    Owns db externalId identity.userId := by
  obtain ⟨row, hlookup, hjoin⟩ := Option.bind_eq_some_iff.mp h
  obtain ⟨found, -, heq⟩ := Option.map_eq_some_iff.mp hjoin
  obtain ⟨rfl, rfl⟩ := Prod.mk.inj heq
  exact Or.inl ⟨row, lookup_mem hlookup, lookup_key hlookup, rfl⟩

/-! ### Transactions -/

/-- `INSERT ... ON CONFLICT` of a connection: it stays the user's or becomes
the user's. -/
structure Put (connections connections' : List Connection)
    (profile : OAuthProfile) (userId : Nat) : Prop where
  keyed : Keyed Connection.key connections'
  old : ∀ row' ∈ connections', (∃ row ∈ connections,
      row.externalId = row'.externalId ∧ row.userId = row'.userId) ∨
    row'.externalId = profile.externalId ∧ row'.userId = userId
  kept : ∀ row ∈ connections, ∃ row' ∈ connections', row'.userId = row.userId
  own : ∀ row ∈ connections, row.externalId = profile.externalId →
    row.userId = userId

theorem put_of_putConnection {connections connections' : List Connection}
    {profile : OAuthProfile} (hkeyed : Keyed Connection.key connections)
    (h : putConnection connections profile userId = some connections') :
    Put connections connections' profile userId := by
  rw [putConnection] at h
  cases hlookup : lookup Connection.key
      (profile.provider, profile.providerUserId) connections with
  | none =>
      rw [hlookup] at h
      obtain rfl := Option.some.inj h
      constructor
      · exact hkeyed.append hlookup
      · intro row' hrow'
        rcases List.mem_append.mp hrow' with hold | hnew
        · exact Or.inl ⟨row', hold, rfl, rfl⟩
        · rw [List.mem_singleton.mp hnew]
          exact Or.inr ⟨rfl, rfl⟩
      · exact fun row hrow => ⟨row, List.mem_append_left _ hrow, rfl⟩
      · intro row hrow hexternal
        have hfound := hkeyed row hrow
        rw [Connection.key_of_externalId hexternal, hlookup] at hfound
        cases hfound
  | some found =>
      rw [hlookup] at h
      simp only at h
      split at h
      · next huser =>
          obtain rfl := Option.some.inj h
          constructor
          · exact hkeyed.updateWhere _ _ fun _ => rfl
          · intro row' hrow'
            obtain ⟨row, hrow, rfl⟩ := List.mem_map.mp hrow'
            left
            refine ⟨row, hrow, ?_⟩
            split <;> exact ⟨rfl, rfl⟩
          · intro row hrow
            refine ⟨_, List.mem_map_of_mem hrow, ?_⟩
            split <;> rfl
          · intro row hrow hexternal
            have hsame := hkeyed row hrow
            rw [Connection.key_of_externalId hexternal, hlookup] at hsame
            rw [← Option.some.inj hsame]
            exact huser
      · cases h

/-- Tables whose bindings are old ones. -/
theorem Fit.of_owns (h : Fit db)
    (hidentities : Keyed Identity.key db'.identities)
    (hconnections : Keyed Connection.key db'.connections)
    (howns : ∀ externalId userId, Owns db' externalId userId →
      Owns db externalId userId) : Fit db' :=
  ⟨hidentities, hconnections, fun externalId userId other hfirst hsecond =>
    h.oneOwner externalId userId other (howns _ _ hfirst) (howns _ _ hsecond)⟩

/-- A careful `upsert` binds nothing anew. -/
theorem upsert_owns (hfit : Fit db) {profile : OAuthProfile}
    (hcareful : lookup Connection.key
        (profile.provider, profile.providerUserId) db.connections = none →
      ∃ row ∈ db.identities, row.key = (.oauth, profile.externalId) ∧
        row.userId = userId) (h : upsert db profile userId = some db') :
    Fit db' ∧ Onward db db' ∧ db'.started = db.started ∧
      ∀ externalId user, Owns db' externalId user →
        Owns db externalId user := by
  obtain ⟨connections, hput, rfl⟩ := Option.map_eq_some_iff.mp h
  have hspec := put_of_putConnection hfit.connections hput
  have hself : Owns db profile.externalId userId := by
    cases hlookup : lookup Connection.key
        (profile.provider, profile.providerUserId) db.connections with
    | none => exact Or.inl (hcareful hlookup)
    | some row =>
        have hmem := lookup_mem hlookup
        have hexternal := Connection.externalId_of_key (lookup_key hlookup)
        exact Or.inr ⟨row, hmem, hexternal, hspec.own row hmem hexternal⟩
  have howns : ∀ externalId user,
      Owns { db with connections } externalId user →
      Owns db externalId user := by
    rintro externalId user (hidentity | ⟨row', hrow', rfl, rfl⟩)
    · exact Or.inl hidentity
    · rcases hspec.old row' hrow' with ⟨row, hrow, hsame, huser⟩ | ⟨hnew, huser⟩
      · exact Or.inr ⟨row, hrow, hsame, huser⟩
      · rw [hnew, huser]
        exact hself
  refine ⟨hfit.of_owns hfit.identities hspec.keyed howns, ?_, rfl, howns⟩
  rintro user (hidentity | ⟨row, hrow, rfl⟩ | hpasskey)
  · exact Or.inl hidentity
  · exact Or.inr (Or.inl (hspec.kept row hrow))
  · exact Or.inr (Or.inr hpasskey)

/-- `link` binds the identity to its user alone. -/
theorem link_owns (hfit : Fit db) {profile : OAuthProfile}
    (h : link db profile userId = some db') :
    Fit db' ∧ Onward db db' ∧ db'.started = db.started ∧
      ∀ externalId user, Owns db' externalId user →
        Owns db externalId user ∨
          externalId = profile.externalId ∧ user = userId := by
  obtain ⟨identities, hidentities, hrest⟩ := Option.bind_eq_some_iff.mp h
  obtain ⟨connections, hput, rfl⟩ := Option.map_eq_some_iff.mp hrest
  have hspec := put_of_putConnection hfit.connections hput
  have hkeys : Keyed Identity.key identities ∧
      (∀ row ∈ identities, row ∈ db.identities ∨
        row = ⟨userId, .oauth, profile.externalId, none⟩) ∧
      (∀ row ∈ db.identities, row ∈ identities) ∧
      ∀ row ∈ db.identities, row.key = (.oauth, profile.externalId) →
        row.userId = userId := by
    rw [putIdentity] at hidentities
    cases hlookup : lookup Identity.key (.oauth, profile.externalId)
        db.identities with
    | none =>
        rw [hlookup] at hidentities
        obtain rfl := Option.some.inj hidentities
        refine ⟨hfit.identities.append hlookup, ?_, ?_, ?_⟩
        · intro row hrow
          exact (List.mem_append.mp hrow).imp_right List.mem_singleton.mp
        · exact fun row hrow => List.mem_append_left _ hrow
        · intro row hrow hkey
          have hfound := hfit.identities row hrow
          rw [hkey, hlookup] at hfound
          cases hfound
    | some found =>
        rw [hlookup] at hidentities
        simp only at hidentities
        split at hidentities
        · next huser =>
            obtain rfl := Option.some.inj hidentities
            refine ⟨hfit.identities, fun _ hrow => Or.inl hrow,
              fun _ hrow => hrow, ?_⟩
            intro row hrow hkey
            have hsame := hfit.identities row hrow
            rw [hkey, hlookup] at hsame
            rw [← Option.some.inj hsame]
            exact huser
        · cases hidentities
  obtain ⟨hkeyed, hold, hkept, hown⟩ := hkeys
  have howns : ∀ externalId user,
      Owns { db with identities, connections } externalId user →
      Owns db externalId user ∨
        externalId = profile.externalId ∧ user = userId := by
    rintro externalId user (⟨row, hrow, hkey, rfl⟩ | ⟨row', hrow', rfl, rfl⟩)
    · rcases hold row hrow with hmem | rfl
      · exact Or.inl (Or.inl ⟨row, hmem, hkey, rfl⟩)
      · exact Or.inr ⟨(Prod.mk.inj hkey).2.symm, rfl⟩
    · rcases hspec.old row' hrow' with ⟨row, hrow, hsame, huser⟩ | hnew
      · exact Or.inl (Or.inr ⟨row, hrow, hsame, huser⟩)
      · exact Or.inr hnew
  -- Whoever the identity was bound to before is the user.
  have hself : ∀ user, Owns db profile.externalId user → user = userId := by
    rintro user (⟨row, hrow, hkey, rfl⟩ | ⟨row, hrow, hexternal, rfl⟩)
    · exact hown row hrow hkey
    · exact hspec.own row hrow hexternal
  refine ⟨⟨hkeyed, hspec.keyed, ?_⟩, ?_, rfl, howns⟩
  · intro externalId user other hfirst hsecond
    rcases howns _ _ hfirst with hbefore | ⟨hexternal, huser⟩
    · rcases howns _ _ hsecond with hbefore' | ⟨hexternal, huser⟩
      · exact hfit.oneOwner _ _ _ hbefore hbefore'
      · rw [hexternal] at hbefore
        rw [huser]
        exact hself user hbefore
    · rcases howns _ _ hsecond with hbefore' | ⟨-, huser'⟩
      · rw [hexternal] at hbefore'
        rw [huser]
        exact (hself other hbefore').symm
      · rw [huser, huser']
  · rintro user (⟨row, hrow, hmethod⟩ | ⟨row, hrow, rfl⟩ | hpasskey)
    · exact Or.inl ⟨row, hkept row hrow, hmethod⟩
    · exact Or.inr (Or.inl (hspec.kept row hrow))
    · exact Or.inr (Or.inr hpasskey)

theorem Fit.filter (h : Fit db) (keepIdentity : Identity → Bool)
    (keepConnection : Connection → Bool) (passkeys : List Passkey) :
    Fit { db with
      identities := db.identities.filter keepIdentity
      connections := db.connections.filter keepConnection
      passkeys } := by
  apply h.of_owns (h.identities.filter _) (h.connections.filter _)
  rintro externalId userId (⟨row, hrow, howned⟩ | ⟨row, hrow, howned⟩)
  · exact Or.inl ⟨row, (List.mem_filter.mp hrow).1, howned⟩
  · exact Or.inr ⟨row, (List.mem_filter.mp hrow).1, howned⟩

theorem unlink_removed (hfit : Fit db)
    (h : unlink db provider userId = .removed db') :
    Fit db' ∧ Onward db db' ∧ db'.started = db.started ∧
      ∀ externalId user, Owns db' externalId user →
        Owns db externalId user ∧
          ¬ (user = userId ∧ providerOf externalId = provider) := by
  rw [unlink] at h
  split at h
  · cases h
  split at h
  · cases h
  next halternative =>
  obtain rfl := Removal.removed.inj h
  refine ⟨hfit.filter _ _ _, ?_, rfl, ?_⟩
  · intro user hmethod
    by_cases huser : user = userId
    · -- The alternative stays.
      subst huser
      rw [Bool.not_eq_true', Bool.not_eq_false, hasOtherThanProvider,
        Bool.or_eq_true, List.any_eq_true, List.any_eq_true] at halternative
      rcases halternative with ⟨row, hrow, hother⟩ | ⟨row, hrow, huser⟩
      · simp only [Bool.and_eq_true, Bool.or_eq_true, beq_iff_eq,
          Bool.not_eq_true'] at hother
        have hkept : row.isOf provider = false := by
          rcases hother.2 with hsecret | ⟨-, hnot⟩
          · rw [Identity.hasSecret, Bool.and_eq_true, Bool.or_eq_true,
              beq_iff_eq, beq_iff_eq] at hsecret
            rw [Identity.isOf]
            rcases hsecret.1 with hphone | hpassword
            · rw [hphone]
              rfl
            · rw [hpassword]
              rfl
          · exact hnot
        refine Or.inl ⟨row, List.mem_filter.mpr ⟨hrow, ?_⟩, hother.1,
          hother.2.imp_right And.left⟩
        rw [hkept, Bool.and_false, Bool.not_false]
      · exact Or.inr (Or.inr ⟨row, hrow, beq_iff_eq.mp huser⟩)
    · have hapart : ∀ owner, owner = user → (owner == userId) = false := by
        rintro owner rfl
        exact beq_eq_false_iff_ne.mpr huser
      rcases hmethod with ⟨row, hrow, hown, hkind⟩ | ⟨row, hrow, hown⟩ |
        hpasskey
      · refine Or.inl ⟨row, List.mem_filter.mpr ⟨hrow, ?_⟩, hown, hkind⟩
        rw [hapart _ hown, Bool.false_and, Bool.not_false]
      · refine Or.inr (Or.inl ⟨row, List.mem_filter.mpr ⟨hrow, ?_⟩, hown⟩)
        rw [hapart _ hown, Bool.and_false, Bool.not_false]
      · exact Or.inr (Or.inr hpasskey)
  · rintro externalId user (⟨row, hrow, hkey, rfl⟩ | ⟨row, hrow, rfl, rfl⟩)
    · obtain ⟨hmem, hkeep⟩ := List.mem_filter.mp hrow
      refine ⟨Or.inl ⟨row, hmem, hkey, rfl⟩, ?_⟩
      rintro ⟨huser, hprovider⟩
      obtain ⟨hoauth, hexternal⟩ := Prod.mk.inj hkey
      rw [Identity.isOf, hoauth, hexternal, hprovider, huser] at hkeep
      simp at hkeep
    · obtain ⟨hmem, hkeep⟩ := List.mem_filter.mp hrow
      refine ⟨Or.inr ⟨row, hmem, rfl, rfl⟩, ?_⟩
      rintro ⟨huser, hprovider⟩
      rw [Connection.externalId_eq, providerOf_externalId] at hprovider
      rw [hprovider, huser] at hkeep
      simp at hkeep

theorem unlink_absent (h : unlink db provider userId = .absent)
    (externalId : Text) (howns : Owns db externalId userId) :
    providerOf externalId ≠ provider := by
  rw [unlink] at h
  split at h
  · next hnone =>
      rw [Bool.and_eq_true, List.isEmpty_iff, List.isEmpty_iff,
        List.filter_eq_nil_iff, List.filter_eq_nil_iff] at hnone
      intro hprovider
      rcases howns with ⟨row, hrow, hkey, huser⟩ | ⟨row, hrow, rfl, huser⟩
      · obtain ⟨hoauth, hexternal⟩ := Prod.mk.inj hkey
        apply hnone.1 row hrow
        rw [Identity.isOf, hoauth, hexternal, hprovider, huser]
        simp
      · apply hnone.2 row hrow
        rw [Connection.externalId_eq, providerOf_externalId] at hprovider
        rw [hprovider, huser]
        simp
  · split at h <;> cases h

theorem deletePasskey_removed (hfit : Fit db) {credentialId : Text}
    (h : deletePasskey db userId credentialId = .removed db') :
    Fit db' ∧ Onward db db' ∧ db'.started = db.started ∧
      ∀ externalId user, Owns db' externalId user →
        Owns db externalId user := by
  rw [deletePasskey] at h
  split at h
  · cases h
  split at h
  · cases h
  next halternative =>
  obtain rfl := Removal.removed.inj h
  refine ⟨⟨hfit.identities, hfit.connections, hfit.oneOwner⟩, ?_, rfl,
    fun _ _ howns => howns⟩
  intro user hmethod
  rw [Bool.not_eq_true', Bool.not_eq_false, hasOtherThanPasskey,
    Bool.or_eq_true, List.any_eq_true, List.any_eq_true] at halternative
  rcases hmethod with hidentity | hconnection | ⟨row, hrow, hown⟩
  · exact Or.inl hidentity
  · exact Or.inr (Or.inl hconnection)
  · by_cases hkept : (!(row.credentialId == credentialId &&
        row.userId == userId)) = true
    · exact Or.inr (Or.inr ⟨row, List.mem_filter.mpr ⟨hrow, hkept⟩, hown⟩)
    · -- The passkey is the one that goes; the alternative stays.
      simp only [Bool.not_eq_true', Bool.not_eq_false, Bool.and_eq_true,
        beq_iff_eq] at hkept
      rcases halternative with ⟨other, hother, hmatch⟩ |
        ⟨other, hother, hmatch⟩
      · simp only [Bool.and_eq_true, Bool.or_eq_true, beq_iff_eq] at hmatch
        left
        exact ⟨other, hother, by rw [hmatch.1, ← hown, hkept.2], hmatch.2⟩
      · simp only [Bool.and_eq_true, beq_iff_eq, bne_iff_ne] at hmatch
        right
        right
        refine ⟨other, List.mem_filter.mpr ⟨hother, ?_⟩, by
          rw [hmatch.1, ← hown, hkept.2]⟩
        simp [hmatch.2]

theorem insertPasskey_some (hfit : Fit db) {credentialId : Text}
    (h : insertPasskey db userId credentialId = some db') :
    Fit db' ∧ Onward db db' ∧ db'.started = db.started ∧
      ∀ externalId user, Owns db' externalId user →
        Owns db externalId user := by
  rw [insertPasskey] at h
  split at h
  · cases h
  · obtain rfl := Option.some.inj h
    refine ⟨⟨hfit.identities, hfit.connections, hfit.oneOwner⟩, ?_, rfl,
      fun _ _ howns => howns⟩
    rintro user (hidentity | hconnection | ⟨row, hrow, hown⟩)
    · exact Or.inl hidentity
    · exact Or.inr (Or.inl hconnection)
    · exact Or.inr (Or.inr ⟨row, List.mem_append_left _ hrow, hown⟩)

theorem findOrCreatePasskeyIdentity_owns (hfit : Fit db) (userId : Nat) :
    Fit (findOrCreatePasskeyIdentity db userId) ∧
      Onward db (findOrCreatePasskeyIdentity db userId) ∧
      (findOrCreatePasskeyIdentity db userId).started = db.started ∧
      ∀ externalId user,
        Owns (findOrCreatePasskeyIdentity db userId) externalId user →
        Owns db externalId user := by
  rw [findOrCreatePasskeyIdentity]
  split
  · exact ⟨hfit, fun _ hmethod => hmethod, rfl, fun _ _ howns => howns⟩
  · next hfree =>
      rw [Bool.or_eq_true, not_or, Option.isSome_iff_ne_none, not_not]
        at hfree
      have howns : ∀ externalId user, Owns { db with
          identities := db.identities ++
            [⟨userId, .passkey, passkeyExternalId userId, none⟩] }
          externalId user → Owns db externalId user := by
        rintro externalId user (⟨row, hrow, hkey, hown⟩ | hconnection)
        · rcases List.mem_append.mp hrow with hold | hnew
          · exact Or.inl ⟨row, hold, hkey, hown⟩
          · rw [List.mem_singleton.mp hnew] at hkey
            exact AuthProvider.noConfusion (Prod.mk.inj hkey).1
        · exact Or.inr hconnection
      refine ⟨hfit.of_owns (hfit.identities.append hfree.2)
        hfit.connections howns, ?_, rfl, howns⟩
      rintro user (⟨row, hrow, hmethod⟩ | hother)
      · exact Or.inl ⟨row, List.mem_append_left _ hrow, hmethod⟩
      · exact Or.inr hother

/-! ### Statements -/

/-- A transaction leaves sound tables, what its call has to know, and the
tickets of the others alone. -/
structure Carried (db : Db) (past : List Event)
    (result : Db × Stage × List Event) : Prop where
  sound : Sound result.1 (past ++ result.2.2)
  knows : Knows result.1 (past ++ result.2.2) result.2.1
  onward : Onward db result.1
  started : db.started ≤ result.1.started
  fresh : ∀ ticket < db.started, .started ticket ∉ result.2.2

section

variable (h : Sound db past)
include h

/-- A transaction that emits nothing and binds nothing anew. -/
theorem Sound.go
    (hchange : Fit db' ∧ Onward db db' ∧ db'.started = db.started ∧
      ∀ externalId user, Owns db' externalId user →
        Owns db externalId user) (hknows : Knows db past next) :
    Carried db past (db', next, []) := by
  obtain ⟨hfit, honward, hstarted, howns⟩ := hchange
  constructor
  · rw [List.append_nil]
    refine ⟨hfit, fun _ _ hown => h.bound _ _ (howns _ _ hown), ?_, h.logins⟩
    rw [hstarted]
    exact h.started
  · apply hknows.later (Nat.le_of_eq hstarted.symm)
    exact fun _ _ => List.not_mem_nil
  · exact honward
  · exact Nat.le_of_eq hstarted.symm
  · exact fun _ _ => List.not_mem_nil

theorem Sound.stay (hknows : Knows db past next) :
    Carried db past (db, next, []) :=
  h.go ⟨h.fit, fun _ hmethod => hmethod, rfl, fun _ _ howns => howns⟩ hknows

theorem Sound.whenActive (userId : Nat) (hknows : Knows db past next) :
    Carried db past (whenActive db userId next) := by
  rw [LoginMethod.whenActive]
  split
  · exact h.stay hknows
  · exact h.stay trivial

/-- A callback starts with a ticket that no other has. -/
theorem Sound.begin (profile : OAuthProfile) :
    Carried db past ({ db with started := db.started + 1 },
      .findConnection db.started profile, [.started db.started]) := by
  constructor
  · refine ⟨⟨h.fit.identities, h.fit.connections, h.fit.oneOwner⟩, ?_, ?_, ?_⟩
    · intro externalId userId howns
      apply (h.bound externalId userId howns).append
      intro rest before hnew
      have hmem : .unlinked userId (providerOf externalId) ∈
          [Event.started db.started] :=
        mem_of_split hnew
      simp at hmem
    · intro ticket hticket
      rcases List.mem_append.mp hticket with hpast | hnew
      · exact Nat.lt_succ_of_lt (h.started ticket hpast)
      · rw [Event.started.inj (List.mem_singleton.mp hnew)]
        exact Nat.lt_succ_self _
    · apply h.logins_append
      intro front ticket userId externalId after hnew
      have hmem : .loggedIn ticket userId externalId ∈
          [Event.started db.started] :=
        mem_of_split hnew
      simp at hmem
  · exact Nat.lt_succ_self _
  · exact fun _ hmethod => hmethod
  · exact Nat.le_succ _
  · intro ticket hlow hmem
    rw [Event.started.inj (List.mem_singleton.mp hmem)] at hlow
    exact absurd hlow (Nat.lt_irrefl _)

/-- A callback ends: what it found was bound after it had started. -/
theorem Sound.loggedIn {ticket : Nat}
    (hbefore : RelinkedBefore ticket past userId externalId) :
    Carried db past
      (db, .returned, [.loggedIn ticket userId externalId]) := by
  constructor
  · refine ⟨h.fit, ?_, ?_, ?_⟩
    · intro external user howns
      apply (h.bound external user howns).append
      intro rest before hnew
      have hmem : .unlinked user (providerOf external) ∈
          [Event.loggedIn ticket userId externalId] :=
        mem_of_split hnew
      simp at hmem
    · intro other hother
      apply h.started other
      simpa using hother
    · apply h.logins_append
      intro front other user external after hnew
      cases front with
      | nil =>
          obtain ⟨heq, -⟩ := List.cons.inj hnew
          obtain ⟨rfl, rfl, rfl⟩ := Event.loggedIn.inj heq
          rw [List.append_nil]
          exact hbefore
      | cons head tail =>
          obtain ⟨-, hrest⟩ := List.cons.inj hnew
          simp at hrest
  · trivial
  · exact fun _ hmethod => hmethod
  · exact Nat.le_refl _
  · intro other _ hmem
    simp at hmem

/-- The events of a link or an unlink start no callback and log nobody in. -/
theorem Sound.change {event : Event} (hfit : Fit db') (honward : Onward db db')
    (hstarted : db'.started = db.started)
    (hbound : ∀ externalId userId, Owns db' externalId userId →
      Relinked (past ++ [event]) userId externalId)
    (hnostart : ∀ ticket, event ≠ .started ticket)
    (hnologin : ∀ ticket userId externalId,
      event ≠ .loggedIn ticket userId externalId) :
    Carried db past (db', .returned, [event]) := by
  constructor
  · refine ⟨hfit, hbound, ?_, ?_⟩
    · intro ticket hticket
      rw [hstarted]
      rcases List.mem_append.mp hticket with hpast | hnew
      · exact h.started ticket hpast
      · exact absurd (List.mem_singleton.mp hnew).symm (hnostart ticket)
    · apply h.logins_append
      intro front ticket userId externalId after hnew
      have hmem : .loggedIn ticket userId externalId ∈ [event] :=
        mem_of_split hnew
      exact absurd (List.mem_singleton.mp hmem).symm
        (hnologin ticket userId externalId)
  · trivial
  · exact honward
  · exact Nat.le_of_eq hstarted.symm
  · intro ticket _ hmem
    exact hnostart ticket (List.mem_singleton.mp hmem).symm

theorem Sound.link {profile : OAuthProfile}
    (hlink : link db profile userId = some db') :
    Carried db past
      (db', .returned, [.linked userId profile.externalId]) := by
  obtain ⟨hfit, honward, hstarted, howns⟩ := link_owns h.fit hlink
  apply h.change hfit honward hstarted
  · intro externalId user hown
    rcases howns externalId user hown with hold | ⟨rfl, rfl⟩
    · apply (h.bound externalId user hold).append
      intro rest before hnew
      have hmem : .unlinked user (providerOf externalId) ∈
          [Event.linked userId profile.externalId] :=
        mem_of_split hnew
      simp at hmem
    · exact relinked_linked past _ _
  · exact fun _ => Event.noConfusion
  · exact fun _ _ _ => Event.noConfusion

/-- After an unlink the user has no identity of the provider. -/
theorem Sound.unlinked (hfit : Fit db') (honward : Onward db db')
    (hstarted : db'.started = db.started)
    (howns : ∀ externalId user, Owns db' externalId user →
      Owns db externalId user ∧
        ¬ (user = userId ∧ providerOf externalId = provider)) :
    Carried db past (db', .returned, [.unlinked userId provider]) := by
  apply h.change hfit honward hstarted
  · intro externalId user hown
    obtain ⟨hold, hapart⟩ := howns externalId user hown
    apply (h.bound externalId user hold).append
    intro rest before hnew
    have hmem : .unlinked user (providerOf externalId) ∈
        [Event.unlinked userId provider] :=
      mem_of_split hnew
    exact absurd (Event.unlinked.inj (List.mem_singleton.mp hmem)) hapart
  · exact fun _ => Event.noConfusion
  · exact fun _ _ _ => Event.noConfusion

theorem Sound.unlink (userId : Nat) (provider : Text) :
    Carried db past (statement db () (.unlink userId provider)) := by
  rw [statement]
  cases hremoval : LoginMethod.unlink db provider userId with
  | conflict => exact h.stay trivial
  | absent =>
      apply h.unlinked h.fit (fun _ hmethod => hmethod) rfl
      intro externalId user howns
      refine ⟨howns, ?_⟩
      rintro ⟨rfl, hprovider⟩
      exact unlink_absent hremoval externalId howns hprovider
  | removed next =>
      obtain ⟨hfit, honward, hstarted, howns⟩ :=
        unlink_removed h.fit hremoval
      exact h.unlinked hfit honward hstarted howns

theorem Sound.statement {choice : Unit} {stage : Stage}
    (hknows : Knows db past stage) (hcareful : Careful db choice stage) :
    Carried db past (statement db choice stage) := by
  cases stage with
  | start request =>
      cases request with
      | callback profile => exact h.begin profile
      | link userId profile => exact h.whenActive userId trivial
      | unlink userId provider => exact h.whenActive userId trivial
      | registerPasskey userId credentialId =>
          exact h.whenActive userId trivial
      | deletePasskey userId credentialId =>
          rw [LoginMethod.statement]
          cases hremoval : deletePasskey db userId credentialId with
          | absent => exact h.stay trivial
          | conflict => exact h.stay trivial
          | removed next =>
              exact h.go (deletePasskey_removed h.fit hremoval) trivial
  | findConnection ticket profile =>
      rw [LoginMethod.statement]
      cases hfind : findConnection db profile.externalId with
      | none => exact h.stay hknows
      | some row =>
          have howns := findConnection_owns rfl hfind
          exact h.stay ⟨hknows, (h.bound _ _ howns).before ticket⟩
  | findUser ticket profile userId => exact h.whenActive userId hknows
  | findIdentity ticket profile =>
      rw [LoginMethod.statement]
      cases hfind : findOAuthIdentity db profile.externalId with
      | none => exact h.stay trivial
      | some found =>
          obtain ⟨identity, user⟩ := found
          have howns := findOAuthIdentity_owns hfind
          simp only
          split
          · exact h.stay ⟨hknows, (h.bound _ _ howns).before ticket⟩
          · exact h.stay trivial
  | upsert ticket profile userId =>
      rw [LoginMethod.statement]
      cases hupsert : upsert db profile userId with
      | none => exact h.stay trivial
      | some next =>
          exact h.go (upsert_owns h.fit hcareful hupsert) hknows
  | issue ticket profile userId =>
      rw [LoginMethod.statement]
      split
      · exact h.loggedIn hknows.2
      · exact h.stay trivial
  | linkConnection userId profile =>
      rw [LoginMethod.statement]
      split <;> exact h.stay trivial
  | linkIdentity userId profile =>
      rw [LoginMethod.statement]
      split <;> exact h.stay trivial
  | linkActive userId profile => exact h.whenActive userId trivial
  | link userId profile =>
      rw [LoginMethod.statement]
      cases hlink : LoginMethod.link db profile userId with
      | none => exact h.stay trivial
      | some next => exact h.link hlink
  | unlink userId provider => exact h.unlink userId provider
  | findCredential userId credentialId =>
      rw [LoginMethod.statement]
      split <;> exact h.stay trivial
  | insertPasskey userId credentialId =>
      rw [LoginMethod.statement]
      cases hinsert : insertPasskey db userId credentialId with
      | none => exact h.stay trivial
      | some next => exact h.go (insertPasskey_some h.fit hinsert) trivial
  | createIdentity userId =>
      exact h.go (findOrCreatePasskeyIdentity_owns h.fit userId) trivial
  | returned => exact h.stay trivial
  | failed => exact h.stay trivial

theorem Sound.outside (action : Outside) :
    Sound (outside db action).1 (past ++ (outside db action).2) ∧
      Onward db (LoginMethod.outside db action).1 := by
  cases action with
  | setActive userId active =>
      rw [LoginMethod.outside, List.append_nil]
      exact ⟨⟨⟨h.fit.identities, h.fit.connections, h.fit.oneOwner⟩, h.bound,
        h.started, h.logins⟩, fun _ hmethod => hmethod⟩

end

theorem sound_start (h : Fit db) : Sound db [] := by
  refine ⟨h, ?_, ?_, ?_⟩
  · intro externalId userId _ before rest hsplit
    simp at hsplit
  · intro ticket hticket
    cases hticket
  · intro front ticket userId externalId after hsplit
    simp at hsplit

end

/-- The proof of the service by what a callback knows. -/
def proof : service.Proof Careful (fun _ _ => True) where
  inv := Sound
  knows := Knows
  apart _ _ := True
  symm _ := trivial
  starts _ request := ⟨trivial, fun _ _ => trivial⟩
  keeps hsound hknows hcareful := by
    have hcarried := hsound.statement hknows hcareful
    exact ⟨hcarried.sound, hcarried.knows, fun _ hother _ =>
      ⟨hother.later hcarried.started hcarried.fresh, trivial⟩⟩
  bears {_ _ action} hsound _ := by
    refine ⟨(hsound.outside action).1, fun stage hknows => ?_⟩
    cases action
    exact hknows.later (Nat.le_refl _) fun _ _ => List.not_mem_nil

theorem progress : proof.Progress Onward where
  refl _ _ hmethod := hmethod
  trans h h' userId hmethod := h' userId (h userId hmethod)
  keeps hsound hknows hcareful := (hsound.statement hknows hcareful).onward
  bears hsound _ := (hsound.outside _).2

/-- Along every careful run from tables that bind no identity twice, login
methods are as promised. -/
theorem careful_login_methods (start : Db) (hfit : Fit start)
    (acts : List (Act Request Unit Outside))
    (hcareful : service.machine.Admissible
      (Service.Restricted Careful fun _ _ => True) (Service.idle start)
      acts) :
    MethodLaw start acts := by
  have hsound := (proof.run (sound_start hfit) acts hcareful).inv
  constructor
  · exact hsound.fit.oneOwner
  · rintro first last rfl userId hmethod
    exact progress.run (sound_start hfit) hcareful userId hmethod
  · exact hsound.logins

namespace BindingWitness

def profile : OAuthProfile := ⟨.google, ['s'], none⟩

/-- A user with a password whose Google account is linked. -/
def linked : Db where
  users := [⟨0, true⟩]
  identities := [⟨0, .phone, ['p'], some ['h']⟩,
    ⟨0, .oauth, profile.externalId, none⟩]
  connections := [⟨0, .google, ['s'], none⟩]
  passkeys := []
  started := 0

def proceed (index count : Nat) : List (Act Request Unit Outside) :=
  List.replicate count (.proceed index ())

def unlinked (index : Nat) : List (Act Request Unit Outside) :=
  .request (.unlink 0 profile.provider.name) :: proceed index 2

/-- A callback looks up its user, the user unlinks the provider, the callback
goes on; then another callback comes. -/
def straddled : List (Act Request Unit Outside) :=
  .request (.callback profile) :: proceed 0 3 ++ unlinked 1 ++ proceed 0 2 ++
    .request (.callback profile) :: proceed 2 5

/-- A callback, an unlink, and a callback that finds nothing. -/
def inTurn : List (Act Request Unit Outside) :=
  .request (.callback profile) :: proceed 0 5 ++ unlinked 1 ++
    .request (.callback profile) :: proceed 2 5

theorem linked_fit : Fit linked := by
  have hkeys : Keyed Identity.key linked.identities := by
    unfold Keyed
    decide
  have hconnections : Keyed Connection.key linked.connections := by
    unfold Keyed
    decide
  refine ⟨hkeys, hconnections, ?_⟩
  have hzero : ∀ externalId userId, Owns linked externalId userId →
      userId = 0 := by
    rintro externalId userId (⟨row, hrow, -, rfl⟩ | ⟨row, hrow, -, rfl⟩)
    · revert row
      decide
    · revert row
      decide
  intro externalId userId other hfirst hsecond
  rw [hzero _ _ hfirst, hzero _ _ hsecond]

end BindingWitness

open BindingWitness in
/-- A callback that straddles an unlink puts the connection back, and a later
one signs in with it. -/
theorem straddling_callback_rebinds : ¬ MethodLaw linked straddled := by
  intro law
  have htrace : service.machine.trace (Service.idle linked) straddled =
      [.started 0, .unlinked 0 profile.provider.name,
        .loggedIn 0 0 profile.externalId, .started 1,
        .loggedIn 1 0 profile.externalId] := by decide
  have hlogin := law.unlinked [.started 0,
    .unlinked 0 profile.provider.name, .loggedIn 0 0 profile.externalId,
    .started 1] 1 0 profile.externalId [] htrace
  have hrelinked := hlogin [.started 0]
    [.loggedIn 0 0 profile.externalId] [] (by decide)
  exact absurd hrelinked (by decide)

open BindingWitness in
theorem careful_login_methods_inTurn :
    service.machine.Admissible (Service.Restricted Careful fun _ _ => True)
        (Service.idle linked) inTurn ∧
      MethodLaw linked inTurn := by
  have hcareful : service.machine.Admissible
      (Service.Restricted Careful fun _ _ => True) (Service.idle linked)
      inTurn := by decide
  exact ⟨hcareful, careful_login_methods linked linked_fit _ hcareful⟩

end AiTeam.LoginMethod
