/-
A sync for an owner: revoked ids are gone from what the owner is shown, other
owners' rows stay, and a sync that fails leaves the store as it was.
-/
import AiTeam.Projection.Store

namespace AiTeam.Projection

/-! ### Sequences of statements -/

/-- What every statement of a sequence keeps, the sequence keeps, also when it
stops early. -/
theorem forEach_keeps {α : Type} (statement : α → Store → Option Store)
    (Keeps : Store → Store → Prop) (hrefl : ∀ store, Keeps store store)
    (htrans : ∀ {a b c}, Keeps a b → Keeps b c → Keeps a c) (items : List α)
    (hstep : ∀ item ∈ items, ∀ {store next},
      statement item store = some next → Keeps store next) (store : Store) :
    Keeps store (forEach statement items store).1 := by
  induction items generalizing store with
  | nil => exact hrefl store
  | cons item rest ih =>
      rw [forEach]
      cases hnext : statement item store with
      | none => exact hrefl store
      | some next =>
          have hhead := hstep item List.mem_cons_self hnext
          have hrest := ih (fun other hother =>
            hstep other (List.mem_cons_of_mem item hother)) next
          exact htrans hhead hrest

theorem foldl_keeps {α : Type} (statement : Store → α → Store)
    (Keeps : Store → Store → Prop) (hrefl : ∀ store, Keeps store store)
    (htrans : ∀ {a b c}, Keeps a b → Keeps b c → Keeps a c)
    (hstep : ∀ store item, Keeps store (statement store item))
    (items : List α) (store : Store) :
    Keeps store (items.foldl statement store) := by
  induction items generalizing store with
  | nil => exact hrefl store
  | cons item rest ih =>
      exact htrans (hstep store item) (ih (statement store item))

variable {store written next : Store} {result : SyncResult} {id : String}
  {key : ProjectionKey}

/-- The stores a committed sync goes through. -/
theorem replaceProjectionRows_cases {accepts : Accepts} {pull : Pull}
    {owner : Option Owner} {now : String}
    (h : replaceProjectionRows accepts store pull owner now =
      (written, some result)) :
    ∃ upserted,
      upserted = (forEach (upsertSnapshot accepts now) pull.snapshots
        (forEach (upsertSolution accepts now) pull.solutions
          (forEach (upsertExpert accepts now) pull.experts
            (clearLegacy pull owner store)).1).1).1 ∧
      written = pull.revokedIds.foldl (revoke owner now) upserted := by
  refine ⟨_, rfl, ?_⟩
  rw [replaceProjectionRows] at h
  split at h
  · exact nomatch h
  · next experts hexperts =>
      split at h
      · exact nomatch h
      · next solutions hsolutions =>
          split at h
          · exact nomatch h
          · next snapshots hsnapshots =>
              rw [hexperts, hsolutions, hsnapshots]
              exact (Prod.mk.inj h).1.symm

/-- What the upserts and the revocations keep, a committed sync keeps from
where the legacy rows are gone. -/
theorem replaceProjectionRows_keeps {accepts : Accepts} {pull : Pull}
    {owner : Option Owner} {now : String} (Keeps : Store → Store → Prop)
    (hrefl : ∀ store, Keeps store store)
    (htrans : ∀ {a b c}, Keeps a b → Keeps b c → Keeps a c)
    (hexpert : ∀ expert ∈ pull.experts, ∀ {store next},
      upsertExpert accepts now expert store = some next → Keeps store next)
    (hsolution : ∀ solution ∈ pull.solutions, ∀ {store next},
      upsertSolution accepts now solution store = some next →
        Keeps store next)
    (hsnapshot : ∀ snapshot ∈ pull.snapshots, ∀ {store next},
      upsertSnapshot accepts now snapshot store = some next →
        Keeps store next)
    (hrevoke : ∀ store id, Keeps store (revoke owner now store id))
    (h : replaceProjectionRows accepts store pull owner now =
      (written, some result)) :
    Keeps (clearLegacy pull owner store) written := by
  obtain ⟨upserted, rfl, rfl⟩ := replaceProjectionRows_cases h
  have hexperts := forEach_keeps (upsertExpert accepts now) Keeps hrefl htrans
    pull.experts hexpert
  have hsolutions := forEach_keeps (upsertSolution accepts now) Keeps hrefl
    htrans pull.solutions hsolution
  have hsnapshots := forEach_keeps (upsertSnapshot accepts now) Keeps hrefl
    htrans pull.snapshots hsnapshot
  have hrevoked := foldl_keeps (revoke owner now) Keeps hrefl htrans hrevoke
    pull.revokedIds
  exact htrans (hexperts _) (htrans (hsolutions _) (htrans (hsnapshots _)
    (hrevoked _)))

/-! ### Other owners -/

/-- Rows the owner's sync is not about: those of another tenant, and those of
another member. -/
def Foreign (owner : Owner) (key : ProjectionKey) : Prop :=
  key.tenantId ≠ owner.tenantId ∨
    (key.memberId ≠ "" ∧ key.memberId ≠ owner.memberId)

instance (owner : Owner) : DecidablePred (Foreign owner) := fun _ =>
  inferInstanceAs (Decidable (_ ∨ _))

/-- The rows of others, in their order. -/
def foreignRows {R : Type} (key : R → ProjectionKey) (owner : Owner)
    (rows : List R) : List R :=
  rows.filter fun row => Foreign owner (key row)

structure Untouched (owner : Owner) (before after : Store) : Prop where
  experts : foreignRows ExpertRow.key owner after.experts =
    foreignRows ExpertRow.key owner before.experts
  solutions : foreignRows SolutionRow.key owner after.solutions =
    foreignRows SolutionRow.key owner before.solutions
  snapshots : foreignRows SnapshotRow.key owner after.snapshots =
    foreignRows SnapshotRow.key owner before.snapshots

theorem Untouched.refl (owner : Owner) (store : Store) :
    Untouched owner store store := ⟨rfl, rfl, rfl⟩

theorem Untouched.trans {owner : Owner} {a b c : Store}
    (hab : Untouched owner a b) (hbc : Untouched owner b c) :
    Untouched owner a c where
  experts := hbc.experts.trans hab.experts
  solutions := hbc.solutions.trans hab.solutions
  snapshots := hbc.snapshots.trans hab.snapshots

/-- The pull the Manager answers the owner with names no other owner. -/
structure Pull.isFor (pull : Pull) (owner : Owner) : Prop where
  experts : ∀ expert ∈ pull.experts, ¬ Foreign owner expert.key
  solutions : ∀ solution ∈ pull.solutions, ¬ Foreign owner solution.key
  snapshots : ∀ snapshot ∈ pull.snapshots, ¬ Foreign owner snapshot.key

section

variable {R : Type} (key : R → ProjectionKey) {owner : Owner}

theorem foreignRows_upsert {row : R} (hrow : ¬ Foreign owner (key row))
    (rows : List R) :
    foreignRows key owner (upsert key row rows) =
      foreignRows key owner rows := by
  apply filter_upsert
  intro other hkey
  rw [hkey]
  exact decide_eq_false hrow

theorem foreignRows_filter {keep : R → Bool}
    (hkeep : ∀ row, Foreign owner (key row) → keep row = true)
    (rows : List R) :
    foreignRows key owner (rows.filter keep) = foreignRows key owner rows := by
  rw [foreignRows, foreignRows, List.filter_filter]
  apply List.filter_congr
  intro row _
  by_cases hforeign : Foreign owner (key row)
  · simp [hforeign, hkeep row hforeign]
  · simp [hforeign]

theorem foreignRows_updateWhere {guard : R → Bool} {change : R → R}
    (hguard : ∀ row, guard row = true → ¬ Foreign owner (key row))
    (hchange : ∀ row, key (change row) = key row) (rows : List R) :
    foreignRows key owner (updateWhere guard change rows) =
      foreignRows key owner rows := by
  induction rows with
  | nil => rfl
  | cons head tail ih =>
      rw [foreignRows, foreignRows] at ih ⊢
      rw [updateWhere_cons, List.filter_cons, List.filter_cons, ih]
      by_cases hhead : guard head = true
      · have hlocal := hguard head hhead
        simp [hhead, hchange, hlocal]
      · simp [hhead]

end

/-- A row that is revoked for the owner is not another owner's. -/
theorem not_foreign_of_revokes {owner : Owner}
    (h : revokes (some owner) id key = true) : ¬ Foreign owner key := by
  simp only [revokes, ofMember, Bool.and_eq_true, Bool.or_eq_true,
    decide_eq_true_eq] at h
  rintro (htenant | ⟨hmember, hother⟩)
  · exact htenant h.1.2
  · exact h.2.elim hother hmember

theorem untouched_removeLegacy (owner : Owner) (store : Store)
    (employeeId : String) :
    Untouched owner store (removeLegacy owner store employeeId) := by
  have hlegacy : ∀ key : ProjectionKey, Foreign owner key →
      decide (key ≠ ⟨employeeId, owner.tenantId, ""⟩) = true := by
    intro key hforeign
    apply decide_eq_true
    rintro rfl
    exact hforeign.elim (fun h => h rfl) fun h => h.1 rfl
  exact ⟨foreignRows_filter ExpertRow.key (fun row => hlegacy row.key) _, rfl,
    foreignRows_filter SnapshotRow.key (fun row => hlegacy row.key) _⟩

theorem untouched_upsertExpert {accepts : Accepts} {now : String}
    {owner : Owner} {expert : LoadedExpertProjection}
    (hexpert : ¬ Foreign owner expert.key)
    (h : upsertExpert accepts now expert store = some next) :
    Untouched owner store next := by
  obtain ⟨json, _, rfl⟩ := Option.map_eq_some_iff.mp h
  exact ⟨foreignRows_upsert ExpertRow.key hexpert _, rfl, rfl⟩

theorem untouched_upsertSolution {accepts : Accepts} {now : String}
    {owner : Owner} {solution : LoadedSolutionProjection}
    (hsolution : ¬ Foreign owner solution.key)
    (h : upsertSolution accepts now solution store = some next) :
    Untouched owner store next := by
  obtain ⟨json, _, rfl⟩ := Option.map_eq_some_iff.mp h
  exact ⟨rfl, foreignRows_upsert SolutionRow.key hsolution _, rfl⟩

theorem untouched_upsertSnapshot {accepts : Accepts} {now : String}
    {owner : Owner} {snapshot : FrozenSnapshot}
    (hsnapshot : ¬ Foreign owner snapshot.key)
    (h : upsertSnapshot accepts now snapshot store = some next) :
    Untouched owner store next := by
  obtain ⟨json, _, rfl⟩ := Option.map_eq_some_iff.mp h
  exact ⟨rfl, rfl, foreignRows_upsert SnapshotRow.key hsnapshot _⟩

theorem untouched_revoke (owner : Owner) (now : String) (store : Store)
    (id : String) :
    Untouched owner store (revoke (some owner) now store id) := by
  have hkeep : ∀ key : ProjectionKey, Foreign owner key →
      (!revokes (some owner) id key) = true := by
    intro key hforeign
    rw [Bool.not_eq_true']
    exact Bool.eq_false_iff.mpr fun h => not_foreign_of_revokes h hforeign
  constructor
  · apply foreignRows_updateWhere
    · exact fun row => not_foreign_of_revokes
    · exact fun row => rfl
  · exact foreignRows_filter SolutionRow.key (fun row => hkeep row.key) _
  · exact foreignRows_filter SnapshotRow.key (fun row => hkeep row.key) _

/-- The transaction as it commits. -/
theorem untouched_rows {accepts : Accepts} {pull : Pull} {owner : Owner}
    {now : String} (hpull : pull.isFor owner)
    (h : replaceProjectionRows accepts store pull (some owner) now =
      (written, some result)) : Untouched owner store written := by
  have hrefl := Untouched.refl owner
  have htrans : ∀ {a b c : Store}, Untouched owner a b → Untouched owner b c →
      Untouched owner a c := fun hab hbc => hab.trans hbc
  have hcleared : Untouched owner store (clearLegacy pull (some owner) store) :=
    foldl_keeps (removeLegacy owner) (Untouched owner) hrefl htrans
      (untouched_removeLegacy owner) (superseded pull owner) store
  apply hcleared.trans
  apply replaceProjectionRows_keeps (Untouched owner) hrefl htrans ?_ ?_ ?_
    ?_ h
  · intro expert hexpert store next hnext
    exact untouched_upsertExpert (hpull.experts expert hexpert) hnext
  · intro solution hsolution store next hnext
    exact untouched_upsertSolution (hpull.solutions solution hsolution) hnext
  · intro snapshot hsnapshot store next hnext
    exact untouched_upsertSnapshot (hpull.snapshots snapshot hsnapshot) hnext
  · exact untouched_revoke owner now

/-! ### Revoked ids -/

/-- Nothing of the id is left for the owner among the rows it is about. -/
structure Retired (owner : Owner) (id : String) (store : Store) : Prop where
  experts : ∀ row ∈ store.experts, revokes (some owner) id row.key = true →
    row.revoked = true
  solutions : ∀ row ∈ store.solutions, revokes (some owner) id row.key = false
  snapshots : ∀ row ∈ store.snapshots, revokes (some owner) id row.key = false

theorem retired_revoke (owner : Owner) (now : String) (store : Store)
    (id : String) :
    Retired owner id (revoke (some owner) now store id) where
  experts := by
    intro row hrow hrevokes
    obtain ⟨old, _, rfl⟩ := List.mem_map.mp hrow
    by_cases hold : revokes (some owner) id old.key = true
    · simp [hold]
    · simp [hold] at hrevokes
  solutions := fun row hrow =>
    Bool.not_eq_true' _ |>.mp (List.mem_filter.mp hrow).2
  snapshots := fun row hrow =>
    Bool.not_eq_true' _ |>.mp (List.mem_filter.mp hrow).2

theorem Retired.revoke {owner : Owner} (h : Retired owner id store)
    (now : String) (other : String) :
    Retired owner id (revoke (some owner) now store other) where
  experts := by
    intro row hrow hrevokes
    obtain ⟨old, hold, rfl⟩ := List.mem_map.mp hrow
    by_cases hother : revokes (some owner) other old.key = true
    · simp [hother]
    · simp only [hother] at hrevokes ⊢
      exact h.experts old hold hrevokes
  solutions := fun row hrow => h.solutions row (List.mem_filter.mp hrow).1
  snapshots := fun row hrow => h.snapshots row (List.mem_filter.mp hrow).1

theorem retired_foldl (owner : Owner) (now : String) {ids : List String}
    (hid : id ∈ ids) (store : Store) :
    Retired owner id (ids.foldl (revoke (some owner) now) store) := by
  induction ids generalizing store with
  | nil => exact nomatch hid
  | cons head tail ih =>
      rw [List.foldl_cons]
      rcases List.mem_cons.mp hid with rfl | htail
      · have hhead := retired_revoke owner now store id
        exact foldl_keeps (AiTeam.Projection.revoke (some owner) now)
          (fun before after =>
            Retired owner id before → Retired owner id after)
          (fun _ h => h) (fun hab hbc h => hbc (hab h))
          (fun _ other h => h.revoke now other) tail _ hhead
      · exact ih htail _

/-- A row of a revoked id that is still listed has no tenant. -/
theorem Retired.tenantless {owner : Owner}
    (hretired : revokes (some owner) id key = false)
    (hlisted : listed owner key = true) (hid : key.id = id) :
    key.tenantId = "" ∧ key.tenantId ≠ owner.tenantId := by
  simp only [revokes, listed, Bool.and_eq_false_iff, Bool.and_eq_true,
    Bool.or_eq_true, decide_eq_true_eq, decide_eq_false_iff_not] at *
  obtain ⟨htenant, hmember⟩ := hlisted
  rcases hretired with (hother | hforeign) | hhidden
  · exact absurd hid hother
  · exact ⟨htenant.resolve_right hforeign, hforeign⟩
  · exact absurd hmember (Bool.eq_false_iff.mp hhidden)

/-- What the owner is shown of an id after it was revoked: nothing but
tenant-less rows that were there before. -/
structure Hidden (owner : Owner) (id : String) (before after : Store) :
    Prop where
  experts : ∀ row ∈ loadedExperts after owner, row.key.id ≠ id
  solutions : ∀ row ∈ listSolutions after owner, row.key.id = id →
    row.key.tenantId = "" ∧ row ∈ before.solutions
  snapshots : ∀ row ∈ listSnapshots after owner, row.key.id = id →
    row.key.tenantId = "" ∧ row ∈ before.snapshots

theorem mem_of_foreign {R : Type} {key : R → ProjectionKey} {owner : Owner}
    {before after : List R}
    (hsame : foreignRows key owner after = foreignRows key owner before)
    {row : R} (hrow : row ∈ after)
    (htenant : (key row).tenantId ≠ owner.tenantId) : row ∈ before := by
  have hforeign : row ∈ foreignRows key owner after :=
    List.mem_filter.mpr ⟨hrow, decide_eq_true (Or.inl htenant)⟩
  rw [hsame] at hforeign
  exact (List.mem_filter.mp hforeign).1

theorem Retired.hidden {owner : Owner} {before after : Store}
    (h : Retired owner id after) (huntouched : Untouched owner before after) :
    Hidden owner id before after where
  experts := by
    intro row hrow hid
    obtain ⟨hmem, hshown⟩ := List.mem_filter.mp hrow
    simp only [Bool.and_eq_true, Bool.not_eq_true', decide_eq_true_eq]
      at hshown
    have hrevokes : revokes (some owner) id row.key = true := by
      simp [revokes, hid, hshown.1.2, hshown.2]
    rw [h.experts row hmem hrevokes] at hshown
    exact absurd hshown.1.1 (by decide)
  solutions := by
    intro row hrow hid
    obtain ⟨hmem, hlisted⟩ := List.mem_filter.mp hrow
    obtain ⟨hempty, htenant⟩ :=
      Retired.tenantless (h.solutions row hmem) hlisted hid
    exact ⟨hempty, mem_of_foreign huntouched.solutions hmem htenant⟩
  snapshots := by
    intro row hrow hid
    obtain ⟨hmem, hlisted⟩ := List.mem_filter.mp hrow
    obtain ⟨hempty, htenant⟩ :=
      Retired.tenantless (h.snapshots row hmem) hlisted hid
    exact ⟨hempty, mem_of_foreign huntouched.snapshots hmem htenant⟩

/-! ### Rejected rows -/

/-- The rows that a pull brings. -/
def Pull.keys (pull : Pull) : List ProjectionKey :=
  pull.experts.map LoadedExpertProjection.key ++
    pull.solutions.map LoadedSolutionProjection.key ++
    pull.snapshots.map FrozenSnapshot.key

theorem forEach_through {α : Type} {statement : α → Store → Option Store}
    {items : List α} (h : forEach statement items store = (written, true)) :
    ∀ item ∈ items, ∃ before next, statement item before = some next := by
  induction items generalizing store with
  | nil => exact fun _ hitem => absurd hitem List.not_mem_nil
  | cons first rest ih =>
      rw [forEach] at h
      split at h
      · next next hnext =>
          intro item hitem
          rcases List.mem_cons.mp hitem with rfl | hrest
          · exact ⟨store, next, hnext⟩
          · exact ih h item hrest
      · cases h

theorem encoded_rejected {accepts : Accepts}
    (h : ∀ json, accepts key json = false) (fields : Fields) :
    encoded accepts key fields = none := by
  rw [encoded]
  split
  · rw [h, if_neg Bool.false_ne_true]
  · rfl

/-- A sync throws when SQLite does not take one of its rows. -/
theorem replaceProjectionRows_throws {accepts : Accepts} {pull : Pull}
    {owner : Option Owner} {now : String} (hkey : key ∈ pull.keys)
    (h : ∀ json, accepts key json = false) :
    (replaceProjectionRows accepts store pull owner now).2 = none := by
  have hkinds : (∃ item ∈ pull.experts, item.key = key) ∨
      (∃ item ∈ pull.solutions, item.key = key) ∨
        ∃ item ∈ pull.snapshots, item.key = key := by
    simpa [Pull.keys, or_assoc] using hkey
  rw [replaceProjectionRows]
  split
  · rfl
  · next hexperts =>
      split
      · rfl
      · next hsolutions =>
          split
          · rfl
          · next hsnapshots =>
              -- all three loops went through
              exfalso
              rcases hkinds with ⟨item, hitem, rfl⟩ | ⟨item, hitem, rfl⟩ |
                ⟨item, hitem, rfl⟩
              · obtain ⟨_, _, hnext⟩ := forEach_through hexperts item hitem
                rw [upsertExpert, encoded_rejected h] at hnext
                cases hnext
              · obtain ⟨_, _, hnext⟩ := forEach_through hsolutions item hitem
                rw [upsertSolution, encoded_rejected h] at hnext
                cases hnext
              · obtain ⟨_, _, hnext⟩ := forEach_through hsnapshots item hitem
                rw [upsertSnapshot, encoded_rejected h] at hnext
                cases hnext

/-- Either the sync commits, and then no revoked id is shown to the owner but
by a tenant-less row of before while the rows of others are the same, or it
throws and nothing has changed; it throws when one of its rows is not taken. -/
theorem replaceProjections_revokes (accepts : Accepts) (store : Store)
    (pull : Pull) (owner : Owner) (now : String) (hpull : pull.isFor owner) :
    (match replaceProjections accepts store pull (some owner) now with
    | (after, some _) =>
        (∀ id ∈ pull.revokedIds, Hidden owner id store after) ∧
          Untouched owner store after
    | (after, none) => after = store) ∧
      ∀ key ∈ pull.keys, (∀ json, accepts key json = false) →
        replaceProjections accepts store pull (some owner) now =
          (store, none) := by
  constructor
  · rw [replaceProjections]
    rcases hrows : replaceProjectionRows accepts store pull (some owner) now
      with ⟨written, _ | result⟩
    · rfl
    · have huntouched := untouched_rows hpull hrows
      refine ⟨fun id hid => ?_, huntouched⟩
      obtain ⟨upserted, _, rfl⟩ := replaceProjectionRows_cases hrows
      exact (retired_foldl owner now hid upserted).hidden huntouched
  · intro key hkey hrejected
    have hthrows : (replaceProjectionRows accepts store pull (some owner)
        now).2 = none := replaceProjectionRows_throws hkey hrejected
    rw [replaceProjections]
    split
    · next hrows =>
        rw [hrows] at hthrows
        cases hthrows
    · rfl

namespace SyncWitness

def owner : Owner := ⟨"t1", "m1"⟩

def now : String := "2026-09-06T00:00:00Z"

def accepts : Accepts := fun _ _ => true

def expert (memberId : Option String) : LoadedExpertProjection where
  employeeId := "e1"
  tenantId := "t1"
  memberId := memberId
  version := "1"
  syncedAt := none
  rest := []

def snapshot (tenantId memberId : Option String) : FrozenSnapshot where
  employeeId := "e1"
  tenantId := tenantId
  memberId := memberId
  version := "1"
  snapshotVersion := "s1"
  rest := []

/-- A cache from before the rows had owners, and another member's rows. -/
def stored : Store :=
  (replaceProjections accepts ⟨[], [], []⟩
    ⟨[expert none, expert (some "m2")], [],
      [snapshot none none, snapshot (some "t1") (some "m2")], []⟩
    none now).1

/-- The employee is revoked in the pull that brings it. -/
def pull : Pull :=
  ⟨[expert (some "m1")], [], [snapshot (some "t1") (some "m1")], ["e1"]⟩

theorem pull_isFor : pull.isFor owner where
  experts := by decide
  solutions := by decide
  snapshots := by decide

end SyncWitness

open SyncWitness in
theorem replaceProjections_revokes_samePull :
    (match replaceProjections accepts stored pull (some owner) now with
    | (after, some _) =>
        (∀ id ∈ pull.revokedIds, Hidden owner id stored after) ∧
          Untouched owner stored after
    | (after, none) => after = stored) ∧
      replaceProjections (fun key _ => key.id ≠ "e1") stored pull (some owner)
        now = (stored, none) :=
  ⟨(replaceProjections_revokes accepts stored pull owner now pull_isFor).1,
    (replaceProjections_revokes _ stored pull owner now pull_isFor).2
      (expert (some "m1")).key (by decide) fun _ => by decide⟩

open SyncWitness in
/-- A snapshot without a tenant is shown to everyone and no sync takes it
away. -/
theorem tenantless_snapshot_stays :
    pull.isFor owner ∧ "e1" ∈ pull.revokedIds ∧
      (replaceProjections accepts stored pull (some owner) now).2.isSome ∧
      ∃ row ∈ listSnapshots
          (replaceProjections accepts stored pull (some owner) now).1 owner,
        row.key.id = "e1" := by
  refine ⟨pull_isFor, by decide, by decide, ?_⟩
  decide

end AiTeam.Projection
