/-
The rows of `hindsight_lease`: what they keep true, which row a search finds,
and what revocations and insertions do to both.
-/
import Mathlib.Data.List.Basic
import Mathlib.Data.List.MinMax
import AiTeam.Hindsight.LeaseStore

namespace AiTeam.Hindsight

variable {P : Type} {settings : Settings P}

/-! ### Positions -/

/-- Reading a list at the position of the first hit. -/
theorem findIdx_bind {α β : Type} (rows : List α) (hit : α → Bool)
    (view : α → β) :
    (rows.findIdx? hit).bind ((rows.map view)[·]?) =
      (rows.find? hit).map view := by
  induction rows with
  | nil => rfl
  | cons head tail ih =>
      rw [List.findIdx?_cons, List.find?_cons]
      cases hhead : hit head with
      | true => rfl
      | false =>
          simp only [Bool.false_eq_true, if_false, Option.bind_map]
          rw [← ih]
          rfl

/-- Changing the one row that is hit, seen at its position. -/
theorem modify_findIdx {α β : Type} {rows : List α} {hit : α → Bool}
    (view : α → β) {change : α → α} {changed : β → β}
    (hview : ∀ row, view (change row) = changed (view row))
    (honce : rows.Pairwise fun left right =>
      hit left = true → hit right = false) {index : Nat}
    (hindex : rows.findIdx? hit = some index) :
    (rows.map view).modify index changed =
      (updateWhere hit change rows).map view := by
  induction rows generalizing index with
  | nil => exact nomatch hindex
  | cons head tail ih =>
      rw [List.pairwise_cons] at honce
      rw [List.findIdx?_cons] at hindex
      rw [updateWhere_cons]
      cases hhead : hit head with
      | true =>
          rw [hhead, if_pos rfl] at hindex
          rw [← Option.some.inj hindex, if_pos rfl,
            updateWhere_of_forall change fun row hrow =>
              honce.1 row hrow hhead]
          simp [hview head]
      | false =>
          rw [hhead] at hindex
          simp only [Bool.false_eq_true, if_false, Option.map_eq_some_iff]
            at hindex
          obtain ⟨rest, hrest, rfl⟩ := hindex
          have hstep := ih honce.2 hrest
          simp only [List.map_cons, List.modify_succ_cons, hstep,
            Bool.false_eq_true, if_false]

/-- A search the change does not influence. -/
theorem findIdx_updateWhere {α : Type} (rows : List α) (hit : α → Bool)
    (guard : α → Bool) (change : α → α)
    (hsame : ∀ row, hit (change row) = hit row) :
    (updateWhere guard change rows).findIdx? hit = rows.findIdx? hit := by
  induction rows with
  | nil => rfl
  | cons head tail ih =>
      rw [updateWhere_cons, List.findIdx?_cons, List.findIdx?_cons, ih]
      cases guard head with
      | true => rw [if_pos rfl, hsame]
      | false => rw [if_neg Bool.false_ne_true]

/-- A search for what the changed row no longer is. -/
theorem findIdx_of_spoilt {α : Type} {rows : List α} {hit guard : α → Bool}
    {change : α → α} (hspoilt : ∀ row, hit (change row) = false)
    (hhit : rows.Pairwise fun left right =>
      hit left = true → hit right = false)
    (hguard : rows.Pairwise fun left right =>
      guard left = true → guard right = false) {index : Nat}
    (hindex : rows.findIdx? guard = some index) :
    (updateWhere guard change rows).findIdx? hit =
      if rows.findIdx? hit = some index then none else rows.findIdx? hit := by
  induction rows generalizing index with
  | nil => exact nomatch hindex
  | cons head tail ih =>
      rw [List.pairwise_cons] at hhit hguard
      rw [List.findIdx?_cons] at hindex
      rw [updateWhere_cons, List.findIdx?_cons, List.findIdx?_cons]
      cases hhead : guard head with
      | true =>
          rw [hhead, if_pos rfl] at hindex
          rw [← Option.some.inj hindex, if_pos rfl, hspoilt,
            updateWhere_of_forall change fun row hrow =>
              hguard.1 row hrow hhead]
          cases hfirst : hit head with
          | true =>
              have hnone : tail.findIdx? hit = none :=
                List.findIdx?_eq_none_iff.mpr fun row hrow =>
                  hhit.1 row hrow hfirst
              simp [hnone]
          | false => simp
      | false =>
          rw [hhead] at hindex
          simp only [Bool.false_eq_true, if_false, Option.map_eq_some_iff]
            at hindex
          obtain ⟨rest, hrest, rfl⟩ := hindex
          simp only [Bool.false_eq_true, if_false]
          cases hfirst : hit head with
          | true => simp
          | false =>
              rw [ih hhit.2 hguard.2 hrest]
              simp only [Bool.false_eq_true, if_false]
              cases tail.findIdx? hit with
              | none => rfl
              | some found => by_cases hfound : found = rest <;> simp [hfound]

theorem eq_of_key {α κ : Type} {rows : List α} {key : α → κ}
    (hkeys : rows.Pairwise fun left right => key left ≠ key right)
    {left right : α} (hleft : left ∈ rows) (hright : right ∈ rows)
    (hsame : key left = key right) : left = right := by
  have hall := List.Pairwise.forall_of_forall_of_flip
    (R := fun left right : α => key left = key right → left = right)
    (fun _ _ _ => rfl) (hkeys.imp fun hne heq => absurd heq hne)
    (hkeys.imp fun hne heq => absurd heq.symm hne)
  exact hall hleft hright hsame

/-! ### The rows -/

/-- What the rows keep true: an older lease of a scope has a smaller version
and is revoked, ids and digests are unique, and this process knows the token
of every lease. -/
structure Rows (settings : Settings P) (store : PgStore) : Prop where
  ordered : store.rows.Pairwise fun older newer =>
    older.stored.scope = newer.stored.scope →
      older.stored.version < newer.stored.version ∧
        older.stored.revokedAt.isSome
  ids : store.rows.Pairwise fun left right =>
    left.stored.leaseId ≠ right.stored.leaseId
  digests : store.rows.Pairwise fun left right =>
    left.tokenSha256 ≠ right.tokenSha256
  tokens : ∀ row ∈ store.rows, ∃ token, token ≠ "" ∧
    valueAt row.stored.leaseId store.rawTokens = some token ∧
    settings.tokenSha256 token = row.tokenSha256

/-- The row is unrevoked, for its scope. -/
def current (scope : Scope) (row : Row) : Bool :=
  row.stored.scope == scope && row.stored.revokedAt.isNone

variable {store : PgStore}

theorem Rows.current_once (h : Rows settings store) (scope : Scope) :
    store.rows.Pairwise fun left right =>
      current scope left = true → current scope right = false := by
  refine h.ordered.imp fun {older newer} hordered holder => ?_
  simp only [current, Bool.and_eq_true, beq_iff_eq, Option.isNone_iff_eq_none]
    at holder
  rw [current]
  by_contra hnewer
  simp only [Bool.not_eq_false, Bool.and_eq_true, beq_iff_eq] at hnewer
  have hrevoked := (hordered (holder.1.trans hnewer.1.symm)).2
  rw [holder.2] at hrevoked
  exact Bool.false_ne_true hrevoked

variable {rows : List Row} {row : Row} {scope : Scope}

/-- The newest row of a scope is its last one. -/
theorem newest_append_self
    (h : ∀ other ∈ rows, other.stored.scope = row.stored.scope →
      other.stored.version < row.stored.version) :
    PgStore.newest (rows ++ [row]) row.stored.scope = some row := by
  rw [PgStore.newest, List.find?_append]
  have hnone : rows.find? (fun found =>
      found.stored.scope == row.stored.scope && (rows ++ [row]).all fun other =>
        other.stored.scope != row.stored.scope ||
          decide (other.stored.version ≤ found.stored.version)) = none := by
    rw [List.find?_eq_none]
    intro found hfound hbest
    simp only [Bool.and_eq_true, beq_iff_eq, List.all_eq_true] at hbest
    have hlast := hbest.2 row (by simp)
    simp only [bne_self_eq_false, Bool.false_or, decide_eq_true_eq] at hlast
    have := h found hfound hbest.1
    omega
  rw [hnone, Option.none_or, List.find?_cons_of_pos]
  simp only [beq_self_eq_true, Bool.true_and, List.all_eq_true,
    List.mem_append, List.mem_singleton]
  rintro other (hother | rfl)
  · by_cases hscope : other.stored.scope = row.stored.scope
    · simp [hscope, Nat.le_of_lt (h other hother hscope)]
    · simp [hscope]
  · simp

theorem newest_append_other (hscope : row.stored.scope ≠ scope) :
    PgStore.newest (rows ++ [row]) scope = PgStore.newest rows scope := by
  have hall : ∀ found : Row, ((rows ++ [row]).all fun other =>
      other.stored.scope != scope ||
        decide (other.stored.version ≤ found.stored.version)) =
      rows.all fun other => other.stored.scope != scope ||
        decide (other.stored.version ≤ found.stored.version) := by
    intro found
    simp [List.all_append, hscope]
  rw [PgStore.newest, List.find?_append]
  simp only [hall]
  rw [List.find?_cons_of_neg (by simp [hscope]), List.find?_nil,
    Option.or_none]
  rfl

theorem newest_some (h : PgStore.newest rows scope = some row) :
    row ∈ rows ∧ row.stored.scope = scope ∧
      ∀ other ∈ rows, other.stored.scope = scope →
        other.stored.version ≤ row.stored.version := by
  have hbest := List.find?_some h
  simp only [Bool.and_eq_true, beq_iff_eq, List.all_eq_true] at hbest
  refine ⟨List.mem_of_find?_eq_some h, hbest.1, ?_⟩
  intro other hother hscope
  simpa [hscope] using hbest.2 other hother

theorem newest_none (h : PgStore.newest rows scope = none) :
    ∀ row ∈ rows, row.stored.scope ≠ scope := by
  intro row hrow hscope
  -- Among the rows of the scope one has the largest version.
  have hmem : row ∈ rows.filter (·.stored.scope == scope) :=
    List.mem_filter.mpr ⟨hrow, by simp [hscope]⟩
  cases hbest : (rows.filter (·.stored.scope == scope)).argmax
      (·.stored.version) with
  | none =>
      rw [List.argmax_eq_none.mp hbest] at hmem
      exact nomatch hmem
  | some best =>
      have hfound := List.mem_filter.mp (List.argmax_mem hbest)
      refine List.find?_eq_none.mp h best hfound.1 ?_
      rw [hfound.2, Bool.true_and, List.all_eq_true]
      intro other hother
      by_cases hsame : other.stored.scope = scope
      · have hle := List.le_of_mem_argmax
          (List.mem_filter.mpr ⟨hother, by simp [hsame]⟩) hbest
        simp [hle]
      · simp [hsame]

/-- Of two rows that are not the same one is the older. -/
theorem Rows.comparable (h : Rows settings store) {left right : Row}
    (hleft : left ∈ store.rows) (hright : right ∈ store.rows)
    (hscope : left.stored.scope = right.stored.scope) :
    left = right ∨
      (left.stored.version < right.stored.version ∧
        left.stored.revokedAt.isSome) ∨
      (right.stored.version < left.stored.version ∧
        right.stored.revokedAt.isSome) := by
  have hall := List.Pairwise.forall_of_forall_of_flip
    (R := fun left right : Row => left.stored.scope = right.stored.scope →
      left = right ∨
        (left.stored.version < right.stored.version ∧
          left.stored.revokedAt.isSome) ∨
        (right.stored.version < left.stored.version ∧
          right.stored.revokedAt.isSome))
    (fun row _ _ => .inl rfl)
    (h.ordered.imp fun hordered hsame => .inr (.inl (hordered hsame)))
    (h.ordered.imp fun hordered hsame => .inr (.inr (hordered hsame.symm)))
  exact hall hleft hright hscope

/-- The unrevoked row of a scope is its newest one, if that is unrevoked. -/
theorem Rows.find_current (h : Rows settings store) (scope : Scope) :
    store.rows.find? (current scope) =
      (PgStore.newest store.rows scope).filter
        (·.stored.revokedAt.isNone) := by
  cases hnewest : PgStore.newest store.rows scope with
  | none =>
      rw [Option.filter_none, List.find?_eq_none]
      intro row hrow
      simp [current, newest_none hnewest row hrow]
  | some row =>
      obtain ⟨hrow, hscope, hbest⟩ := newest_some hnewest
      have honly : ∀ other ∈ store.rows, current scope other = true →
          other = row := by
        intro other hother hcurrent
        simp only [current, Bool.and_eq_true, beq_iff_eq,
          Option.isNone_iff_eq_none] at hcurrent
        rcases h.comparable hother hrow (hcurrent.1.trans hscope.symm) with
          heq | ⟨-, hrevoked⟩ | ⟨hless, -⟩
        · exact heq
        · simp [hcurrent.2] at hrevoked
        · have := hbest other hother hcurrent.1
          omega
      cases hrevoked : row.stored.revokedAt with
      | none =>
          have hcurrent : current scope row = true := by
            simp [current, hscope, hrevoked]
          rw [Option.filter_some_pos (by simp [hrevoked])]
          cases hfound : store.rows.find? (current scope) with
          | none =>
              exact absurd hcurrent (List.find?_eq_none.mp hfound row hrow)
          | some found =>
              rw [honly found (List.mem_of_find?_eq_some hfound)
                (List.find?_some hfound)]
      | some time =>
          rw [Option.filter_some_neg (by simp [hrevoked]),
            List.find?_eq_none]
          intro other hother hcurrent
          have heq := honly other hother hcurrent
          simp [current, heq, hrevoked] at hcurrent

/-! ### Revocations of rows -/

/-- What a revocation makes of a row. -/
def revokeRow (now : Int) (row : Row) : Row :=
  { row with stored := { row.stored with
      revokedAt := row.stored.revokedAt.or (some now) } }

theorem revokeWhere_eq (guard : Row → Bool) (now : Int) (rows : List Row) :
    PgStore.revokeWhere guard now rows =
      updateWhere guard (revokeRow now) rows := rfl

theorem revokeRow_revoked (now : Int) (row : Row) :
    (revokeRow now row).stored.revokedAt.isSome = true := by
  cases hrevoked : row.stored.revokedAt <;> simp [revokeRow, hrevoked]

theorem current_revokeRow (scope : Scope) (now : Int) (row : Row) :
    current scope (revokeRow now row) = false := by
  have hrevoked := revokeRow_revoked now row
  rw [current, Option.isNone_eq_false_iff.mpr hrevoked, Bool.and_false]

theorem newest_revokeWhere (guard : Row → Bool) (now : Int) (rows : List Row)
    (scope : Scope) :
    PgStore.newest (PgStore.revokeWhere guard now rows) scope =
      (PgStore.newest rows scope).map fun row =>
        if guard row then revokeRow now row else row := by
  rw [revokeWhere_eq, updateWhere, PgStore.newest, List.find?_map]
  congr 1
  refine congrArg (fun hit => rows.find? hit) (funext fun row => ?_)
  have hscope : ∀ other : Row,
      (if guard other then revokeRow now other else other).stored.scope =
        other.stored.scope := by
    intro other
    split <;> rfl
  have hversion : ∀ other : Row,
      (if guard other then revokeRow now other else other).stored.version =
        other.stored.version := by
    intro other
    split <;> rfl
  simp only [Function.comp_def, List.all_map, hscope, hversion]

/-- A revocation keeps what the rows keep true. -/
theorem Rows.revokeWhere (h : Rows settings store) (guard : Row → Bool)
    (now : Int) :
    Rows settings
      { store with rows := PgStore.revokeWhere guard now store.rows } where
  ordered := by
    refine List.Pairwise.map _ (fun older newer hordered => ?_) h.ordered
    intro hscope
    have hkept : ∀ row : Row, row.stored.revokedAt.isSome →
        (if guard row then revokeRow now row else row).stored.revokedAt.isSome
        := by
      intro row hrow
      split
      · exact revokeRow_revoked now row
      · exact hrow
    have hpair := hordered (by
      revert hscope
      cases guard older <;> cases guard newer <;> exact id)
    refine ⟨?_, hkept older hpair.2⟩
    cases guard older <;> cases guard newer <;> exact hpair.1
  ids := by
    refine List.Pairwise.map _ (fun left right hne => ?_) h.ids
    cases guard left <;> cases guard right <;> exact hne
  digests := by
    refine List.Pairwise.map _ (fun left right hne => ?_) h.digests
    cases guard left <;> cases guard right <;> exact hne
  tokens := by
    intro row hrow
    obtain ⟨old, hold, rfl⟩ := List.mem_map.mp hrow
    obtain ⟨token, htoken⟩ := h.tokens old hold
    refine ⟨token, ?_⟩
    cases guard old <;> exact htoken

/-- The row's id and digest are new, and it supersedes its whole scope. -/
def Above (rows : List Row) (row : Row) : Prop :=
  ∀ other ∈ rows, other.stored.leaseId ≠ row.stored.leaseId ∧
    other.tokenSha256 ≠ row.tokenSha256 ∧
    (other.stored.scope = row.stored.scope →
      other.stored.version < row.stored.version ∧
        other.stored.revokedAt.isSome)

theorem Rows.append {raw : List (String × String)}
    (h : Rows settings ⟨rows, raw⟩) {token : String} (habove : Above rows row)
    (hnonempty : token ≠ "")
    (htoken : settings.tokenSha256 token = row.tokenSha256) :
    Rows settings ⟨rows ++ [row], assign row.stored.leaseId token raw⟩ where
  ordered := by
    rw [List.pairwise_append]
    refine ⟨h.ordered, List.pairwise_singleton _ _, ?_⟩
    intro older holder newer hnew
    rw [List.mem_singleton.mp hnew]
    exact (habove older holder).2.2
  ids := by
    rw [List.pairwise_append]
    refine ⟨h.ids, List.pairwise_singleton _ _, ?_⟩
    intro left hleft right hright
    rw [List.mem_singleton.mp hright]
    exact (habove left hleft).1
  digests := by
    rw [List.pairwise_append]
    refine ⟨h.digests, List.pairwise_singleton _ _, ?_⟩
    intro left hleft right hright
    rw [List.mem_singleton.mp hright]
    exact (habove left hleft).2.1
  tokens := by
    intro other hother
    rcases List.mem_append.mp hother with hold | hnew
    · obtain ⟨known, hknown, hvalue, hsha⟩ := h.tokens other hold
      refine ⟨known, hknown, ?_, hsha⟩
      rw [valueAt_assign, if_neg (habove other hold).1]
      exact hvalue
    · rw [List.mem_singleton.mp hnew]
      refine ⟨token, hnonempty, ?_, htoken⟩
      rw [valueAt_assign, if_pos rfl]

end AiTeam.Hindsight
