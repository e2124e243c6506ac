/-
The two lease stores answer alike, at most one lease of a scope is active, and
a token that stopped being accepted stays rejected.
-/
import AiTeam.Hindsight.Rows

namespace AiTeam.Hindsight

variable {P : Type} {settings : Settings P}

/-! ### The maps against the rows -/

/-- The maps of the memory store, read off the rows. -/
structure Agrees (pg : PgStore) (memory : MemoryStore) : Prop where
  objects : memory.objects = pg.rows.map pg.leaseOf
  byId : ∀ leaseId, valueAt leaseId memory.byId =
    pg.rows.findIdx? (·.stored.leaseId == leaseId)
  byTokenHash : ∀ digest, valueAt digest memory.byTokenHash =
    pg.rows.findIdx? (·.tokenSha256 == digest)
  active : ∀ scope, valueAt scope memory.activeByScope =
    pg.rows.findIdx? (current scope)
  versions : ∀ scope, valueAt scope memory.versions =
    (PgStore.newest pg.rows scope).map (·.stored.version)

variable {pg : PgStore} {memory : MemoryStore}

theorem Agrees.deref (h : Agrees pg memory) (hit : Row → Bool) :
    memory.deref (pg.rows.findIdx? hit) =
      (pg.rows.find? hit).map pg.leaseOf := by
  rw [MemoryStore.deref, h.objects]
  exact findIdx_bind pg.rows hit pg.leaseOf

/-- One row is revoked on both sides. -/
theorem Agrees.revoke (h : Agrees pg memory) (hrows : Rows settings pg)
    {guard : Row → Bool} (honce : pg.rows.Pairwise fun left right =>
      guard left = true → guard right = false) {index : Nat}
    (hindex : pg.rows.findIdx? guard = some index) (now : Int)
    {active : List (Scope × Nat)}
    (hactive : ∀ scope, valueAt scope active =
      if pg.rows.findIdx? (current scope) = some index then none
        else pg.rows.findIdx? (current scope)) :
    Agrees { pg with rows := PgStore.revokeWhere guard now pg.rows }
      { memory with
        objects := MemoryStore.markRevoked memory.objects index now
        activeByScope := active } where
  objects := by
    rw [MemoryStore.markRevoked, h.objects, revokeWhere_eq]
    exact modify_findIdx pg.leaseOf (fun row => rfl) honce hindex
  byId := by
    intro leaseId
    rw [h.byId leaseId, revokeWhere_eq]
    exact (findIdx_updateWhere pg.rows _ guard (revokeRow now)
      fun row => rfl).symm
  byTokenHash := by
    intro digest
    rw [h.byTokenHash digest, revokeWhere_eq]
    exact (findIdx_updateWhere pg.rows _ guard (revokeRow now)
      fun row => rfl).symm
  active := by
    intro scope
    rw [hactive scope, revokeWhere_eq]
    exact (findIdx_of_spoilt (current_revokeRow scope now)
      (hrows.current_once scope) honce hindex).symm
  versions := by
    intro scope
    rw [h.versions scope, newest_revokeWhere, Option.map_map]
    refine congrArg (Option.map · _) (funext fun row => ?_)
    rw [Function.comp_apply]
    split <;> rfl

/-- No row qualifies for the revocation. -/
theorem Agrees.revoke_none (h : Agrees pg memory) {guard : Row → Bool}
    (hnone : pg.rows.findIdx? guard = none) (now : Int) :
    Agrees { pg with rows := PgStore.revokeWhere guard now pg.rows }
      memory := by
  have hrows : PgStore.revokeWhere guard now pg.rows = pg.rows :=
    updateWhere_of_forall _ (List.findIdx?_eq_none_iff.mp hnone)
  rw [hrows]
  exact h

variable {rows : List Row} {row : Row} {hit : Row → Bool} {now time : Int}
  {token leaseId digest : String}

theorem findIdx_append_fresh
    (hfresh : hit row = true → ∀ other ∈ rows, hit other = false) :
    (rows ++ [row]).findIdx? hit =
      if hit row then some rows.length else rows.findIdx? hit := by
  rw [List.findIdx?_append]
  cases hrow : hit row with
  | true =>
      rw [List.findIdx?_eq_none_iff.mpr (hfresh hrow)]
      simp [List.findIdx?_cons, hrow]
  | false => simp [List.findIdx?_cons, hrow]

/-- A new lease on both sides. -/
theorem Agrees.append (h : Agrees pg memory) (habove : Above pg.rows row)
    (token : String) (hunrevoked : row.stored.revokedAt = none)
    {active : List (Scope × Nat)}
    (hactive : ∀ scope, valueAt scope active =
      if scope = row.stored.scope then some memory.objects.length
        else valueAt scope memory.activeByScope) :
    Agrees ⟨pg.rows ++ [row], assign row.stored.leaseId token pg.rawTokens⟩
      { objects := memory.objects ++ [{ row.stored with token }]
        byTokenHash := assign row.tokenSha256 memory.objects.length
          memory.byTokenHash
        byId := assign row.stored.leaseId memory.objects.length memory.byId
        activeByScope := active
        versions := assign row.stored.scope row.stored.version
          memory.versions } := by
  have hlength : memory.objects.length = pg.rows.length := by
    rw [h.objects, List.length_map]
  refine ⟨?_, ?_, ?_, ?_, ?_⟩
  · simp only [List.map_append, List.map_cons, List.map_nil, h.objects]
    congr 1
    · refine List.map_congr_left fun other hother => ?_
      simp only [PgStore.leaseOf]
      rw [valueAt_assign, if_neg (habove other hother).1]
    · simp only [PgStore.leaseOf]
      rw [valueAt_assign, if_pos rfl, Option.getD_some]
  · intro leaseId
    simp only [valueAt_assign, h.byId leaseId, hlength]
    rw [findIdx_append_fresh]
    · simp only [beq_iff_eq, @eq_comm _ row.stored.leaseId]
    · intro hrow other hother
      rw [← eq_of_beq hrow]
      simpa using (habove other hother).1
  · intro digest
    simp only [valueAt_assign, h.byTokenHash digest, hlength]
    rw [findIdx_append_fresh]
    · simp only [beq_iff_eq, @eq_comm _ row.tokenSha256]
    · intro hrow other hother
      rw [← eq_of_beq hrow]
      simpa using (habove other hother).2.1
  · intro scope
    simp only [hactive scope, h.active scope, hlength]
    have hcurrent : current scope row = decide (scope = row.stored.scope) := by
      rw [current, hunrevoked, Option.isNone_none, Bool.and_true,
        beq_eq_decide]
      exact decide_eq_decide.mpr eq_comm
    rw [findIdx_append_fresh, hcurrent]
    · simp only [decide_eq_true_eq]
    · intro hrow other hother
      rw [hcurrent, decide_eq_true_eq] at hrow
      by_contra hother'
      simp only [Bool.not_eq_false, current, Bool.and_eq_true, beq_iff_eq,
        Option.isNone_iff_eq_none] at hother'
      have hrevoked := ((habove other hother).2.2 (hother'.1.trans hrow)).2
      rw [hother'.2] at hrevoked
      exact Bool.false_ne_true hrevoked
  · intro scope
    simp only [valueAt_assign, h.versions scope]
    by_cases hscope : scope = row.stored.scope
    · rw [if_pos hscope, hscope, newest_append_self fun other hother hsame =>
        ((habove other hother).2.2 hsame).1]
      rfl
    · rw [if_neg hscope, newest_append_other (Ne.symm hscope)]

/-! ### The operations -/

/-- The factories never repeat a lease id or a token and never give an empty
token; a derived bank id is never empty. -/
def Fresh (settings : Settings P) (store : PgStore) : Operation P → Prop
  | .issue request _ token leaseId =>
      request.bankId ≠ "" ∧ token ≠ "" ∧ ∀ row ∈ store.rows,
        row.stored.leaseId ≠ leaseId ∧
          row.tokenSha256 ≠ settings.tokenSha256 token
  | _ => True

instance (settings : Settings P) (store : PgStore) :
    (operation : Operation P) → Decidable (Fresh settings store operation)
  | .issue _ _ _ _ => inferInstanceAs (Decidable (_ ∧ _ ∧ _))
  | .get _ => isTrue trivial
  | .revoke _ _ _ => isTrue trivial
  | .revokeScope _ _ => isTrue trivial
  | .resolve _ _ _ => isTrue trivial

/-- What the stores ask of a call: its arguments stand as the columns keep
them, and an issue has a policy whose revision reads as an integer and a lease
the columns hold, with a version to spare. -/
def Careful (settings : Settings P) (store : PgStore)
    (operation : Operation P) : Prop :=
  operation.stored settings = some operation ∧
    match operation with
    | .issue request now token leaseId =>
        (∃ revision ∈ settings.policyRevision request.policy,
          (newLease settings request revision 1 now token leaseId).storable) ∧
          ∀ row ∈ store.rows, row.stored.scope = request.scope →
            row.stored.version < 2147483647
    | _ => True

instance [DecidableEq P] (settings : Settings P) (store : PgStore) :
    (operation : Operation P) → Decidable (Careful settings store operation)
  | .issue _ _ _ _ => inferInstanceAs (Decidable (_ ∧ _ ∧ _))
  | .get _ => inferInstanceAs (Decidable (_ ∧ True))
  | .revoke _ _ _ => inferInstanceAs (Decidable (_ ∧ True))
  | .revokeScope _ _ => inferInstanceAs (Decidable (_ ∧ True))
  | .resolve _ _ _ => inferInstanceAs (Decidable (_ ∧ True))

/-- Both sides after an operation, with the same answer. -/
def Together (settings : Settings P) (left : PgStore × Response)
    (right : MemoryStore × Response) : Prop :=
  Rows settings left.1 ∧ Agrees left.1 right.1 ∧ left.2 = right.2

/-- The row an issue inserts. -/
def newRow (settings : Settings P) (request : IssueRequest P) (revision : Int)
    (version : Nat) (now : Int) (token leaseId : String) : Row :=
  ⟨settings.tokenSha256 token,
    { newLease settings request revision version now token leaseId with
      token := "" }⟩

section Issue

variable {request : IssueRequest P} {revision now : Int}
  {token leaseId : String}

theorem rotate_accepted
    (hrevision : settings.policyRevision request.policy = some revision)
    {version : Nat}
    (h : PgStore.refuses rows
      (newRow settings request revision version now token leaseId) = false) :
    pg.rotate settings request now token leaseId rows version =
      (⟨rows ++ [newRow settings request revision version now token leaseId],
        assign leaseId token pg.rawTokens⟩,
        .lease (some
          (newLease settings request revision version now token leaseId))) := by
  rw [PgStore.rotate, hrevision]
  exact if_neg fun hrefused => Bool.false_ne_true (h.symm.trans hrefused)

/-- A lease the columns hold stays one under another version they hold. -/
theorem storable_version {version : Nat} (hversion : version ≤ 2147483647)
    (h : (newLease settings request revision 1 now token leaseId).storable) :
    (newLease settings request revision version now token
      leaseId).storable := by
  simp only [Lease.storable, newLease, Bool.and_eq_true] at h ⊢
  exact ⟨⟨h.1.1, decide_eq_true hversion⟩, h.2⟩

theorem above_newRow
    (hunused : ∀ row ∈ rows, row.stored.leaseId ≠ leaseId ∧
      row.tokenSha256 ≠ settings.tokenSha256 token) {version : Nat}
    (hversion : ∀ row ∈ rows, row.stored.scope = request.scope →
      row.stored.version < version) :
    Above (PgStore.revokeWhere (current request.scope) now rows)
      (newRow settings request revision version now token leaseId) := by
  intro row hrow
  obtain ⟨old, hmem, rfl⟩ := List.mem_map.mp hrow
  have hbefore := hunused old hmem
  have hless := hversion old hmem
  cases hcurrent : current request.scope old with
  | true =>
      exact ⟨hbefore.1, hbefore.2, fun hscope =>
        ⟨hless hscope, revokeRow_revoked now old⟩⟩
  | false =>
      refine ⟨hbefore.1, hbefore.2, fun hscope => ⟨hless hscope, ?_⟩⟩
      -- A row of the scope that is not current was revoked before.
      have hsame : old.stored.scope = request.scope := hscope
      rw [current, hsame, beq_self_eq_true, Bool.true_and] at hcurrent
      exact Option.isNone_eq_false_iff.mp hcurrent

end Issue

theorem Above.accepted (h : Above rows row) (hstorable : row.stored.storable)
    (hbank : row.stored.bankId ≠ "") : PgStore.refuses rows row = false := by
  rw [PgStore.refuses, hstorable, beq_false_of_ne hbank, Bool.not_true,
    Bool.false_or, Bool.false_or]
  rw [List.any_eq_false]
  intro other hother hclash
  obtain ⟨hid, hdigest, hscope⟩ := h other hother
  simp only [Bool.or_eq_true, beq_iff_eq, Bool.and_eq_true,
    Option.isNone_iff_eq_none] at hclash
  rcases hclash with (hsame | hsame) | ⟨hsame, hopen⟩
  · exact hid hsame
  · exact hdigest hsame
  · have hrevoked := (hscope hsame).2
    rw [hopen] at hrevoked
    exact Bool.false_ne_true hrevoked

/-- The row at a position is current in its own scope only. -/
theorem current_at {scope other : Scope} {index : Nat}
    (hhit : ∀ row, hit row = true → row.stored.scope = scope)
    (hindex : rows.findIdx? hit = some index)
    (hother : rows.findIdx? (current other) = some index) : other = scope := by
  obtain ⟨_, hfirst, -⟩ := List.findIdx?_eq_some_iff_getElem.mp hindex
  obtain ⟨_, hsecond, -⟩ := List.findIdx?_eq_some_iff_getElem.mp hother
  rw [current, Bool.and_eq_true, beq_iff_eq] at hsecond
  exact hsecond.1.symm.trans (hhit _ hfirst)

theorem scope_of_current {scope : Scope} (h : current scope row = true) :
    row.stored.scope = scope := by
  rw [current, Bool.and_eq_true, beq_iff_eq] at h
  exact h.1

/-- What `issue` does first on both sides: the current lease of the scope is
revoked; its entry among the active ones is about to be replaced. -/
theorem Agrees.revoke_current (h : Agrees pg memory)
    (hrows : Rows settings pg) (scope : Scope) (now : Int) :
    Agrees
      { pg with rows := PgStore.revokeWhere (current scope) now pg.rows }
      { memory with
        objects := match valueAt scope memory.activeByScope with
          | some current => MemoryStore.markRevoked memory.objects current now
          | none => memory.objects
        activeByScope := discard scope memory.activeByScope } := by
  have hdiscard : ∀ other,
      valueAt other (discard scope memory.activeByScope) =
        if other = scope then none else pg.rows.findIdx? (current other) := by
    intro other
    rw [valueAt_discard, h.active other]
  cases hreference : valueAt scope memory.activeByScope with
  | none =>
      have hnone := (h.active scope).symm.trans hreference
      have hkept := h.revoke_none hnone now
      refine { hkept with active := fun other => ?_ }
      rw [hdiscard other, ← hkept.active other, h.active other]
      by_cases hother : other = scope
      · rw [if_pos hother, hother, hnone]
      · rw [if_neg hother]
  | some index =>
      have hsome := (h.active scope).symm.trans hreference
      refine h.revoke hrows (hrows.current_once scope) hsome now
        fun other => ?_
      rw [hdiscard other]
      by_cases hother : other = scope
      · rw [if_pos hother, hother, hsome, if_pos rfl]
      · rw [if_neg hother, if_neg fun hsame =>
          hother (current_at (fun _ => scope_of_current) hsome hsame)]

/-- The new lease replaces whatever was current in its scope. -/
theorem rotate_together (hrows : Rows settings pg) (h : Agrees pg memory)
    {request : IssueRequest P}
    (hfresh : Fresh settings pg (.issue request now token leaseId))
    {revision : Int}
    (hrevision : settings.policyRevision request.policy = some revision)
    (hstale : (memory.deref
      (valueAt request.scope memory.activeByScope)).filter
        (reusable settings request now) = none) {version : Nat}
    (hstorable : (newLease settings request revision version now token
      leaseId).storable)
    (hversion : ∀ row ∈ pg.rows, row.stored.scope = request.scope →
      row.stored.version < version)
    (hcounter : (valueAt request.scope memory.versions).getD 0 + 1 =
      version) :
    Together settings
      (pg.rotate settings request now token leaseId
        (PgStore.revokeWhere (current request.scope) now pg.rows) version)
      (memory.issue settings request now token leaseId) := by
  obtain ⟨hbank, htoken, hunused⟩ := hfresh
  have habove : Above
      (PgStore.revokeWhere (current request.scope) now pg.rows)
      (newRow settings request revision version now token leaseId) :=
    above_newRow hunused hversion
  have hrevoked := h.revoke_current hrows request.scope now
  rw [rotate_accepted hrevision (habove.accepted hstorable hbank),
    MemoryStore.issue, hstale, hcounter]
  simp only [hrevision]
  refine ⟨?_, ?_, rfl⟩
  · exact (hrows.revokeWhere _ now).append habove htoken rfl
  · refine hrevoked.append habove token rfl fun scope => ?_
    simp only [valueAt_assign, valueAt_discard]
    by_cases hscope : scope = request.scope
    · rw [if_pos hscope]
      exact (if_pos hscope).symm
    · rw [if_neg hscope, if_neg hscope]
      exact (if_neg hscope).symm

theorem leaseOf_token_ne (hrows : Rows settings pg) (hrow : row ∈ pg.rows) :
    (pg.leaseOf row).token ≠ "" := by
  obtain ⟨token, hne, hvalue, -⟩ := hrows.tokens row hrow
  simpa [PgStore.leaseOf, hvalue] using hne

theorem leaseOf_token_sha (hrows : Rows settings pg) (hrow : row ∈ pg.rows) :
    settings.tokenSha256 (pg.leaseOf row).token = row.tokenSha256 := by
  obtain ⟨token, -, hvalue, hsha⟩ := hrows.tokens row hrow
  simpa [PgStore.leaseOf, hvalue] using hsha

theorem unrevoked_of_reusable {request : IssueRequest P} {lease : Lease}
    (h : reusable settings request now lease = true) :
    lease.revokedAt = none := by
  simp only [reusable, Lease.active, Bool.and_eq_true,
    Option.isNone_iff_eq_none] at h
  exact h.1.1.1.1.1

/-- The guard of `issue` on the newest row picks the current one. -/
theorem revokeWhere_newest (hrows : Rows settings pg) {scope : Scope}
    (hnewest : PgStore.newest pg.rows scope = some row) (now : Int) :
    PgStore.revokeWhere (fun other =>
        other.stored.leaseId == (pg.leaseOf row).leaseId &&
          other.stored.revokedAt.isNone) now pg.rows =
      PgStore.revokeWhere (current scope) now pg.rows := by
  obtain ⟨hrow, hscope, hbest⟩ := newest_some hnewest
  refine updateWhere_congr _ fun other hother => ?_
  have hid : other.stored.leaseId = row.stored.leaseId → other = row :=
    eq_of_key hrows.ids hother hrow
  rw [current, Bool.eq_iff_iff]
  simp only [Bool.and_eq_true, beq_iff_eq, Option.isNone_iff_eq_none]
  constructor
  · rintro ⟨hsame, hopen⟩
    exact ⟨hid hsame ▸ hscope, hopen⟩
  · rintro ⟨hsame, hopen⟩
    refine ⟨?_, hopen⟩
    rcases hrows.comparable hother hrow (hsame.trans hscope.symm) with
      heq | ⟨-, hrevoked⟩ | ⟨hless, -⟩
    · rw [heq]
      rfl
    · rw [hopen] at hrevoked
      exact absurd hrevoked Bool.false_ne_true
    · have := hbest other hother hsame
      omega

theorem issue_together (hrows : Rows settings pg) (h : Agrees pg memory)
    {request : IssueRequest P}
    (hfresh : Fresh settings pg (.issue request now token leaseId))
    (hcareful : Careful settings pg (.issue request now token leaseId)) :
    Together settings (pg.issue settings request now token leaseId)
      (memory.issue settings request now token leaseId) := by
  obtain ⟨-, ⟨revision, hrevision, hstorable⟩, hspare⟩ := hcareful
  have hactive : memory.deref (valueAt request.scope memory.activeByScope) =
      ((PgStore.newest pg.rows request.scope).filter
        (·.stored.revokedAt.isNone)).map pg.leaseOf := by
    rw [h.active, h.deref, hrows.find_current]
  have hcount := h.versions request.scope
  cases hnewest : PgStore.newest pg.rows request.scope with
  | none =>
      rw [hnewest] at hactive hcount
      have hscope := newest_none hnewest
      have hrotated : Together settings
          (pg.rotate settings request now token leaseId
            (PgStore.revokeWhere (current request.scope) now pg.rows) 1) _ :=
        rotate_together hrows h hfresh hrevision (by rw [hactive]; rfl)
          hstorable (fun row hrow hsame => absurd hsame (hscope row hrow))
          (by rw [hcount]; rfl)
      have hnothing : PgStore.revokeWhere (current request.scope) now pg.rows =
          pg.rows := updateWhere_of_forall _ fun row hrow => by
        simp [current, hscope row hrow]
      rw [hnothing] at hrotated
      rw [PgStore.issue, hnewest]
      exact hrotated
  | some row =>
      rw [hnewest] at hactive hcount
      obtain ⟨hrow, hscope, hbest⟩ := newest_some hnewest
      rw [PgStore.issue, hnewest]
      simp only
      cases hreuse : reusable settings request now (pg.leaseOf row) with
      | true =>
          have hopen : row.stored.revokedAt = none :=
            unrevoked_of_reusable hreuse
          rw [Option.filter_some_pos (by simp [hopen])] at hactive
          have htoken : ((pg.leaseOf row).token != "") = true := by
            simpa using leaseOf_token_ne hrows hrow
          rw [htoken, Bool.and_true, if_pos rfl, MemoryStore.issue, hactive,
            Option.map_some, Option.filter_some_pos hreuse]
          exact ⟨hrows, h, rfl⟩
      | false =>
          rw [Bool.false_and, if_neg Bool.false_ne_true,
            revokeWhere_newest hrows hnewest]
          refine rotate_together hrows h hfresh hrevision ?_
            (storable_version (hspare row hrow hscope) hstorable) ?_ ?_
          · rw [hactive]
            cases hopen : row.stored.revokedAt.isNone with
            | true => simp [hreuse]
            | false => simp [Option.filter_some, hopen]
          · intro other hother hsame
            exact Nat.lt_succ_of_le (hbest other hother hsame)
          · rw [hcount]
            rfl

theorem id_once (hrows : Rows settings pg) (leaseId : String)
    (also : Row → Bool) :
    pg.rows.Pairwise fun left right =>
      (left.stored.leaseId == leaseId && also left) = true →
        (right.stored.leaseId == leaseId && also right) = false := by
  refine hrows.ids.imp fun {left right} hne hleft => ?_
  rw [Bool.and_eq_true, beq_iff_eq] at hleft
  rw [beq_false_of_ne fun hright => hne (hleft.1.trans hright.symm),
    Bool.false_and]

/-- The answer to a revocation of the row at a position. -/
theorem find_revoked (pg : PgStore) (guard : Row → Bool) (now : Int)
    (hkept : ∀ row, guard (revokeRow now row) = guard row) :
    ((PgStore.revokeWhere guard now pg.rows).find? guard).map pg.leaseOf =
      ((pg.rows.find? guard).map pg.leaseOf).map fun lease =>
        { lease with revokedAt := lease.revokedAt.or (some now) } := by
  have hsame : (guard ∘ fun row =>
      if guard row then revokeRow now row else row) = guard := by
    funext row
    rw [Function.comp_apply]
    cases hguard : guard row with
    | true => rw [if_pos rfl, hkept, hguard]
    | false => rw [if_neg Bool.false_ne_true, hguard]
  rw [revokeWhere_eq, updateWhere, List.find?_map, hsame]
  cases hfound : pg.rows.find? guard with
  | none => rfl
  | some row =>
      rw [Option.map_some, Option.map_some, Option.map_some,
        if_pos (List.find?_some hfound)]
      rfl

theorem markRevoked_at (objects : List Lease) (index : Nat) (now : Int) :
    (MemoryStore.markRevoked objects index now)[index]? =
      objects[index]?.map fun lease =>
        { lease with revokedAt := lease.revokedAt.or (some now) } := by
  rw [MemoryStore.markRevoked, List.getElem?_modify_eq]
  rfl

theorem revokeScope_together (hrows : Rows settings pg)
    (h : Agrees pg memory) (scope : Scope) (now : Int) :
    Together settings (pg.revokeScope scope now)
      (memory.revokeScope scope now) := by
  have hafter := h.revoke_current hrows scope now
  have hderef := h.deref (current scope)
  rw [← h.active] at hderef
  rw [PgStore.revokeScope, MemoryStore.revokeScope]
  refine ⟨hrows.revokeWhere (current scope) now, ?_, ?_⟩
  · cases hreference : valueAt scope memory.activeByScope with
    | none =>
        have hnone := (h.active scope).symm.trans hreference
        exact h.revoke_none hnone now
    | some index =>
        rw [hreference] at hafter
        exact hafter
  · cases hreference : valueAt scope memory.activeByScope with
    | none =>
        rw [hreference] at hderef
        have hnone : pg.rows.find? (current scope) = none :=
          Option.map_eq_none_iff.mp hderef.symm
        exact congrArg Response.lease (congrArg (Option.map _) hnone)
    | some index =>
        rw [hreference, MemoryStore.deref, Option.bind_some] at hderef
        simp only [markRevoked_at, hderef]
        refine congrArg Response.lease ?_
        change (pg.rows.find? (current scope)).map _ = _
        cases hfound : pg.rows.find? (current scope) with
        | none => rfl
        | some row =>
            have hopen := List.find?_some hfound
            simp only [current, Bool.and_eq_true, Option.isNone_iff_eq_none]
              at hopen
            simp [PgStore.leaseOf, hopen.2]

/-- A search by id and one thing more about the row found by its id. -/
theorem find_and (leaseId : String) (also : Row → Bool)
    (hids : rows.Pairwise fun left right =>
      left.stored.leaseId ≠ right.stored.leaseId) :
    (rows.find? fun row => row.stored.leaseId == leaseId && also row) =
        (rows.find? (·.stored.leaseId == leaseId)).filter also ∧
      (rows.findIdx? fun row => row.stored.leaseId == leaseId && also row) =
        if (rows.find? (·.stored.leaseId == leaseId)).any also
          then rows.findIdx? (·.stored.leaseId == leaseId) else none := by
  induction rows with
  | nil => exact ⟨rfl, rfl⟩
  | cons head tail ih =>
      rw [List.pairwise_cons] at hids
      obtain ⟨hfind, hindex⟩ := ih hids.2
      simp only [List.find?_cons, List.findIdx?_cons]
      cases hhead : head.stored.leaseId == leaseId with
      | false =>
          simp only [Bool.false_and, Bool.false_eq_true, if_false, hfind,
            hindex, true_and]
          split <;> rfl
      | true =>
          have hnone : ∀ row ∈ tail,
              (row.stored.leaseId == leaseId) = false :=
            fun row hrow => beq_false_of_ne fun hsame =>
              hids.1 row hrow ((eq_of_beq hhead).trans hsame.symm)
          cases halso : also head with
          | true => simp [Option.filter_some, halso]
          | false =>
              have htail : (tail.find? fun row =>
                  row.stored.leaseId == leaseId && also row) = none := by
                rw [List.find?_eq_none]
                intro row hrow
                simp [hnone row hrow]
              have htailIndex : (tail.findIdx? fun row =>
                  row.stored.leaseId == leaseId && also row) = none := by
                rw [List.findIdx?_eq_none_iff]
                intro row hrow
                simp [hnone row hrow]
              simp [Option.filter_some, halso, htail, htailIndex]

theorem findIdx_of_find (h : rows.find? hit = some row) : ∃ index,
    rows.findIdx? hit = some index := by
  cases hindex : rows.findIdx? hit with
  | some index => exact ⟨index, rfl⟩
  | none =>
      have hnone := List.findIdx?_eq_none_iff.mp hindex row
        (List.mem_of_find?_eq_some h)
      exact absurd (hnone.symm.trans (List.find?_some h)) Bool.false_ne_true

theorem findIdx_of_find_none (h : rows.find? hit = none) :
    rows.findIdx? hit = none :=
  List.findIdx?_eq_none_iff.mpr fun row hrow =>
    Bool.eq_false_iff.mpr (List.find?_eq_none.mp h row hrow)

/-- A guarded revocation that hits nothing. -/
theorem revoke_nothing (hrows : Rows settings pg) (h : Agrees pg memory)
    {guard : Row → Bool} (hnone : pg.rows.find? guard = none) (now : Int) :
    Together settings
      ({ pg with rows := PgStore.revokeWhere guard now pg.rows },
        .lease (((PgStore.revokeWhere guard now pg.rows).find? guard).map
          pg.leaseOf))
      (memory, .lease none) := by
  have hkept : PgStore.revokeWhere guard now pg.rows = pg.rows :=
    updateWhere_of_forall _
      (List.findIdx?_eq_none_iff.mp (findIdx_of_find_none hnone))
  rw [hkept, hnone]
  exact ⟨hrows, h, rfl⟩

theorem revoke_together (hrows : Rows settings pg) (h : Agrees pg memory)
    (leaseId : String) (scope : Option Scope) (now : Int) :
    Together settings (pg.revoke leaseId scope now)
      (memory.revoke leaseId scope now) := by
  have hsearch := fun target =>
    find_and leaseId (·.stored.scope == target) hrows.ids
  have hderef := h.deref (·.stored.leaseId == leaseId)
  rw [PgStore.revoke, PgStore.get]
  cases hfound : pg.rows.find? (·.stored.leaseId == leaseId) with
  | none =>
      rw [MemoryStore.revoke, h.byId, findIdx_of_find_none hfound]
      cases scope with
      | none => exact ⟨hrows, h, rfl⟩
      | some target =>
          refine revoke_nothing hrows h ?_ now
          rw [(hsearch target).1, hfound, Option.filter_none]
  | some row =>
      obtain ⟨index, hindex⟩ := findIdx_of_find hfound
      rw [hfound, hindex, MemoryStore.deref, Option.bind_some,
        Option.map_some] at hderef
      rw [MemoryStore.revoke, h.byId, hindex]
      simp only [hderef]
      cases hscope : scope.any (· != row.stored.scope) with
      | true =>
          obtain ⟨target, rfl, hother⟩ := (Option.any_eq_true _ _).mp hscope
          rw [if_pos (show (some target).any
            (· != (pg.leaseOf row).scope) = true from hscope)]
          refine revoke_nothing hrows h ?_ now
          rw [(hsearch target).1, hfound, Option.filter_some, if_neg]
          intro hsame
          exact bne_iff_ne.mp hother (eq_of_beq hsame).symm
      | false =>
          have htarget : scope.or
              (((some row).map pg.leaseOf).map Lease.scope) =
                some row.stored.scope := by
            cases scope with
            | none => rfl
            | some target => simpa using hscope
          rw [if_neg (show ¬ scope.any (· != (pg.leaseOf row).scope) = true
            from fun htrue => Bool.false_ne_true (hscope.symm.trans htrue)),
            htarget]
          have hguard := hsearch row.stored.scope
          rw [hfound, Option.filter_some, Option.any_some, beq_self_eq_true,
            if_pos rfl, if_pos rfl, hindex] at hguard
          refine ⟨hrows.revokeWhere _ now, ?_, ?_⟩
          · refine h.revoke hrows (id_once hrows leaseId _) hguard.2 now
              fun other => ?_
            have hself : pg.rows.findIdx? (current other) = some index →
                other = row.stored.scope :=
              current_at (fun row' hrow' => by
                rw [Bool.and_eq_true, beq_iff_eq, beq_iff_eq] at hrow'
                exact hrow'.2) hguard.2
            rw [h.active]
            by_cases hother : other = row.stored.scope
            · rw [hother]
              change valueAt row.stored.scope (if pg.rows.findIdx?
                (current row.stored.scope) = some index then _ else _) = _
              split
              · rw [valueAt_discard]
                exact if_pos rfl
              · exact h.active _
            · rw [if_neg fun hsame => hother (hself hsame)]
              split
              · rw [valueAt_discard, h.active]
                exact if_neg hother
              · exact h.active _
          · have hanswer := find_revoked pg
              (fun row' => row'.stored.leaseId == leaseId &&
                row'.stored.scope == row.stored.scope) now fun _ => rfl
            rw [hguard.1] at hanswer
            simp only [markRevoked_at, hderef]
            exact congrArg Response.lease hanswer

theorem resolve_together (hrows : Rows settings pg) (h : Agrees pg memory)
    (token bankId : String) (now : Int) :
    pg.resolve settings token bankId now =
      memory.resolve settings token bankId now := by
  rw [PgStore.resolve, MemoryStore.resolve, h.byTokenHash, h.deref]
  cases hfound : pg.rows.find?
      (·.tokenSha256 == settings.tokenSha256 token) with
  | none => rfl
  | some row =>
      have hsha := leaseOf_token_sha hrows (List.mem_of_find?_eq_some hfound)
      have hdigest := List.find?_some hfound
      rw [Option.map_some, Option.filter_some, hsha, BEq.comm, if_pos hdigest]

/-- Every operation keeps the stores together and is answered alike. -/
theorem step_together (hrows : Rows settings pg) (h : Agrees pg memory)
    (operation : Operation P) (hfresh : Fresh settings pg operation)
    (hcareful : Careful settings pg operation) :
    Together settings (pg.step settings operation)
      (memory.step settings operation) := by
  rw [PgStore.step, hcareful.1]
  cases operation with
  | issue request now token leaseId =>
      exact issue_together hrows h hfresh hcareful
  | get leaseId =>
      refine ⟨hrows, h, congrArg Response.lease ?_⟩
      rw [PgStore.get, MemoryStore.get, h.byId, h.deref]
  | revoke leaseId scope now => exact revoke_together hrows h leaseId scope now
  | revokeScope scope now => exact revokeScope_together hrows h scope now
  | resolve token bankId now =>
      exact ⟨hrows, h, resolve_together hrows h token bankId now⟩

theorem run_together (operations : List (Operation P))
    (hrows : Rows settings pg) (h : Agrees pg memory)
    (hfresh : (pgMachine settings).Admissible (Fresh settings) pg operations)
    (hcareful : (pgMachine settings).Admissible (Careful settings) pg
      operations) :
    Rows settings ((pgMachine settings).run pg operations) ∧
      Agrees ((pgMachine settings).run pg operations)
        ((memoryMachine settings).run memory operations) ∧
      (pgMachine settings).trace pg operations =
        (memoryMachine settings).trace memory operations := by
  induction operations generalizing pg memory with
  | nil => exact ⟨hrows, h, rfl⟩
  | cons operation rest ih =>
      obtain ⟨hnext, hagrees, hanswer⟩ :=
        step_together hrows h operation hfresh.1 hcareful.1
      obtain ⟨hend, htogether, htrace⟩ :=
        ih hnext hagrees hfresh.2 hcareful.2
      refine ⟨hend, htogether, ?_⟩
      change [_] ++ _ = [_] ++ _
      rw [hanswer]
      exact congrArg _ htrace

theorem rows_empty : Rows settings PgStore.empty :=
  ⟨.nil, .nil, .nil, fun _ hrow => nomatch hrow⟩

theorem agrees_empty : Agrees PgStore.empty MemoryStore.empty :=
  ⟨rfl, fun _ => rfl, fun _ => rfl, fun _ => rfl, fun _ => rfl⟩

/-! ### What stays rejected -/

/-- A row with the digest is revoked, or expired at the time. -/
def Dead (digest : String) (time : Int) (store : PgStore) : Prop :=
  ∃ row ∈ store.rows, row.tokenSha256 = digest ∧
    (row.stored.revokedAt.isSome ∨ row.stored.expiresAt ≤ time)

theorem Dead.revokeWhere (h : Dead digest time pg) (guard : Row → Bool)
    (now : Int) :
    Dead digest time
      { pg with rows := PgStore.revokeWhere guard now pg.rows } := by
  obtain ⟨row, hrow, hdigest, hdead⟩ := h
  refine ⟨_, List.mem_map_of_mem hrow, ?_⟩
  cases guard row with
  | true => exact ⟨hdigest, .inl (revokeRow_revoked now row)⟩
  | false => exact ⟨hdigest, hdead⟩

theorem Dead.rotate (h : Dead digest time pg)
    (hrows : ∀ {raw}, Dead digest time ⟨rows, raw⟩) (request : IssueRequest P)
    (now : Int) (token leaseId : String) (version : Nat) :
    Dead digest time (pg.rotate settings request now token leaseId rows
      version).1 := by
  rw [PgStore.rotate]
  split
  · exact h
  · simp only
    split
    · exact h
    · obtain ⟨row, hrow, hdead⟩ := @hrows []
      exact ⟨row, List.mem_append_left _ hrow, hdead⟩

theorem Dead.perform (h : Dead digest time pg) (operation : Operation P) :
    Dead digest time (pg.perform settings operation).1 := by
  cases operation with
  | issue request now token leaseId =>
      rw [PgStore.perform, PgStore.issue]
      split
      · exact h.rotate h request now token leaseId 1
      · simp only
        split
        · exact h
        · exact h.rotate (h.revokeWhere _ now) request now token leaseId _
  | get leaseId => exact h
  | revoke leaseId scope now =>
      rw [PgStore.perform, PgStore.revoke]
      split
      · exact h
      · exact h.revokeWhere _ now
  | revokeScope scope now => exact h.revokeWhere _ now
  | resolve token bankId now => exact h

theorem Dead.step (h : Dead digest time pg) (operation : Operation P) :
    Dead digest time (pg.step settings operation).1 := by
  rw [PgStore.step]
  cases operation.stored settings with
  | none => exact h
  | some stored => exact h.perform stored

theorem Dead.run (operations : List (Operation P)) (h : Dead digest time pg) :
    Dead digest time ((pgMachine settings).run pg operations) := by
  induction operations generalizing pg with
  | nil => exact h
  | cons operation rest ih => exact ih (h.step operation)

theorem Dead.rejected (h : Dead digest time pg) (hrows : Rows settings pg)
    (htoken : settings.tokenSha256 token = digest) (bankId : String)
    (hnow : time ≤ now) :
    pg.resolve settings token bankId now = .unauthorized := by
  obtain ⟨row, hrow, hdigest, hdead⟩ := h
  rw [PgStore.resolve]
  cases hfound : pg.rows.find?
      (·.tokenSha256 == settings.tokenSha256 token) with
  | none => rfl
  | some found =>
      have hsame : found = row := by
        refine eq_of_key hrows.digests (List.mem_of_find?_eq_some hfound)
          hrow ?_
        have hhit := List.find?_some hfound
        rw [beq_iff_eq, htoken] at hhit
        exact hhit.trans hdigest.symm
      have hinactive : (pg.leaseOf row).active now = false := by
        rw [Lease.active, Bool.and_eq_false_iff]
        rcases hdead with hrevoked | hexpired
        · exact .inl (Option.isNone_eq_false_iff.mpr hrevoked)
        · refine .inr (decide_eq_false ?_)
          exact not_lt.mpr (le_trans hexpired hnow)
      rw [Option.map_some, hsame, answer, hinactive]
      rfl

theorem dead_of_get (hrows : Rows settings pg) {lease : Lease}
    (hget : pg.get leaseId = some lease)
    (hinactive : lease.active time = false) :
    Dead (settings.tokenSha256 lease.token) time pg := by
  obtain ⟨row, hfound, rfl⟩ := Option.map_eq_some_iff.mp hget
  have hrow := List.mem_of_find?_eq_some hfound
  refine ⟨row, hrow, (leaseOf_token_sha hrows hrow).symm, ?_⟩
  rw [Lease.active, Bool.and_eq_false_iff] at hinactive
  rcases hinactive with hrevoked | hexpired
  · exact .inl (Option.isNone_eq_false_iff.mp hrevoked)
  · exact .inr (not_lt.mp (of_decide_eq_false hexpired))

/-! ### Exclusivity -/

theorem filter_length_le_one
    (h : rows.Pairwise fun left right =>
      hit left = true → hit right = false) : (rows.filter hit).length ≤ 1 := by
  induction rows with
  | nil => exact Nat.zero_le 1
  | cons head tail ih =>
      rw [List.pairwise_cons] at h
      cases hhead : hit head with
      | false =>
          rw [List.filter_cons_of_neg (by simp [hhead])]
          exact ih h.2
      | true =>
          rw [List.filter_cons_of_pos hhead,
            List.filter_eq_nil_iff.mpr fun row hrow => by
              rw [h.1 row hrow hhead]
              exact Bool.false_ne_true]
          exact Nat.le_refl 1

/-- At most one lease of a scope is active at any time. -/
theorem Rows.active_once (h : Rows settings pg) (scope : Scope) (now : Int) :
    (pg.rows.filter fun row =>
      row.stored.scope == scope && row.stored.active now).length ≤ 1 := by
  refine filter_length_le_one ((h.current_once scope).imp ?_)
  intro older newer honce holder
  have hcurrent : ∀ row : Row,
      (row.stored.scope == scope && row.stored.active now) = true →
        current scope row = true := by
    intro row hrow
    simp only [Lease.active, Bool.and_eq_true] at hrow
    rw [current, hrow.1, hrow.2.1, Bool.true_and]
  by_contra hnewer
  have hsecond := hcurrent newer (Bool.not_eq_false _ ▸ hnewer)
  rw [honce (hcurrent older holder)] at hsecond
  exact Bool.false_ne_true hsecond

/-- From empty stores and for every sequence of operations whose policies are
read and whose arguments the columns keep: both stores give the same answers, leases and versions included; at most one lease of a scope is
active; versions grow in the order of issue and every superseded lease is
revoked; a lease that is inactive at some time is rejected ever after. -/
theorem lease_stores_equivalent (settings : Settings P)
    (operations : List (Operation P))
    (hfresh : (pgMachine settings).Admissible (Fresh settings)
      PgStore.empty operations)
    (hcareful : (pgMachine settings).Admissible (Careful settings)
      PgStore.empty operations) :
    let pg := (pgMachine settings).run PgStore.empty operations
    let memory := (memoryMachine settings).run MemoryStore.empty operations
    (pgMachine settings).trace PgStore.empty operations =
        (memoryMachine settings).trace MemoryStore.empty operations ∧
      (∀ scope now, (pg.rows.filter fun row =>
        row.stored.scope == scope && row.stored.active now).length ≤ 1) ∧
      (pg.rows.Pairwise fun older newer =>
        older.stored.scope = newer.stored.scope →
          older.stored.version < newer.stored.version ∧
            older.stored.revokedAt.isSome) ∧
      ∀ first last, operations = first ++ last →
        ∀ leaseId lease time,
          ((pgMachine settings).run PgStore.empty first).get leaseId =
              some lease →
            lease.active time = false → ∀ bankId now, time ≤ now →
              pg.resolve settings lease.token bankId now = .unauthorized ∧
                memory.resolve settings lease.token bankId now =
                  .unauthorized := by
  obtain ⟨hrows, hagrees, htrace⟩ :=
    run_together operations rows_empty agrees_empty hfresh hcareful
  refine ⟨htrace, hrows.active_once, hrows.ordered, ?_⟩
  intro first last hsplit leaseId lease time hget hinactive bankId now hnow
  have hbefore : Rows settings
      ((pgMachine settings).run PgStore.empty first) := by
    rw [hsplit] at hfresh hcareful
    exact (run_together first rows_empty agrees_empty
      (Machine.admissible_left hfresh) (Machine.admissible_left hcareful)).1
  have hdead : Dead (settings.tokenSha256 lease.token) time
      ((pgMachine settings).run PgStore.empty operations) := by
    rw [hsplit, Machine.run_append]
    exact (dead_of_get hbefore hget hinactive).run last
  have hrejected := hdead.rejected hrows rfl bankId hnow
  exact ⟨hrejected, (resolve_together hrows hagrees lease.token bankId
    now).symm.trans hrejected⟩

namespace EquivalenceWitness

/-- A negative policy stands for one without a number in its revision. -/
def fiveMinutes : Settings Int where
  ttlSeconds := 300
  ttl_pos := by decide
  policyFingerprint snapshot policy := snapshot ++ toString policy
  allowedOperations policy := if policy = 0 then [] else ["recall"]
  policyRevision policy := if policy < 0 then none else some policy
  tokenSha256 token := "sha256:" ++ token
  uuid text := some text

def scope : Scope where
  tenantId := "6f1f5c3e-0000-4000-8000-000000000001"
  memberId := "6f1f5c3e-0000-4000-8000-000000000002"
  employeeId := "6f1f5c3e-0000-4000-8000-000000000003"

def request (policy : Int) : IssueRequest Int :=
  ⟨scope, "snapshot", policy, "aiteam-bank", false, none⟩

/-- A lease, its reuse, a rotation under a new policy, the old token, and a
revocation by id. -/
def operations : List (Operation Int) :=
  [.issue (request 0) 0 "a" "lease-a", .issue (request 0) 10 "b" "lease-b",
    .issue (request 1) 20 "c" "lease-c", .resolve "a" "aiteam-bank" 30,
    .resolve "c" "aiteam-bank" 30, .revoke "lease-c" (some scope) 40,
    .resolve "c" "aiteam-bank" 50]

/-- A lease, an issue whose policy is not read, the token of the lease, and
one more issue. -/
def unread : List (Operation Int) :=
  [.issue (request 0) 0 "a" "lease-a", .issue (request (-1)) 10 "b" "lease-b",
    .resolve "a" "aiteam-bank" 20, .issue (request 1) 30 "c" "lease-c"]

def version : Response → Option Nat
  | .lease lease => lease.map Lease.version
  | _ => none

end EquivalenceWitness

open EquivalenceWitness in
theorem lease_stores_equivalent_rotated :
    ((pgMachine fiveMinutes).trace PgStore.empty operations)[3]? =
        some .unauthorized ∧
      (pgMachine fiveMinutes).trace PgStore.empty operations =
        (memoryMachine fiveMinutes).trace MemoryStore.empty operations :=
  ⟨by decide, (lease_stores_equivalent fiveMinutes operations (by decide)
    (by decide)).1⟩

open EquivalenceWitness in
/-- An issue that fails on the revision of its policy has revoked the lease and
counted the version up in memory; PostgreSQL rolls it back. -/
theorem unread_revision_parts_stores :
    ((pgMachine fiveMinutes).trace PgStore.empty unread).map version =
        [some 1, none, some 1, some 2] ∧
      ((memoryMachine fiveMinutes).trace MemoryStore.empty unread).map version =
        [some 1, none, none, some 3] ∧
      ((memoryMachine fiveMinutes).trace MemoryStore.empty unread)[2]? =
        some .unauthorized := by
  decide

end AiTeam.Hindsight
