/-
The keys of a tenant count up from one, the newest of them is current, and no
statement of the service takes a key away.
-/
import AiTeam.SigningKey.Store
import Mathlib.Data.List.Nodup

namespace AiTeam.SigningKey

def keysOf (rows : List KeyRow) (tenantId : Text) : List KeyRow :=
  rows.filter fun row => row.tenantId == tenantId

variable {rows : List KeyRow} {tenantId : Text} {row : KeyRow} {version : Nat}

theorem mem_keysOf :
    row ∈ keysOf rows tenantId ↔ row ∈ rows ∧ row.tenantId = tenantId := by
  rw [keysOf, List.mem_filter, beq_iff_eq]

/-- The versions of a tenant's keys count up from one. -/
def Numbered (rows : List KeyRow) : Prop :=
  ∀ tenantId, (keysOf rows tenantId).map KeyRow.version =
    List.range' 1 (keysOf rows tenantId).length

section

variable {rows : List KeyRow} {tenantId : Text}

theorem Numbered.bounds (h : Numbered rows) (hrow : row ∈ keysOf rows tenantId)
    : 1 ≤ row.version ∧ row.version ≤ (keysOf rows tenantId).length := by
  have hmem : row.version ∈ (keysOf rows tenantId).map KeyRow.version :=
    List.mem_map_of_mem hrow
  rw [h tenantId, List.mem_range'_1] at hmem
  omega

theorem Numbered.exists_version (h : Numbered rows) (hlow : 1 ≤ version)
    (hhigh : version ≤ (keysOf rows tenantId).length) :
    ∃ row ∈ keysOf rows tenantId, row.version = version := by
  have hmem : version ∈ (keysOf rows tenantId).map KeyRow.version := by
    rw [h tenantId, List.mem_range'_1]
    omega
  exact List.mem_map.mp hmem

theorem Numbered.nodup (h : Numbered rows) (tenantId : Text) :
    ((keysOf rows tenantId).map KeyRow.version).Nodup := by
  rw [h tenantId]
  exact List.nodup_range'

theorem Numbered.eq_of_version (h : Numbered rows) {left right : KeyRow}
    (hleft : left ∈ keysOf rows tenantId)
    (hright : right ∈ keysOf rows tenantId)
    (hversion : left.version = right.version) : left = right :=
  List.inj_on_of_nodup_map (h.nodup tenantId) hleft hright hversion

theorem Numbered.append (h : Numbered rows)
    (hversion : row.version = (keysOf rows row.tenantId).length + 1) :
    Numbered (rows ++ [row]) := by
  intro other
  have hkeys : keysOf (rows ++ [row]) other =
      keysOf rows other ++ if row.tenantId = other then [row] else [] := by
    by_cases heq : row.tenantId = other <;>
      simp [keysOf, List.filter_append, heq]
  rw [hkeys]
  by_cases heq : row.tenantId = other
  · subst heq
    rw [if_pos rfl, List.map_append, h row.tenantId, List.length_append,
      List.length_singleton, List.range'_1_concat, List.map_singleton,
      hversion, Nat.add_comm]
  · rw [if_neg heq, List.append_nil, h other]

end

/-- What a table of the service holds: numbered keys with the names of their
numbers, the newest one of every tenant current. -/
structure Rows (db : Database) (rows : List KeyRow) : Prop where
  numbered : Numbered rows
  tenant : ∀ row ∈ rows, isTenant db row.tenantId = true
  named : ∀ row ∈ rows, row.kid = kidOf row.tenantId row.version
  paired : ∀ row ∈ rows, row.privatePem = row.publicPem
  retired : ∀ row ∈ rows, row.isCurrent = row.retiredAt.isNone
  newest : ∀ row ∈ rows,
    row.version = (keysOf rows row.tenantId).length → row.isCurrent = true

/-- A row that a call read is still there, current or retired. -/
def Stored (rows : List KeyRow) (tenantId : Text) (read : KeyRow) : Prop :=
  read.kid = kidOf tenantId read.version ∧
    ∃ row ∈ keysOf rows tenantId, row.version = read.version ∧
      row.privatePem = read.privatePem

section

variable {db : Database}

theorem mem_currentRows :
    row ∈ currentRows rows tenantId ↔
      row ∈ rows ∧ row.tenantId = tenantId ∧ row.isCurrent = true := by
  rw [currentRows, List.mem_filter, Bool.and_eq_true, beq_iff_eq]

theorem currentRow_mem {pick : Nat}
    (h : currentRow rows tenantId pick = some row) :
    row ∈ currentRows rows tenantId :=
  List.mem_of_getElem? h

theorem isTenant_plain (h : isTenant db tenantId = true) :
    db.isUuid tenantId = true ∧ ':' ∉ tenantId := by
  simpa [isTenant] using h

theorem Rows.eq_of_kid (h : Rows db rows) {left right : KeyRow}
    (hleft : left ∈ rows) (hright : right ∈ rows) (hkid : left.kid = right.kid)
    : left = right := by
  rw [h.named left hleft, h.named right hright] at hkid
  obtain ⟨htenant, hversion⟩ :=
    kidOf_inj (isTenant_plain (h.tenant left hleft)).2
      (isTenant_plain (h.tenant right hright)).2 hkid
  apply h.numbered.eq_of_version _ (mem_keysOf.mpr ⟨hright, rfl⟩) hversion
  exact mem_keysOf.mpr ⟨hleft, htenant⟩

theorem Rows.bounds (h : Rows db rows) (hrow : row ∈ rows) :
    1 ≤ row.version ∧
      row.version ≤ (keysOf rows row.tenantId).length :=
  h.numbered.bounds (mem_keysOf.mpr ⟨hrow, rfl⟩)

/-- A key that a call read as current is stored. -/
theorem Rows.stored (h : Rows db rows) (hrow : row ∈ currentRows rows tenantId)
    : Stored rows tenantId row := by
  obtain ⟨hmem, htenant, -⟩ := mem_currentRows.mp hrow
  have hnamed := h.named row hmem
  rw [htenant] at hnamed
  exact ⟨hnamed, row, mem_keysOf.mpr ⟨hmem, htenant⟩, rfl, rfl⟩

/-! ### What a statement leaves -/

/-- Every stored key is still stored under its number. -/
def Extends (rows rows' : List KeyRow) : Prop :=
  ∀ tenantId, (keysOf rows tenantId).length ≤ (keysOf rows' tenantId).length ∧
    ∀ row ∈ keysOf rows tenantId, ∃ row' ∈ keysOf rows' tenantId,
      row'.version = row.version ∧ row'.privatePem = row.privatePem

theorem Stored.extend {rows' : List KeyRow} {read : KeyRow}
    (h : Stored rows tenantId read) (hextends : Extends rows rows') :
    Stored rows' tenantId read := by
  obtain ⟨hnamed, row, hrow, hversion, hpem⟩ := h
  obtain ⟨row', hrow', hversion', hpem'⟩ := (hextends tenantId).2 row hrow
  exact ⟨hnamed, row', hrow', hversion'.trans hversion, hpem'.trans hpem⟩

theorem extends_append (rows : List KeyRow) (row : KeyRow) :
    Extends rows (rows ++ [row]) := by
  intro tenantId
  constructor
  · rw [keysOf, keysOf, List.filter_append, List.length_append]
    omega
  · intro old hold
    obtain ⟨hmem, htenant⟩ := mem_keysOf.mp hold
    exact ⟨old, mem_keysOf.mpr ⟨List.mem_append_left _ hmem, htenant⟩,
      rfl, rfl⟩

/-- What `retireRow` makes of a row. -/
def retiredRow (tenantId kid : Text) (now : Nat) (row : KeyRow) : KeyRow :=
  if row.tenantId == tenantId && row.kid == kid then
    { row with isCurrent := false, retiredAt := some now } else row

theorem retireRow_eq (rows : List KeyRow) (tenantId kid : Text) (now : Nat) :
    retireRow rows tenantId kid now =
      rows.map (retiredRow tenantId kid now) := rfl

theorem retiredRow_same (tenantId kid : Text) (now : Nat) (row : KeyRow) :
    (retiredRow tenantId kid now row).tenantId = row.tenantId ∧
      (retiredRow tenantId kid now row).kid = row.kid ∧
      (retiredRow tenantId kid now row).version = row.version ∧
      (retiredRow tenantId kid now row).privatePem = row.privatePem ∧
      (retiredRow tenantId kid now row).publicPem = row.publicPem := by
  rw [retiredRow]
  split <;> exact ⟨rfl, rfl, rfl, rfl, rfl⟩

theorem keysOf_retireRow (rows : List KeyRow) (tenantId kid : Text)
    (now : Nat) (other : Text) :
    keysOf (retireRow rows tenantId kid now) other =
      (keysOf rows other).map (retiredRow tenantId kid now) := by
  rw [retireRow_eq, keysOf, keysOf, List.filter_map]
  congr 1
  apply List.filter_congr
  intro row _
  rw [Function.comp_apply, (retiredRow_same tenantId kid now row).1]

theorem extends_retireRow (rows : List KeyRow) (tenantId kid : Text)
    (now : Nat) : Extends rows (retireRow rows tenantId kid now) := by
  intro other
  rw [keysOf_retireRow]
  constructor
  · exact Nat.le_of_eq (List.length_map _).symm
  · intro row hrow
    have hsame := retiredRow_same tenantId kid now row
    exact ⟨_, List.mem_map_of_mem hrow, hsame.2.2.1, hsame.2.2.2.1⟩

theorem retiredRow_current {kid : Text} {now : Nat}
    (h : (retiredRow tenantId kid now row).isCurrent = true) :
    retiredRow tenantId kid now row = row ∧
      ¬ (row.tenantId = tenantId ∧ row.kid = kid) := by
  by_cases hmatch : row.tenantId = tenantId ∧ row.kid = kid
  · have hguard : (row.tenantId == tenantId && row.kid == kid) = true := by
      simpa using hmatch
    rw [retiredRow, if_pos hguard] at h
    exact absurd h Bool.false_ne_true
  · constructor
    · apply if_neg
      simpa using hmatch
    · exact hmatch

theorem keysOf_append_self (rows : List KeyRow) (row : KeyRow) :
    keysOf (rows ++ [row]) row.tenantId =
      keysOf rows row.tenantId ++ [row] := by
  simp [keysOf, List.filter_append]

theorem keysOf_append_other (h : row.tenantId ≠ tenantId) (rows : List KeyRow) :
    keysOf (rows ++ [row]) tenantId = keysOf rows tenantId := by
  simp [keysOf, List.filter_append, h]

/-- A key of a tenant that has none yet, or the one after its newest. -/
theorem Rows.insert (h : Rows db rows) (htenant : isTenant db tenantId = true)
    (hversion : version = (keysOf rows tenantId).length + 1) (keyPair : Nat) :
    Rows db (rows ++ [newRow tenantId version keyPair]) := by
  have hcases : ∀ {P : KeyRow → Prop}, (∀ row ∈ rows, P row) →
      P (newRow tenantId version keyPair) →
      ∀ row ∈ rows ++ [newRow tenantId version keyPair], P row := by
    intro P hold hnew row hrow
    rcases List.mem_append.mp hrow with hmem | hmem
    · exact hold row hmem
    · rw [List.mem_singleton.mp hmem]
      exact hnew
  constructor
  · exact h.numbered.append hversion
  · exact hcases h.tenant htenant
  · exact hcases h.named rfl
  · exact hcases h.paired rfl
  · exact hcases h.retired rfl
  · refine hcases ?_ fun _ => rfl
    intro row hrow hnewest
    by_cases hsame : tenantId = row.tenantId
    · subst hsame
      have hbound := (h.bounds hrow).2
      have hkeys : keysOf (rows ++ [newRow row.tenantId version keyPair])
          row.tenantId = keysOf rows row.tenantId ++
            [newRow row.tenantId version keyPair] :=
        keysOf_append_self rows (newRow row.tenantId version keyPair)
      rw [hkeys, List.length_append, List.length_singleton] at hnewest
      omega
    · have hother : (newRow tenantId version keyPair).tenantId ≠
          row.tenantId := hsame
      rw [keysOf_append_other hother] at hnewest
      exact h.newest row hrow hnewest

/-- A key that is not the newest one may be retired. -/
theorem Rows.retire (h : Rows db rows) {kid : Text} (now : Nat)
    (hold : ∀ row ∈ rows, row.tenantId = tenantId → row.kid = kid →
      row.version < (keysOf rows tenantId).length) :
    Rows db (retireRow rows tenantId kid now) := by
  have hcases : ∀ {P : KeyRow → Prop},
      (∀ row ∈ rows, P (retiredRow tenantId kid now row)) →
      ∀ row ∈ retireRow rows tenantId kid now, P row := by
    intro P hall row hrow
    obtain ⟨before, hbefore, rfl⟩ := List.mem_map.mp hrow
    exact hall before hbefore
  have hsame := retiredRow_same tenantId kid now
  constructor
  · intro other
    rw [keysOf_retireRow, List.map_map, List.length_map, ← h.numbered other]
    apply List.map_congr_left
    intro row _
    exact (hsame row).2.2.1
  · apply hcases
    intro row hrow
    rw [(hsame row).1]
    exact h.tenant row hrow
  · apply hcases
    intro row hrow
    rw [(hsame row).1, (hsame row).2.1, (hsame row).2.2.1]
    exact h.named row hrow
  · apply hcases
    intro row hrow
    rw [(hsame row).2.2.2.1, (hsame row).2.2.2.2]
    exact h.paired row hrow
  · apply hcases
    intro row hrow
    rw [retiredRow]
    split
    · rfl
    · exact h.retired row hrow
  · apply hcases
    intro row hrow
    rw [(hsame row).1, (hsame row).2.2.1, keysOf_retireRow, List.length_map]
    intro hnewest
    by_cases hmatch : row.tenantId = tenantId ∧ row.kid = kid
    · have hlow := hold row hrow hmatch.1 hmatch.2
      rw [← hmatch.1, ← hnewest] at hlow
      exact absurd hlow (Nat.lt_irrefl _)
    · have hkept : retiredRow tenantId kid now row = row := by
        apply if_neg
        simpa using hmatch
      rw [hkept]
      exact h.newest row hrow hnewest

theorem length_keysOf_append (rows : List KeyRow) (row : KeyRow)
    (tenantId : Text) :
    (keysOf (rows ++ [row]) tenantId).length =
      (keysOf rows tenantId).length +
        if row.tenantId = tenantId then 1 else 0 := by
  by_cases hsame : row.tenantId = tenantId
  · subst hsame
    rw [keysOf_append_self, List.length_append, if_pos rfl,
      List.length_singleton]
  · rw [keysOf_append_other hsame, if_neg hsame, Nat.add_zero]

theorem insertRow_some {next : List KeyRow}
    (h : insertRow rows row = some next) :
    next = rows ++ [row] ∧ ∀ old ∈ rows, old.kid ≠ row.kid := by
  rw [insertRow] at h
  split at h
  · cases h
  · next hfresh =>
      refine ⟨(Option.some.inj h).symm, ?_⟩
      intro old hold hkid
      apply hfresh
      exact List.any_eq_true.mpr ⟨old, hold, beq_iff_eq.mpr hkid⟩

/-- A version that is not taken is the one after the newest. -/
theorem Rows.fresh (h : Rows db rows) (hlow : 1 ≤ version)
    (hfresh : ∀ row ∈ rows, row.kid ≠ kidOf tenantId version) :
    (keysOf rows tenantId).length < version := by
  by_contra hnot
  obtain ⟨row, hrow, hversion⟩ :=
    h.numbered.exists_version hlow (Nat.le_of_not_lt hnot)
  obtain ⟨hmem, htenant⟩ := mem_keysOf.mp hrow
  apply hfresh row hmem
  rw [h.named row hmem, htenant, hversion]

end

end AiTeam.SigningKey
