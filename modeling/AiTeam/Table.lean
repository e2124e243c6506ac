/-
SQL tables as lists of rows: the statements the services issue (`UPDATE ...
WHERE`, `INSERT`, `DELETE ... WHERE`) and how a lookup by key sees them.
-/
import Mathlib.Data.List.Basic

namespace AiTeam

universe u v

variable {R : Type u} {K : Type v} [DecidableEq K]

/-- `UPDATE ... SET change WHERE guard`. -/
def updateWhere (guard : R → Bool) (change : R → R) (rows : List R) : List R :=
  rows.map fun row => if guard row then change row else row

theorem updateWhere_cons (guard : R → Bool) (change : R → R) (head : R)
    (tail : List R) :
    updateWhere guard change (head :: tail) =
      (if guard head then change head else head) ::
        updateWhere guard change tail := rfl

variable {rows : List R} {key : R → K} {row : R} {k : K}

theorem updateWhere_congr {guard guard' : R → Bool} (change : R → R)
    (h : ∀ row ∈ rows, guard row = guard' row) :
    updateWhere guard change rows = updateWhere guard' change rows := by
  refine List.map_congr_left fun row hrow => ?_
  rw [h row hrow]

/-- An update no row qualifies for. -/
theorem updateWhere_of_forall {guard : R → Bool} (change : R → R)
    (h : ∀ row ∈ rows, guard row = false) :
    updateWhere guard change rows = rows := by
  rw [updateWhere]
  conv_rhs => rw [← List.map_id rows]
  refine List.map_congr_left fun row hrow => ?_
  rw [h row hrow]
  rfl

/-- `SELECT ... WHERE key = k` on a primary key. -/
def lookup (key : R → K) (k : K) (rows : List R) : Option R :=
  rows.find? fun row => decide (key row = k)

theorem lookup_key (h : lookup key k rows = some row) : key row = k := by
  simpa using List.find?_some h

theorem lookup_mem (h : lookup key k rows = some row) : row ∈ rows :=
  List.mem_of_find?_eq_some h

/-- An update that keeps the keys of the rows it touches changes the looked-up
row in place. -/
theorem lookup_updateWhere_of_guard (key : R → K) (k : K) (guard : R → Bool)
    (change : R → R) (hkey : ∀ row, guard row → key (change row) = key row)
    (rows : List R) :
    lookup key k (updateWhere guard change rows) =
      (lookup key k rows).map fun row =>
        if guard row then change row else row := by
  induction rows with
  | nil => rfl
  | cons head tail ih =>
      have hhead : key (if guard head then change head else head) =
          key head := by
        split
        · next hguard => exact hkey head hguard
        · rfl
      simp only [lookup, updateWhere, List.map_cons, List.find?_cons,
        hhead] at ih ⊢
      by_cases heq : key head = k
      · simp [heq]
      · simpa [heq] using ih

/-- The same when the change keeps every key. -/
theorem lookup_updateWhere (key : R → K) (k : K) (guard : R → Bool)
    (change : R → R) (hkey : ∀ row, key (change row) = key row)
    (rows : List R) :
    lookup key k (updateWhere guard change rows) =
      (lookup key k rows).map fun row =>
        if guard row then change row else row :=
  lookup_updateWhere_of_guard key k guard change (fun row _ => hkey row) rows

/-- Rows that are changed in place and keep their keys. -/
theorem lookup_map (key : R → K) (change : R → R)
    (hkey : ∀ row, key (change row) = key row) (rows : List R) :
    lookup key k (rows.map change) = (lookup key k rows).map change := by
  rw [lookup, lookup, List.find?_map]
  congr 2
  funext row
  rw [Function.comp_apply, hkey]

/-- `INSERT` of a row appends it. -/
theorem lookup_append (key : R → K) (k : K) (rows : List R) (row : R) :
    lookup key k (rows ++ [row]) =
      (lookup key k rows).or (if key row = k then some row else none) := by
  rw [lookup, lookup, List.find?_append]
  by_cases heq : key row = k <;> simp [heq]

/-- `DELETE ... WHERE guard` on the looked-up key. -/
theorem lookup_filter_of_forall (key : R → K) (k : K) (keep : R → Bool)
    (rows : List R) (hkeep : ∀ row ∈ rows, key row = k → keep row = true) :
    lookup key k (rows.filter keep) = lookup key k rows := by
  induction rows with
  | nil => rfl
  | cons head tail ih =>
      have htail := ih fun row hrow => hkeep row (List.mem_cons_of_mem _ hrow)
      simp only [lookup] at htail ⊢
      by_cases heq : key head = k
      · simp [hkeep head List.mem_cons_self heq, heq]
      · by_cases hhead : keep head
        · simpa [List.filter_cons, hhead, heq] using htail
        · simpa [List.filter_cons, hhead, heq] using htail

theorem lookup_filter_eq_none (key : R → K) (k : K) (keep : R → Bool)
    (rows : List R) (hdrop : ∀ row ∈ rows, key row = k → keep row = false) :
    lookup key k (rows.filter keep) = none := by
  rw [lookup, List.find?_eq_none]
  intro row hrow
  have hmem := List.mem_filter.mp hrow
  intro hkey
  have hfalse := hdrop row hmem.1 (by simpa using hkey)
  rw [hfalse] at hmem
  exact Bool.false_ne_true hmem.2

/-- A primary key: every row is the one its key looks up. -/
def Keyed (key : R → K) (rows : List R) : Prop :=
  ∀ row ∈ rows, lookup key (key row) rows = some row

theorem Keyed.nil (key : R → K) : Keyed key [] := by
  intro row hrow
  simp at hrow

section

variable (hrows : Keyed key rows)
include hrows

theorem Keyed.updateWhere (guard : R → Bool) (change : R → R)
    (hkey : ∀ row, key (change row) = key row) :
    Keyed key (updateWhere guard change rows) := by
  intro row hrow
  obtain ⟨old, hold, rfl⟩ := List.mem_map.mp hrow
  have hsame : key (if guard old then change old else old) = key old := by
    split
    · exact hkey old
    · rfl
  rw [hsame, lookup_updateWhere key (key old) guard change hkey,
    hrows old hold]
  rfl

theorem Keyed.append (hfresh : lookup key (key row) rows = none) :
    Keyed key (rows ++ [row]) := by
  intro other hother
  rw [lookup_append]
  rcases List.mem_append.mp hother with hold | hnew
  · rw [hrows other hold]
    rfl
  · rw [List.mem_singleton.mp hnew, hfresh]
    simp

theorem Keyed.eq_of_key {left right : R} (hleft : left ∈ rows)
    (hright : right ∈ rows) (hkey : key left = key right) : left = right := by
  have hfound := hrows left hleft
  rw [hkey, hrows right hright] at hfound
  exact (Option.some.inj hfound).symm

/-- `DELETE ... WHERE` on a table with a primary key. -/
theorem Keyed.lookup_filter (keep : R → Bool) (k : K) :
    lookup key k (rows.filter keep) = (lookup key k rows).filter keep := by
  cases hfound : lookup key k rows with
  | none =>
      apply lookup_filter_eq_none
      intro row hrow hkey
      rw [← hkey, hrows row hrow] at hfound
      exact absurd hfound (Option.some_ne_none row)
  | some found =>
      have hsame : ∀ row ∈ rows, key row = k → row = found := by
        intro row hrow hkey
        have hself := hrows row hrow
        rw [hkey, hfound] at hself
        exact (Option.some.inj hself).symm
      by_cases hkeep : keep found = true
      · rw [Option.filter_some_pos hkeep, lookup_filter_of_forall key k keep]
        · exact hfound
        · intro row hrow hkey
          rw [hsame row hrow hkey]
          exact hkeep
      · have hdrop := Bool.eq_false_iff.mpr hkeep
        rw [Option.filter_some_neg hdrop]
        apply lookup_filter_eq_none
        intro row hrow hkey
        rw [hsame row hrow hkey]
        exact hdrop

theorem Keyed.filter (keep : R → Bool) : Keyed key (rows.filter keep) := by
  intro row hrow
  obtain ⟨hmem, hkeep⟩ := List.mem_filter.mp hrow
  rw [hrows.lookup_filter keep, hrows row hmem]
  exact Option.filter_some_pos hkeep

end

/-- `INSERT ... ON CONFLICT(key) DO UPDATE SET` of every other column. -/
def upsert (key : R → K) (row : R) (rows : List R) : List R :=
  if (lookup key (key row) rows).isSome then
    updateWhere (fun other => key other = key row) (fun _ => row) rows
  else rows ++ [row]

/-- A row of the key is the one inserted. -/
theorem mem_upsert {other : R} (h : other ∈ upsert key row rows) :
    other = row ∨ (other ∈ rows ∧ key other ≠ key row) := by
  rw [upsert] at h
  split at h
  · obtain ⟨old, hold, rfl⟩ := List.mem_map.mp h
    by_cases hkey : key old = key row
    · exact Or.inl (if_pos (by simpa using hkey))
    · rw [if_neg (by simpa using hkey)]
      exact Or.inr ⟨hold, hkey⟩
  · next hnone =>
      rcases List.mem_append.mp h with hold | hnew
      · refine Or.inr ⟨hold, fun hkey => hnone ?_⟩
        rw [lookup, List.find?_isSome]
        exact ⟨other, hold, by simpa using hkey⟩
      · exact Or.inl (List.mem_singleton.mp hnew)

theorem mem_upsert_self (key : R → K) (row : R) (rows : List R) :
    row ∈ upsert key row rows := by
  rw [upsert]
  split
  · next hsome =>
      rw [lookup, List.find?_isSome] at hsome
      obtain ⟨old, hold, hkey⟩ := hsome
      exact List.mem_map.mpr ⟨old, hold, if_pos hkey⟩
  · exact List.mem_append_right rows (List.mem_singleton_self row)

theorem mem_upsert_of_ne {other : R} (hmem : other ∈ rows)
    (hkey : key other ≠ key row) : other ∈ upsert key row rows := by
  rw [upsert]
  split
  · exact List.mem_map.mpr ⟨other, hmem, if_neg (by simpa using hkey)⟩
  · exact List.mem_append_left [row] hmem

/-- The rows a condition picks that none of the key meets. -/
theorem filter_upsert {keep : R → Bool}
    (hkeep : ∀ other, key other = key row → keep other = false) (rows : List R)
    : (upsert key row rows).filter keep = rows.filter keep := by
  rw [upsert]
  split
  · clear *- hkeep
    rw [updateWhere]
    induction rows with
    | nil => rfl
    | cons head tail ih =>
        by_cases hkey : key head = key row
        · simpa [List.filter_cons, hkey, hkeep head hkey,
            hkeep row rfl] using ih
        · by_cases hhead : keep head <;>
            simpa [List.filter_cons, hkey, hhead] using ih
  · rw [List.filter_append, List.filter_singleton, hkeep row rfl]
    simp

theorem lookup_upsert (key : R → K) (row : R) (rows : List R) (k : K) :
    lookup key k (upsert key row rows) =
      if key row = k then some row else lookup key k rows := by
  rw [upsert]
  split
  · next hsome =>
      rw [lookup_updateWhere_of_guard]
      · by_cases hkey : key row = k
        · obtain ⟨old, hold⟩ := Option.isSome_iff_exists.mp hsome
          rw [hkey] at hold
          simp [hold, lookup_key hold, hkey]
        · rw [if_neg hkey]
          cases hold : lookup key k rows with
          | none => rfl
          | some old => simp [lookup_key hold, Ne.symm hkey]
      · intro old hold
        exact (of_decide_eq_true hold).symm
  · next hnone =>
      rw [lookup_append]
      by_cases hkey : key row = k
      · rw [← hkey, Option.not_isSome_iff_eq_none.mp hnone]
        rfl
      · simp [hkey]

theorem Keyed.upsert (hrows : Keyed key rows) (row : R) :
    Keyed key (upsert key row rows) := by
  rw [AiTeam.upsert]
  split
  · intro other hother
    rw [lookup_updateWhere_of_guard]
    · obtain ⟨old, hold, rfl⟩ := List.mem_map.mp hother
      by_cases hkey : key old = key row
      · rw [if_pos (by simpa using hkey), ← hkey, hrows old hold]
        simp [hkey]
      · rw [if_neg (by simpa using hkey), hrows old hold]
        simp [hkey]
    · intro old hold
      exact (of_decide_eq_true hold).symm
  · next hnone =>
      exact hrows.append (Option.not_isSome_iff_eq_none.mp hnone)

/-! ### Maps -/

variable {V : Type u}

/-- `map[key] = value`. -/
def assign (key : K) (value : V) (entries : List (K × V)) : List (K × V) :=
  entries.filter (fun entry => !decide (entry.1 = key)) ++ [(key, value)]

/-- `map.pop(key, None)`. -/
def discard (key : K) (entries : List (K × V)) : List (K × V) :=
  entries.filter fun entry => !decide (entry.1 = key)

/-- `map.get(key)`. -/
def valueAt (key : K) (entries : List (K × V)) : Option V :=
  (lookup Prod.fst key entries).map Prod.snd

theorem lookup_of_valueAt {key : K} {value : V} {entries : List (K × V)}
    (h : valueAt key entries = some value) :
    lookup Prod.fst key entries = some (key, value) := by
  rw [valueAt, Option.map_eq_some_iff] at h
  obtain ⟨entry, hentry, rfl⟩ := h
  rw [hentry, ← lookup_key hentry]

theorem valueAt_discard (key other : K) (entries : List (K × V)) :
    valueAt other (discard key entries) =
      if other = key then none else valueAt other entries := by
  unfold valueAt discard
  by_cases heq : other = key
  · rw [if_pos heq, lookup_filter_eq_none]
    · rfl
    · intro entry _ hentry
      simp [hentry, heq]
  · rw [if_neg heq, lookup_filter_of_forall]
    intro entry _ hentry
    simp [hentry, heq]

theorem valueAt_assign (key other : K) (value : V) (entries : List (K × V)) :
    valueAt other (assign key value entries) =
      if other = key then some value else valueAt other entries := by
  have hdiscard := valueAt_discard key other entries
  unfold valueAt discard at hdiscard
  unfold valueAt assign
  rw [lookup_append]
  by_cases heq : other = key
  · rw [if_pos heq] at hdiscard ⊢
    rw [Option.map_eq_none_iff.mp hdiscard, if_pos heq.symm]
    rfl
  · rw [if_neg heq] at hdiscard ⊢
    rw [if_neg (Ne.symm heq), Option.or_none, hdiscard]

/-- Counting after one element of a list was replaced. -/
theorem countP_modify {α : Type u} (p : α → Bool) (f : α → α) (l : List α)
    (i : Nat) {a : α} (h : l[i]? = some a) :
    (l.modify i f).countP p + (if p a then 1 else 0) =
      l.countP p + (if p (f a) then 1 else 0) := by
  induction l generalizing i with
  | nil => simp at h
  | cons head tail ih =>
      cases i with
      | zero =>
          simp only [List.getElem?_cons_zero, Option.some.injEq] at h
          subst h
          simp only [List.modify_zero_cons, List.countP_cons]
          omega
      | succ i =>
          simp only [List.getElem?_cons_succ] at h
          have htail := ih i h
          simp only [List.modify_succ_cons, List.countP_cons]
          omega

/-- No row goes, and each goes on as the relation allows. -/
def Lasts (key : R → K) (goesOn : R → R → Prop) (rows rows' : List R) : Prop :=
  ∀ k row, lookup key k rows = some row →
    ∃ row', lookup key k rows' = some row' ∧ goesOn row row'

namespace Lasts

variable {key : R → K} {goesOn : R → R → Prop}

theorem refl (hrefl : ∀ row, goesOn row row) (rows : List R) :
    Lasts key goesOn rows rows :=
  fun _ row hrow => ⟨row, hrow, hrefl row⟩

theorem trans (htrans : ∀ a b c, goesOn a b → goesOn b c → goesOn a c)
    {first middle last : List R} (h : Lasts key goesOn first middle)
    (h' : Lasts key goesOn middle last) : Lasts key goesOn first last := by
  intro k row hrow
  obtain ⟨row', hrow', hstep⟩ := h k row hrow
  obtain ⟨row'', hrow'', hstep'⟩ := h' k row' hrow'
  exact ⟨row'', hrow'', htrans _ _ _ hstep hstep'⟩

theorem append (hrefl : ∀ row, goesOn row row) (rows : List R) (row : R) :
    Lasts key goesOn rows (rows ++ [row]) := by
  intro k old hold
  refine ⟨old, ?_, hrefl old⟩
  rw [lookup_append, hold, Option.some_or]

theorem updateWhere (hrefl : ∀ row, goesOn row row) (rows : List R)
    (guard : R → Bool) {change : R → R}
    (hkey : ∀ row, key (change row) = key row)
    (hchange : ∀ row, goesOn row (change row)) :
    Lasts key goesOn rows (updateWhere guard change rows) := by
  intro k row hrow
  rw [lookup_updateWhere key k guard change hkey, hrow, Option.map_some]
  by_cases hguard : guard row = true
  · exact ⟨change row, by rw [if_pos hguard], hchange row⟩
  · exact ⟨row, by rw [if_neg hguard], hrefl row⟩

end Lasts

end AiTeam
