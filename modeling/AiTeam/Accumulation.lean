/-
Accumulating a list in a dictionary: one entry per key, in the order in which
the keys are first seen.
-/
import Mathlib.Algebra.BigOperators.Group.List.Basic
import Mathlib.Data.List.Induction
import Mathlib.Data.List.Nodup

namespace AiTeam.Accumulation

variable {α κ β : Type} [DecidableEq κ]

/-- `dict[key] = change(dict.get(key))`. -/
def modify (key : κ) (change : Option β → β) :
    List (κ × β) → List (κ × β)
  | [] => [(key, change none)]
  | entry :: rest =>
      if entry.1 = key then (key, change (some entry.2)) :: rest
      else entry :: modify key change rest

/-- A new key starts with `first`, a known one goes on with `step`. -/
def extend (first : α → β) (step : β → α → β) (item : α) :
    Option β → β
  | none => first item
  | some value => step value item

def accumulate (key : α → κ) (first : α → β) (step : β → α → β)
    (items : List α) : List (κ × β) :=
  items.foldl
    (fun dict item => modify (key item) (extend first step item) dict) []

/-- The items of a key. -/
def group (key : α → κ) (items : List α) (k : κ) : List α :=
  items.filter (key · = k)

variable {key : κ} {change : Option β → β} {dict : List (κ × β)}

theorem mem_keys_modify {k : κ} :
    k ∈ (modify key change dict).map Prod.fst ↔
      k = key ∨ k ∈ dict.map Prod.fst := by
  induction dict with
  | nil => simp [modify]
  | cons entry rest ih =>
      rw [modify]
      split
      · next heq => simp [heq]
      · rw [List.map_cons, List.mem_cons, ih, List.map_cons, List.mem_cons]
        exact or_left_comm

theorem nodup_keys_modify (hnodup : (dict.map Prod.fst).Nodup) :
    ((modify key change dict).map Prod.fst).Nodup := by
  induction dict with
  | nil => exact List.nodup_singleton key
  | cons entry rest ih =>
      rw [List.map_cons, List.nodup_cons] at hnodup
      rw [modify]
      split
      · next heq =>
          rw [List.map_cons, List.nodup_cons, ← heq]
          exact hnodup
      · next hne =>
          rw [List.map_cons, List.nodup_cons, mem_keys_modify]
          refine ⟨?_, ih hnodup.2⟩
          rintro (heq | hmem)
          · exact hne heq
          · exact hnodup.1 hmem

/-- An entry after a change is the changed one or an old one of another key. -/
theorem mem_modify (hnodup : (dict.map Prod.fst).Nodup) {entry : κ × β}
    (h : entry ∈ modify key change dict) :
    (entry ∈ dict ∧ entry.1 ≠ key) ∨
      (∃ old, (key, old) ∈ dict ∧ entry = (key, change (some old))) ∨
      (key ∉ dict.map Prod.fst ∧ entry = (key, change none)) := by
  induction dict with
  | nil => exact Or.inr (Or.inr ⟨List.not_mem_nil, List.mem_singleton.mp h⟩)
  | cons head rest ih =>
      rw [List.map_cons, List.nodup_cons] at hnodup
      rw [modify] at h
      split at h
      · next heq =>
          rcases List.mem_cons.mp h with rfl | h
          · refine Or.inr (Or.inl ⟨head.2, ?_, rfl⟩)
            rw [← heq]
            exact List.mem_cons_self
          · refine Or.inl ⟨List.mem_cons_of_mem _ h, ?_⟩
            intro hkey
            apply hnodup.1
            rw [heq, ← hkey]
            exact List.mem_map_of_mem h
      · next hne =>
          rcases List.mem_cons.mp h with rfl | h
          · exact Or.inl ⟨List.mem_cons_self, hne⟩
          · rcases ih hnodup.2 h with ⟨hmem, hkey⟩ | ⟨old, hmem, rfl⟩ |
              ⟨hnew, rfl⟩
            · exact Or.inl ⟨List.mem_cons_of_mem _ hmem, hkey⟩
            · exact Or.inr (Or.inl ⟨old, List.mem_cons_of_mem _ hmem, rfl⟩)
            · refine Or.inr (Or.inr ⟨?_, rfl⟩)
              rw [List.map_cons, List.mem_cons]
              rintro (heq | hmem)
              · exact hne heq.symm
              · exact hnew hmem

section

variable {key : α → κ} {first : α → β} {step : β → α → β}

theorem accumulate_append (items : List α) (item : α) :
    accumulate key first step (items ++ [item]) =
      modify (key item) (extend first step item)
        (accumulate key first step items) := by
  rw [accumulate, List.foldl_append]
  rfl

theorem mem_keys_accumulate {items : List α} {k : κ} :
    k ∈ (accumulate key first step items).map Prod.fst ↔
      ∃ item ∈ items, key item = k := by
  induction items using List.reverseRecOn with
  | nil => simp [accumulate]
  | append_singleton items item ih =>
      rw [accumulate_append, mem_keys_modify, ih]
      simp [or_comm, or_and_right, exists_or, eq_comm]

theorem nodup_keys_accumulate (items : List α) :
    ((accumulate key first step items).map Prod.fst).Nodup := by
  induction items using List.reverseRecOn with
  | nil => exact List.nodup_nil
  | append_singleton items item ih =>
      rw [accumulate_append]
      exact nodup_keys_modify ih

/-- What one item establishes and every further one preserves holds of each
entry and the items of its key. -/
theorem accumulate_induction (P : β → List α → Prop)
    (hfirst : ∀ item, P (first item) [item])
    (hstep : ∀ value items item, P value items →
      P (step value item) (items ++ [item]))
    (items : List α) :
    ∀ entry ∈ accumulate key first step items,
      P entry.2 (group key items entry.1) := by
  induction items using List.reverseRecOn with
  | nil => exact fun _ hentry => absurd hentry List.not_mem_nil
  | append_singleton items item ih =>
      intro entry hentry
      rw [accumulate_append] at hentry
      rcases mem_modify (nodup_keys_accumulate items) hentry with
        ⟨hmem, hkey⟩ | ⟨old, hmem, rfl⟩ | ⟨hnew, rfl⟩
      · have hsame : group key (items ++ [item]) entry.1 =
            group key items entry.1 := by
          simp [group, List.filter_append, Ne.symm hkey]
        rw [hsame]
        exact ih entry hmem
      · have hmore : group key (items ++ [item]) (key item) =
            group key items (key item) ++ [item] := by
          simp [group, List.filter_append]
        rw [hmore]
        exact hstep _ _ _ (ih _ hmem)
      · have honly : group key (items ++ [item]) (key item) = [item] := by
          rw [group, List.filter_append, List.filter_eq_nil_iff.mpr]
          · simp
          · intro other hother heq
            exact hnew (mem_keys_accumulate.mpr
              ⟨other, hother, of_decide_eq_true heq⟩)
        rw [honly]
        exact hfirst item

end

/-- A sum over items is the sum over the groups of distinct keys that take in
every item. -/
theorem sum_groups {M : Type} [AddCommMonoid M] (key : α → κ) (g : α → M)
    {keys : List κ} (hnodup : keys.Nodup) (items : List α)
    (hcover : ∀ item ∈ items, key item ∈ keys) :
    (keys.map fun k => ((group key items k).map g).sum).sum =
      (items.map g).sum := by
  induction items with
  | nil => simp [group]
  | cons item items ih =>
      have hitems := ih fun other hother =>
        hcover other (List.mem_cons_of_mem _ hother)
      have hsplit : ∀ k, ((group key (item :: items) k).map g).sum =
          (if k = key item then g item else 0) +
            ((group key items k).map g).sum := by
        intro k
        by_cases heq : key item = k
        · simp [group, heq]
        · simp [group, heq, Ne.symm heq]
      have honce : (keys.map fun k => if k = key item then g item else 0).sum
          = g item := by
        rw [List.sum_map_eq_nsmul_single (key item)]
        · rw [List.count_eq_one_of_mem hnodup
            (hcover item List.mem_cons_self), if_pos rfl, one_nsmul]
        · intro k hne _
          exact if_neg hne
      simp only [hsplit]
      rw [List.sum_map_add, honce, hitems, List.map_cons, List.sum_cons]

/-- Values that are the sums of their groups add up to the sum of all. -/
theorem sum_accumulate {M : Type} [AddCommMonoid M] {key : α → κ}
    {first : α → β} {step : β → α → β} {items : List α} (f : β → M)
    (g : α → M)
    (hvalue : ∀ entry ∈ accumulate key first step items,
      f entry.2 = ((group key items entry.1).map g).sum) :
    ((accumulate key first step items).map fun entry => f entry.2).sum =
      (items.map g).sum := by
  have hcover : ∀ item ∈ items,
      key item ∈ (accumulate key first step items).map Prod.fst :=
    fun item hitem => mem_keys_accumulate.mpr ⟨item, hitem, rfl⟩
  have hgroups := sum_groups key g (nodup_keys_accumulate items) items hcover
  rw [List.map_map] at hgroups
  rw [List.map_congr_left hvalue]
  exact hgroups

end AiTeam.Accumulation
