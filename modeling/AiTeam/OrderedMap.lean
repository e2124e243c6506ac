/-
Maps kept as lists in the order of their keys.  Lookups are `valueAt`; the
order matters only to what is found by rank.
-/
import Mathlib.Order.Lattice
import AiTeam.Table

namespace AiTeam.OrderedMap

universe u v

variable {K : Type u} {V : Type v}

/-- The last entry of the highest rank. -/
def lastMax (rank : V → Nat) : List V → Option V
  | [] => none
  | value :: rest =>
      match lastMax rank rest with
      | none => some value
      | some other => if rank other < rank value then some value else some other

theorem lastMax_mem {rank : V → Nat} {values : List V} {value : V}
    (h : lastMax rank values = some value) : value ∈ values := by
  induction values with
  | nil => exact nomatch h
  | cons head tail ih =>
      rw [lastMax] at h
      split at h
      · rw [Option.some.inj h]
        exact List.mem_cons_self
      · next other hother =>
          split at h
          · rw [Option.some.inj h]
            exact List.mem_cons_self
          · exact List.mem_cons_of_mem _ (ih (hother.trans h))

theorem lastMax_none {rank : V → Nat} {values : List V}
    (h : lastMax rank values = none) : values = [] := by
  cases values with
  | nil => rfl
  | cons head tail =>
      rw [lastMax] at h
      split at h
      · exact nomatch h
      · split at h <;> exact nomatch h

section

variable [DecidableEq K]

theorem valueAt_append_cons (key other : K) (value : V)
    (left right : List (K × V)) :
    valueAt other (left ++ (key, value) :: right) =
      (valueAt other left).or
        (if key = other then some value else valueAt other right) := by
  unfold valueAt
  rw [lookup, List.find?_append, List.find?_cons]
  by_cases heq : key = other
  · subst heq
    cases hleft : List.find? (fun row => decide (row.1 = key)) left <;>
      simp [lookup, hleft]
  · cases hleft : List.find? (fun row => decide (row.1 = other)) left <;>
      simp [lookup, hleft, heq]

end

variable [LinearOrder K]

def insert (key : K) (value : V) (entries : List (K × V)) : List (K × V) :=
  entries.filter (·.1 < key) ++
    (key, value) :: entries.filter (key < ·.1)

theorem mem_insert {key : K} {value : V} {entries : List (K × V)}
    {entry : K × V} (h : entry ∈ insert key value entries) :
    entry = (key, value) ∨ entry ∈ entries ∧ entry.1 ≠ key := by
  rcases List.mem_append.mp h with hlow | hrest
  · obtain ⟨hmem, hlt⟩ := List.mem_filter.mp hlow
    exact Or.inr ⟨hmem, (of_decide_eq_true hlt).ne⟩
  · rcases List.mem_cons.mp hrest with rfl | hhigh
    · exact Or.inl rfl
    · obtain ⟨hmem, hlt⟩ := List.mem_filter.mp hhigh
      exact Or.inr ⟨hmem, (of_decide_eq_true hlt).ne'⟩

variable [DecidableEq K]

theorem valueAt_insert (key other : K) (value : V) (entries : List (K × V)) :
    valueAt other (insert key value entries) =
      if other = key then some value else valueAt other entries := by
  have hside : ∀ keep : K × V → Bool,
      (∀ entry ∈ entries, entry.1 = other → keep entry = false) →
      valueAt other (entries.filter keep) = none := by
    intro keep hdrop
    rw [valueAt, lookup_filter_eq_none _ _ _ _ hdrop]
    rfl
  have hsame : ∀ keep : K × V → Bool,
      (∀ entry ∈ entries, entry.1 = other → keep entry = true) →
      valueAt other (entries.filter keep) = valueAt other entries := by
    intro keep hkeep
    rw [valueAt, lookup_filter_of_forall _ _ _ _ hkeep, valueAt]
  rw [insert, valueAt_append_cons]
  rcases lt_trichotomy other key with hlt | rfl | hgt
  · rw [hsame _ fun entry _ hkey => by simpa [hkey] using hlt,
      if_neg hlt.ne', hside _ fun entry _ hkey => by simpa [hkey] using hlt.le,
      Option.or_none, if_neg hlt.ne]
  · rw [hside _ fun entry _ hkey => by simp [hkey], if_pos rfl, if_pos rfl]
    rfl
  · rw [hside _ fun entry _ hkey => by simpa [hkey] using hgt.le,
      if_neg hgt.ne, hsame _ fun entry _ hkey => by simpa [hkey] using hgt,
      if_neg hgt.ne']
    rfl

theorem Keyed.insert {entries : List (K × V)} (h : Keyed Prod.fst entries)
    (key : K) (value : V) : Keyed Prod.fst (insert key value entries) := by
  intro entry hentry
  have hvalue : valueAt entry.1 (OrderedMap.insert key value entries) =
      some entry.2 := by
    rw [valueAt_insert]
    rcases List.mem_append.mp hentry with hlow | hrest
    · obtain ⟨hmem, hlt⟩ := List.mem_filter.mp hlow
      have hne : entry.1 ≠ key := (of_decide_eq_true hlt).ne
      rw [if_neg hne, valueAt, h entry hmem]
      rfl
    · rcases List.mem_cons.mp hrest with rfl | hhigh
      · exact if_pos rfl
      · obtain ⟨hmem, hlt⟩ := List.mem_filter.mp hhigh
        have hne : entry.1 ≠ key := (of_decide_eq_true hlt).ne'
        rw [if_neg hne, valueAt, h entry hmem]
        rfl
  exact lookup_of_valueAt hvalue

end AiTeam.OrderedMap
