/-
A bounded memory of keys with expiry times: what has expired is forgotten
first, and when the memory is full the key that expires first makes room.
-/
import AiTeam.Table

namespace AiTeam.Remembered

universe u

variable {K : Type u}

/-- Forget what has expired, `slack` included. -/
def prune (slack now : Int) (seen : List (K × Int)) : List (K × Int) :=
  seen.filter fun entry => !decide (entry.2 + slack < now)

/-- The first entry with the least expiry. -/
def oldest : List (K × Int) → Option (K × Int)
  | [] => none
  | entry :: rest =>
      match oldest rest with
      | some other => if other.2 < entry.2 then some other else some entry
      | none => some entry

variable {seen : List (K × Int)} {entry : K × Int} {limit : Nat}

theorem mem_prune {slack now : Int} :
    entry ∈ prune slack now seen ↔ entry ∈ seen ∧ now ≤ entry.2 + slack := by
  rw [prune, List.mem_filter]
  simp

theorem oldest_eq_none (h : oldest seen = none) : seen = [] := by
  cases seen with
  | nil => rfl
  | cons entry rest =>
      simp only [oldest] at h
      split at h
      · split at h <;> exact nomatch h
      · exact nomatch h

theorem oldest_spec (h : oldest seen = some entry) :
    entry ∈ seen ∧ ∀ other ∈ seen, entry.2 ≤ other.2 := by
  induction seen generalizing entry with
  | nil => exact nomatch h
  | cons head tail ih =>
      simp only [oldest] at h
      split at h
      · next found hfound =>
          obtain ⟨hmem, hleast⟩ := ih hfound
          split at h
          · next hlt =>
              rw [← Option.some.inj h]
              refine ⟨List.mem_cons_of_mem _ hmem, ?_⟩
              intro other hother
              rcases List.mem_cons.mp hother with rfl | htail
              · omega
              · exact hleast other htail
          · next hge =>
              rw [← Option.some.inj h]
              refine ⟨List.mem_cons_self, ?_⟩
              intro other hother
              rcases List.mem_cons.mp hother with rfl | htail
              · omega
              · have := hleast other htail
                omega
      · next hnone =>
          rw [← Option.some.inj h, oldest_eq_none hnone]
          simp

/-- The entry that has to go before another one is remembered. -/
def crowded (limit : Nat) (seen : List (K × Int)) : Option (K × Int) :=
  if limit ≤ seen.length then oldest seen else none

theorem crowded_spec (h : crowded limit seen = some entry) :
    limit ≤ seen.length ∧ entry ∈ seen ∧
      ∀ other ∈ seen, entry.2 ≤ other.2 := by
  unfold crowded at h
  split at h
  · next hfull => exact ⟨hfull, oldest_spec h⟩
  · exact nomatch h

/-- One key, one entry. -/
def Unique (seen : List (K × Int)) : Prop :=
  ∀ first ∈ seen, ∀ second ∈ seen, first.1 = second.1 → first = second

theorem Unique.of_subset {small big : List (K × Int)} (h : Unique big)
    (hsub : ∀ entry ∈ small, entry ∈ big) : Unique small :=
  fun first hfirst second hsecond =>
    h first (hsub first hfirst) second (hsub second hsecond)

variable [DecidableEq K]

def makeRoom (limit : Nat) (seen : List (K × Int)) : List (K × Int) :=
  match crowded limit seen with
  | some entry => discard entry.1 seen
  | none => seen

/-- Remember a key that is not in the memory yet. -/
def remember (limit : Nat) (key : K) (expiry : Int) (seen : List (K × Int)) :
    List (K × Int) :=
  makeRoom limit seen ++ [(key, expiry)]

theorem mem_makeRoom (h : entry ∈ makeRoom limit seen) : entry ∈ seen := by
  unfold makeRoom at h
  split at h
  · exact (List.mem_filter.mp h).1
  · exact h

/-- Making room keeps every entry but the one that has to go. -/
theorem mem_makeRoom_or (hunique : Unique seen) (h : entry ∈ seen) :
    entry ∈ makeRoom limit seen ∨ crowded limit seen = some entry := by
  unfold makeRoom
  split
  · next found hfound =>
      by_cases hkey : entry.1 = found.1
      · right
        rw [hfound, hunique entry h found (crowded_spec hfound).2.1 hkey]
      · left
        exact List.mem_filter.mpr ⟨h, by simpa using hkey⟩
  · exact Or.inl h

theorem Unique.remember (hunique : Unique seen) {key : K} {expiry : Int}
    (hfresh : ∀ entry ∈ seen, entry.1 ≠ key) :
    Unique (remember limit key expiry seen) := by
  have hold : ∀ entry ∈ makeRoom limit seen, entry.1 ≠ key :=
    fun entry hentry => hfresh entry (mem_makeRoom hentry)
  intro first hfirst second hsecond hkey
  rcases List.mem_append.mp hfirst with hfirst | hfirst
  · rcases List.mem_append.mp hsecond with hsecond | hsecond
    · exact hunique first (mem_makeRoom hfirst) second (mem_makeRoom hsecond)
        hkey
    · rw [List.mem_singleton.mp hsecond] at hkey
      exact absurd hkey (hold first hfirst)
  · rcases List.mem_append.mp hsecond with hsecond | hsecond
    · rw [List.mem_singleton.mp hfirst] at hkey
      exact absurd hkey.symm (hold second hsecond)
    · rw [List.mem_singleton.mp hfirst, List.mem_singleton.mp hsecond]

end AiTeam.Remembered
