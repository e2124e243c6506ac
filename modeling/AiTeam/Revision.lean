/-
Tables whose rows carry a revision that every change raises: a row found with
one revision at two moments was there, the same, at every moment in between.
-/
import AiTeam.Table

namespace AiTeam

universe u v

variable {R : Type u} {K : Type v} [DecidableEq K] {key : R → K}
  {revision : R → Nat}

/-- No row goes, and a row that differs has a higher revision. -/
def Advances (key : R → K) (revision : R → Nat) (rows rows' : List R) : Prop :=
  ∀ k row, lookup key k rows = some row → ∃ row',
    lookup key k rows' = some row' ∧ (row' = row ∨ revision row < revision row')

namespace Advances

theorem refl (rows : List R) : Advances key revision rows rows :=
  fun _ row hrow => ⟨row, hrow, Or.inl rfl⟩

theorem trans {first middle last : List R}
    (h : Advances key revision first middle)
    (h' : Advances key revision middle last) :
    Advances key revision first last := by
  intro k row hrow
  obtain ⟨row', hrow', hchange⟩ := h k row hrow
  obtain ⟨row'', hrow'', hchange'⟩ := h' k row' hrow'
  refine ⟨row'', hrow'', ?_⟩
  rcases hchange with rfl | hless
  · exact hchange'
  · rcases hchange' with rfl | hless'
    · exact Or.inr hless
    · exact Or.inr (Nat.lt_trans hless hless')

theorem append (rows : List R) (row : R) :
    Advances key revision rows (rows ++ [row]) := by
  intro k old hold
  refine ⟨old, ?_, Or.inl rfl⟩
  rw [lookup_append, hold, Option.some_or]

theorem upsert {rows : List R} {row : R}
    (hraised : ∀ old, lookup key (key row) rows = some old →
      revision old < revision row) :
    Advances key revision rows (upsert key row rows) := by
  intro k old hold
  rw [lookup_upsert]
  by_cases hkey : key row = k
  · rw [if_pos hkey]
    rw [← hkey] at hold
    exact ⟨row, rfl, Or.inr (hraised old hold)⟩
  · rw [if_neg hkey]
    exact ⟨old, hold, Or.inl rfl⟩

theorem updateWhere (rows : List R) (guard : R → Bool) {change : R → R}
    (hkey : ∀ row, key (change row) = key row)
    (hraised : ∀ row, revision row < revision (change row)) :
    Advances key revision rows (updateWhere guard change rows) := by
  intro k row hrow
  rw [lookup_updateWhere key k guard change hkey, hrow, Option.map_some]
  by_cases hguard : guard row = true
  · exact ⟨change row, by rw [if_pos hguard], Or.inr (hraised row)⟩
  · exact ⟨row, by rw [if_neg hguard], Or.inl rfl⟩

/-- The row was not touched in between. -/
theorem unchanged {middle last : List R} {k : K} {row : R} {least : Nat}
    (h : Advances key revision middle last)
    (hlast : lookup key k last = some row) (hleast : revision row = least)
    (hmiddle : ∃ old, lookup key k middle = some old ∧
      least ≤ revision old) :
    lookup key k middle = some row := by
  obtain ⟨old, hold, hbound⟩ := hmiddle
  obtain ⟨row', hrow', hchange⟩ := h k old hold
  rw [hlast, Option.some.injEq] at hrow'
  subst hrow'
  rcases hchange with rfl | hless
  · exact hold
  · omega

end Advances

end AiTeam
