/-
Computations that may fail: when a sequence, a guard or a traversal succeeds.
-/
import Mathlib.Data.List.Basic

namespace AiTeam.Fallible

universe u v

variable {ε α β : Type u}

variable {x : Except ε α} {b : α}

theorem bind_ok {f : α → Except ε β} {b : β} :
    (x >>= f) = .ok b ↔ ∃ a, x = .ok a ∧ f a = .ok b := by
  cases x with
  | error e => simp [bind, Except.bind]
  | ok a => simp [bind, Except.bind]

theorem map_ok {f : α → β} {b : β} :
    x.map f = .ok b ↔ ∃ a, x = .ok a ∧ f a = b := by
  cases x with
  | error e => simp [Except.map]
  | ok a => simp [Except.map]

theorem pure_ok {a : α} : (pure a : Except ε α) = .ok b ↔ a = b := by
  rw [pure, Applicative.toPure, Monad.toApplicative]
  exact Except.ok.injEq a b ▸ Iff.rfl

/-- A guard lets through when its condition fails. -/
theorem guard_ok {c : Prop} [Decidable c] {e : ε} :
    (if c then .error e else x) = .ok b ↔ ¬ c ∧ x = .ok b := by
  by_cases hc : c
  · simp [hc]
  · simp [hc]

theorem require_ok {c : Prop} [Decidable c] {e : ε} :
    (if c then x else .error e) = .ok b ↔ c ∧ x = .ok b := by
  by_cases hc : c
  · simp [hc]
  · simp [hc]

/-- A traversal whose steps return a function of the element. -/
theorem mapM_ok {f : α → Except ε β} {g : α → β}
    (hf : ∀ a b, f a = .ok b → b = g a) {items : List α} {out : List β} :
    items.mapM f = .ok out ↔
      (∀ a ∈ items, f a = .ok (g a)) ∧ out = items.map g := by
  induction items generalizing out with
  | nil =>
      rw [List.mapM_nil, pure_ok]
      simp [eq_comm]
  | cons a rest ih =>
      rw [List.mapM_cons, bind_ok]
      constructor
      · rintro ⟨b, hb, hrest⟩
        obtain ⟨tail, htail, hout⟩ := bind_ok.mp hrest
        obtain ⟨hall, rfl⟩ := ih.mp htail
        rw [pure_ok] at hout
        have hvalue := hf a b hb
        subst hvalue
        exact ⟨List.forall_mem_cons.mpr ⟨hb, hall⟩, hout.symm⟩
      · rintro ⟨hall, rfl⟩
        obtain ⟨hhead, hrest⟩ := List.forall_mem_cons.mp hall
        refine ⟨g a, hhead, bind_ok.mpr ⟨rest.map g, ?_, rfl⟩⟩
        exact ih.mpr ⟨hrest, rfl⟩

theorem forM_ok {f : α → Except ε PUnit.{u + 1}} {items : List α} :
    items.forM f = .ok PUnit.unit ↔ ∀ a ∈ items, f a = .ok PUnit.unit := by
  induction items with
  | nil => simp [pure, Except.pure]
  | cons a rest ih =>
      change (f a >>= fun _ => rest.forM f) = _ ↔ _
      rw [bind_ok, List.forall_mem_cons, ← ih]
      constructor
      · rintro ⟨⟨⟩, ha, hrest⟩
        exact ⟨ha, hrest⟩
      · rintro ⟨ha, hrest⟩
        exact ⟨_, ha, hrest⟩

end AiTeam.Fallible
