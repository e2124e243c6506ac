/-
Bisection for the first position of a range that passes a test: what it asks,
and that it finds the first one exactly when every later position it asks about
passes too.
-/
import Mathlib.Data.List.Basic

namespace AiTeam.Bisection

/-- So many rounds of the search in `low..high`. -/
def bisect (passes : Nat → Bool) : Nat → Nat → Nat → Nat
  | 0, low, _ => low
  | rounds + 1, low, high =>
      if low < high then
        let middle := (low + high) / 2
        if passes middle then bisect passes rounds low middle
        else bisect passes rounds (middle + 1) high
      else low

/-- The positions that a search for `target` in `low..high` asks about. -/
def asked (target : Nat) : Nat → Nat → Nat → List Nat
  | 0, _, _ => []
  | rounds + 1, low, high =>
      if low < high then
        let middle := (low + high) / 2
        middle :: if target ≤ middle then asked target rounds low middle
          else asked target rounds (middle + 1) high
      else []

variable {passes : Nat → Bool}

theorem le_bisect (rounds : Nat) : ∀ low high : Nat,
    low ≤ bisect passes rounds low high := by
  induction rounds with
  | zero => exact fun low _ => Nat.le_refl low
  | succ rounds ih =>
      intro low high
      rw [bisect]
      by_cases hlt : low < high
      · rw [if_pos hlt]
        dsimp only
        by_cases hpass : passes ((low + high) / 2) = true
        · rw [if_pos hpass]
          exact ih low _
        · rw [if_neg hpass]
          have hrest := ih ((low + high) / 2 + 1) high
          omega
      · exact Nat.le_of_eq (if_neg hlt).symm

/-- Where nothing before the target passes, the search finds the target, or it
asked about a later position that does not pass and ends behind it. -/
theorem bisect_cases {target : Nat} (rounds : Nat) : ∀ {low high : Nat},
    high - low ≤ rounds → low ≤ target → target ≤ high →
    (∀ k, low ≤ k → k < target → passes k = false) →
    (bisect passes rounds low high = target ∧
        ∀ q ∈ asked target rounds low high, target ≤ q → passes q = true) ∨
      ∃ q ∈ asked target rounds low high, target ≤ q ∧ passes q = false ∧
        q < bisect passes rounds low high := by
  induction rounds with
  | zero =>
      intro low high hrounds hlow hhigh _
      left
      refine ⟨?_, fun q hq => (nomatch hq)⟩
      rw [bisect]
      omega
  | succ rounds ih =>
      intro low high hrounds hlow hhigh hbefore
      rw [bisect, asked]
      by_cases hlt : low < high
      · rw [if_pos hlt, if_pos hlt]
        dsimp only
        by_cases hpass : passes ((low + high) / 2) = true
        · have htarget : target ≤ (low + high) / 2 := by
            by_contra hafter
            have hfalse := hbefore ((low + high) / 2) (by omega) (by omega)
            exact Bool.false_ne_true (hfalse.symm.trans hpass)
          rw [if_pos hpass, if_pos htarget]
          rcases ih (by omega) hlow htarget hbefore with
            ⟨hfound, hasked⟩ | ⟨q, hq, hlate⟩
          · exact .inl ⟨hfound, List.forall_mem_cons.mpr
              ⟨fun _ => hpass, hasked⟩⟩
          · exact .inr ⟨q, List.mem_cons_of_mem _ hq, hlate⟩
        · rw [if_neg hpass]
          by_cases htarget : target ≤ (low + high) / 2
          · right
            refine ⟨_, List.mem_cons_self, htarget,
              Bool.eq_false_iff.mpr hpass, ?_⟩
            exact le_bisect rounds _ high
          · rw [if_neg htarget]
            rcases @ih ((low + high) / 2 + 1) high (by omega) (by omega) hhigh
                (fun k hk => hbefore k (by omega)) with
              ⟨hfound, hasked⟩ | ⟨q, hq, hlate⟩
            · exact .inl ⟨hfound, List.forall_mem_cons.mpr
                ⟨fun h => absurd h htarget, hasked⟩⟩
            · exact .inr ⟨q, List.mem_cons_of_mem _ hq, hlate⟩
      · rw [if_neg hlt, if_neg hlt]
        exact .inl ⟨by omega, fun q hq => (nomatch hq)⟩

end AiTeam.Bisection
