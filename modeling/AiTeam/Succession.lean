/-
Occurrences found one after another.  Asking again and again for the next one
reaches every occurrence up to a limit, provided each answer up to that limit is
the nearest occurrence.
-/
import Mathlib.Data.Int.LeastGreatest
import Mathlib.Logic.Relation
import Mathlib.Order.Bounds.Basic

namespace AiTeam.Succession

/-- The occurrences after an instant. -/
def After (occurs : Set Int) (instant : Int) : Set Int :=
  {s | s ∈ occurs ∧ instant < s}

/-- The occurrences of the half-open interval `(start, limit]`. -/
def Between (occurs : Set Int) (start limit : Int) : Set Int :=
  {s | s ∈ occurs ∧ start < s ∧ s ≤ limit}

/-- Up to the limit, `follows` leads from the start and from each occurrence to
the nearest occurrence after it. -/
structure Nearest (follows : Int → Int → Prop) (occurs : Set Int)
    (start limit : Int) : Prop where
  later : ∀ a b, follows a b → a < b
  least : ∀ a, a = start ∨ a ∈ After occurs start → ∀ b, b ≤ limit →
    (follows a b ↔ IsLeast (After occurs a) b)

variable {follows : Int → Int → Prop} {occurs : Set Int} {start limit : Int}

theorem exists_least_after {instant s : Int} (hs : s ∈ After occurs instant) :
    ∃ least, IsLeast (After occurs instant) least := by
  have hbound : ∃ b, ∀ z, z ∈ After occurs instant → b ≤ z :=
    ⟨instant, fun _ hz => hz.2.le⟩
  obtain ⟨least, hmem, hleast⟩ := Int.exists_least_of_bdd hbound ⟨s, hs⟩
  exact ⟨least, hmem, fun z hz => hleast z hz⟩

section

variable (hnearest : Nearest follows occurs start limit)
include hnearest

theorem Nearest.mem_of_reaches {q : Int}
    (hreach : Relation.TransGen follows start q) (hq : q ≤ limit) :
    q ∈ After occurs start := by
  induction hreach with
  | single hfollow =>
      exact ((hnearest.least _ (Or.inl rfl) _ hq).mp hfollow).1
  | tail hreach hfollow ih =>
      have hlt := hnearest.later _ _ hfollow
      have hmid := ih (hlt.le.trans hq)
      have hnext :=
        ((hnearest.least _ (Or.inr hmid) _ hq).mp hfollow).1
      exact ⟨hnext.1, hmid.2.trans hlt⟩

/-- From an instant that is the start or an occurrence, every later occurrence
up to the limit is reached: the induction is on the time that lies between. -/
theorem Nearest.reaches_of_mem {q : Int} (hq : q ≤ limit) (n : Nat) :
    ∀ a, a = start ∨ a ∈ After occurs start → q ∈ After occurs a →
      (q - a).toNat = n → Relation.TransGen follows a q := by
  induction n using Nat.strong_induction_on with
  | h n ih =>
      intro a ha hmem hn
      obtain ⟨b, hb⟩ := exists_least_after hmem
      have hbq : b ≤ q := hb.2 hmem
      have hfollow := (hnearest.least a ha b (hbq.trans hq)).mpr hb
      rcases hbq.eq_or_lt with rfl | hlt
      · exact Relation.TransGen.single hfollow
      · have hab : a < b := hb.1.2
        have hstart : start ≤ a := ha.elim (fun h => h.ge) (fun h => h.2.le)
        have hrest := ih (q - b).toNat (by omega) b
          (Or.inr ⟨hb.1.1, hstart.trans_lt hab⟩) ⟨hmem.1, hlt⟩ rfl
        exact Relation.TransGen.head hfollow hrest

/-- What was reached up to the limit is what occurred since the start. -/
theorem Nearest.reached_eq :
    {q | Relation.TransGen follows start q ∧ q ≤ limit} =
      Between occurs start limit := by
  ext q
  constructor
  · rintro ⟨hreach, hq⟩
    have hmem := hnearest.mem_of_reaches hreach hq
    exact ⟨hmem.1, hmem.2, hq⟩
  · rintro ⟨hmem, hlt, hq⟩
    exact ⟨hnearest.reaches_of_mem hq _ start (Or.inl rfl) ⟨hmem, hlt⟩ rfl, hq⟩

/-- There is a next one up to the limit exactly when something occurred. -/
theorem Nearest.exists_next_iff :
    (∃ q, follows start q ∧ q ≤ limit) ↔
      (Between occurs start limit).Nonempty := by
  constructor
  · rintro ⟨q, hfollow, hq⟩
    have hmem := ((hnearest.least start (Or.inl rfl) q hq).mp hfollow).1
    exact ⟨q, hmem.1, hmem.2, hq⟩
  · rintro ⟨s, hmem, hlt, hs⟩
    obtain ⟨q, hleast⟩ := exists_least_after ⟨hmem, hlt⟩
    have hq : q ≤ limit := (hleast.2 ⟨hmem, hlt⟩).trans hs
    exact ⟨q, (hnearest.least start (Or.inl rfl) q hq).mpr hleast, hq⟩

end

end AiTeam.Succession
