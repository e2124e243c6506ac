/-
Change feeds.  A log keeps for every key its current record and the number of
its latest change; numbers only grow.  A mirror reads a snapshot in pages and
then the changes above a mark, and what it has read stays right for every key
that has not changed since the mark.
-/
import Mathlib.Data.List.Sort
import Mathlib.Order.Lattice

namespace AiTeam.Feed

universe u v

variable {K : Type u} {V : Type v}

/-- `top` is the last number that was handed out. -/
structure Log (K : Type u) (V : Type v) where
  current : K → Option V
  seq : K → Option Nat
  top : Nat

/-- Every key was left alone or has a new number. -/
structure Log.Step (old new : Log K V) : Prop where
  top : old.top ≤ new.top
  keys : ∀ k, (new.current k = old.current k ∧ new.seq k = old.seq k) ∨
    ∃ n, new.seq k = some n ∧ old.top < n

theorem Log.Step.refl (log : Log K V) : log.Step log :=
  ⟨Nat.le_refl _, fun _ => .inl ⟨rfl, rfl⟩⟩

theorem Log.Step.trans {first second third : Log K V}
    (h : first.Step second) (h' : second.Step third) : first.Step third where
  top := Nat.le_trans h.top h'.top
  keys := by
    intro k
    rcases h'.keys k with ⟨hcurrent, hseq⟩ | ⟨n, hseq, hlater⟩
    · rcases h.keys k with ⟨hcurrent', hseq'⟩ | ⟨n, hseq', hnew⟩
      · exact .inl ⟨hcurrent.trans hcurrent', hseq.trans hseq'⟩
      · exact .inr ⟨n, hseq.trans hseq', hnew⟩
    · exact .inr ⟨n, hseq, Nat.lt_of_le_of_lt h.top hlater⟩

/-- For every key without a change above `mark`, the mirror has its record if
that was among those shown. -/
def Log.Shows (log : Log K V) (shown : V → Prop) (mark : Nat)
    (mirror : K → Option V) : Prop :=
  ∀ k, (∀ n, log.seq k = some n → n ≤ mark) →
    ∀ v, mirror k = some v ↔ log.current k = some v ∧ shown v

variable {mark : Nat} {mirror : K → Option V} {log : Log K V}

/-- Later changes have numbers above the mark. -/
theorem Log.Shows.step {old new : Log K V} {shown : V → Prop}
    (h : old.Shows shown mark mirror) (hstep : old.Step new)
    (hmark : mark ≤ old.top) : new.Shows shown mark mirror := by
  intro k hk
  rcases hstep.keys k with ⟨hcurrent, hseq⟩ | ⟨n, hseq, hlater⟩
  · rw [hcurrent]
    exact h k (hseq ▸ hk)
  · have hn := hk n hseq
    omega

/-- A page of the snapshot was read. -/
theorem Log.Shows.page {shown shown' : V → Prop} {mirror' : K → Option V}
    {taken : K → Prop} (h : log.Shows shown mark mirror)
    (htaken : ∀ k, taken k → mirror' k = log.current k)
    (hkept : ∀ k, ¬ taken k → mirror' k = mirror k)
    (hshown : ∀ k v, log.current k = some v →
      (shown' v ↔ shown v ∨ taken k)) : log.Shows shown' mark mirror' := by
  intro k hk v
  by_cases hpage : taken k
  · rw [htaken k hpage]
    exact ⟨fun hv => ⟨hv, (hshown k v hv).mpr (.inr hpage)⟩, fun hv => hv.1⟩
  · rw [hkept k hpage, h k hk v]
    constructor
    · exact fun hv => ⟨hv.1, (hshown k v hv.1).mpr (.inl hv.2)⟩
    · intro hv
      exact ⟨hv.1, ((hshown k v hv.1).mp hv.2).resolve_right hpage⟩

/-- The changes up to a new mark were applied. -/
theorem Log.Shows.changes {mark' : Nat} {mirror' : K → Option V}
    {taken : K → Prop} (h : log.Shows (fun _ => True) mark mirror)
    (htaken : ∀ k, taken k → mirror' k = log.current k)
    (hkept : ∀ k, ¬ taken k → mirror' k = mirror k)
    (hall : ∀ k n, log.seq k = some n → mark < n → n ≤ mark' → taken k) :
    log.Shows (fun _ => True) mark' mirror' := by
  intro k hk v
  by_cases hpage : taken k
  · rw [htaken k hpage, and_iff_left trivial]
  · rw [hkept k hpage]
    refine h k (fun n hn => ?_) v
    by_contra hlater
    exact hpage (hall k n hn (Nat.lt_of_not_le hlater) (hk n hn))

/-- A mirror with no change left to read is the log. -/
theorem Log.Shows.drained (h : log.Shows (fun _ => True) mark mirror)
    (hmark : ∀ k n, log.seq k = some n → n ≤ mark) : mirror = log.current := by
  funext k
  exact Option.ext fun v => by rw [h k (hmark k) v, and_iff_left trivial]

/-! ### Pages of a sorted list -/

section Pages

variable {A : Type u} {B : Type v} [LinearOrder B] (key : A → B)

variable {rows : List A}

omit [LinearOrder B] in
/-- A page that is cut off has a last row. -/
theorem exists_getLast_take {limit : Nat} (hlimit : 1 ≤ limit)
    (hlonger : limit < rows.length) :
    ∃ last, (rows.take limit).getLast? = some last := by
  refine Option.ne_none_iff_exists'.mp fun hnone => ?_
  rw [List.getLast?_eq_none_iff, List.take_eq_nil_iff] at hnone
  rcases hnone with hzero | hnil
  · omega
  · rw [hnil] at hlonger
    exact absurd hlonger (Nat.not_lt_zero _)

/-- The last element of a sorted list is its greatest. -/
theorem le_getLast_of_sorted (hsorted : rows.Pairwise fun a b => key a < key b)
    {last row : A} (hlast : rows.getLast? = some last) (hrow : row ∈ rows) :
    key row ≤ key last := by
  obtain ⟨init, rfl⟩ := List.getLast?_eq_some_iff.mp hlast
  rcases List.mem_append.mp hrow with hinit | hend
  · exact le_of_lt ((List.pairwise_append.mp hsorted).2.2 row hinit last
      (List.mem_singleton.mpr rfl))
  · rw [List.mem_singleton.mp hend]

/-- A page of a sorted list holds what does not come after its last row. -/
theorem mem_take_iff_of_sorted
    (hsorted : rows.Pairwise fun a b => key a < key b) {limit : Nat}
    {last row : A} (hlast : (rows.take limit).getLast? = some last)
    (hrow : row ∈ rows) : row ∈ rows.take limit ↔ key row ≤ key last := by
  have hsplit := List.take_append_drop limit rows
  rw [← hsplit] at hsorted hrow
  obtain ⟨htake, -, hcross⟩ := List.pairwise_append.mp hsorted
  constructor
  · exact le_getLast_of_sorted key htake hlast
  · intro hle
    rcases List.mem_append.mp hrow with hpage | hrest
    · exact hpage
    · have hlater := hcross last (List.mem_of_getLast? hlast) row hrest
      exact absurd hle (not_le_of_gt hlater)

/-- Sorting rows with different keys. -/
theorem pairwise_lt_insertionSort {r : A → A → Prop} [DecidableRel r]
    (hr : ∀ a b, r a b ↔ key a ≤ key b)
    (hne : rows.Pairwise fun a b => key a ≠ key b) :
    (rows.insertionSort r).Pairwise fun a b => key a < key b := by
  have htotal : Std.Total r := by
    refine ⟨fun a b => ?_⟩
    rw [hr, hr]
    exact le_total (key a) (key b)
  have htrans : IsTrans A r := by
    refine ⟨fun a b c hab hbc => ?_⟩
    rw [hr] at *
    exact le_trans hab hbc
  have hne' : (rows.insertionSort r).Pairwise fun a b => key a ≠ key b :=
    ((List.perm_insertionSort r rows).pairwise_iff fun hab =>
      Ne.symm hab).mpr hne
  exact (List.pairwise_insertionSort r rows).imp₂
    (fun a b hle hne => lt_of_le_of_ne ((hr a b).mp hle) hne) hne'

end Pages

end AiTeam.Feed
