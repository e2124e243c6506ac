/-
Forests given by a parent function: the ancestors of a node, its depth, the
height below it, and how both bound a forest when one node is hung elsewhere.
-/
import Mathlib.Logic.Function.Basic
import Mathlib.Order.Basic

namespace AiTeam.Forest

universe u

variable {α : Type u}

/-- The ancestor `n` levels up. -/
def up (parent : α → Option α) : Nat → α → Option α
  | 0, node => some node
  | n + 1, node => (parent node).bind (up parent n)

variable {parent : α → Option α}

variable {node above : α} {n m depth height : Nat} {parent' : α → Option α}

theorem up_succ_of_some (h : parent node = some above) :
    up parent (n + 1) node = up parent n above := by
  rw [up, h, Option.bind_some]

theorem up_succ_of_none (h : parent node = none) :
    up parent (n + 1) node = none := by
  rw [up, h, Option.bind_none]

theorem up_add (m n : Nat) (node : α) :
    up parent (m + n) node = (up parent m node).bind (up parent n) := by
  induction m generalizing node with
  | zero => rw [Nat.zero_add, up, Option.bind_some]
  | succ m ih =>
      rw [Nat.succ_add, up, up, Option.bind_assoc]
      exact congrArg (parent node).bind (funext ih)

theorem up_add_of_some (h : up parent m node = some above) :
    up parent (m + n) node = up parent n above := by
  rw [up_add, h, Option.bind_some]

/-- The last step up. -/
theorem exists_of_up_succ (h : up parent (n + 1) node = some above) :
    ∃ below, up parent n node = some below ∧ parent below = some above := by
  rw [up_add] at h
  obtain ⟨below, hbelow, hlast⟩ := Option.bind_eq_some_iff.mp h
  obtain ⟨found, hfound, hself⟩ := Option.bind_eq_some_iff.mp hlast
  exact ⟨below, hbelow, hfound.trans hself⟩

theorem up_eq_none_of_le (h : up parent m node = none) (hle : m ≤ n) :
    up parent n node = none := by
  obtain ⟨more, rfl⟩ := Nat.exists_eq_add_of_le hle
  rw [up_add, h, Option.bind_none]

/-- A node with an ancestor `n` levels up is at most `n` levels short. -/
theorem lt_of_up_none (hsome : up parent m node = some above)
    (hnone : up parent n node = none) : m < n := by
  rcases Nat.lt_or_ge m n with hlt | hge
  · exact hlt
  · rw [up_eq_none_of_le hnone hge] at hsome
    exact absurd hsome.symm (Option.some_ne_none above)

/-- No node is its own proper ancestor. -/
def Acyclic (parent : α → Option α) : Prop :=
  ∀ node n, up parent (n + 1) node ≠ some node

/-- Every node runs out of ancestors. -/
def Grounded (parent : α → Option α) : Prop :=
  ∀ node, ∃ n, up parent n node = none

theorem Grounded.of_bound {bound : Nat}
    (h : ∀ node, up parent bound node = none) : Grounded parent :=
  fun node => ⟨bound, h node⟩

theorem up_mul_of_cycle (h : up parent n node = some node) (times : Nat) :
    up parent (n * times) node = some node := by
  induction times with
  | zero => rfl
  | succ times ih => rw [Nat.mul_succ, up_add_of_some ih, h]

theorem Grounded.acyclic (h : Grounded parent) : Acyclic parent := by
  intro node n hcycle
  obtain ⟨limit, hnone⟩ := h node
  have hlong := lt_of_up_none (up_mul_of_cycle hcycle limit) hnone
  have hle : limit ≤ (n + 1) * limit := Nat.le_mul_of_pos_left limit (by omega)
  omega

/-- Distances to an ancestor are unique. -/
theorem Acyclic.distance_eq (h : Acyclic parent)
    (hm : up parent m node = some above) (hn : up parent n node = some above) :
    m = n := by
  have hlt : ∀ {m n : Nat}, up parent m node = some above →
      up parent n node = some above → ¬ m < n := by
    intro m n hm hn hlt
    obtain ⟨more, rfl⟩ := Nat.exists_eq_add_of_lt hlt
    rw [Nat.add_assoc, up_add_of_some hm] at hn
    exact h above more hn
  exact Nat.le_antisymm (Nat.le_of_not_lt (hlt hn hm))
    (Nat.le_of_not_lt (hlt hm hn))

/-! ### Depth and height -/

/-- The node has `depth` levels of ancestors, itself included. -/
structure IsDepth (parent : α → Option α) (node : α) (depth : Nat) : Prop where
  ends : up parent depth node = none
  minimal : ∀ n < depth, (up parent n node).isSome

/-- `height` levels hang from the node, itself included. -/
structure IsHeight (parent : α → Option α) (node : α) (height : Nat) :
    Prop where
  reached : ∃ n below, height = n + 1 ∧ up parent n below = some node
  maximal : ∀ n below, up parent n below = some node → n < height

theorem IsDepth.child (h : IsDepth parent above depth)
    (habove : parent node = some above) : IsDepth parent node (depth + 1) := by
  refine ⟨by rw [up_succ_of_some habove, h.ends], ?_⟩
  intro n hn
  cases n with
  | zero => rfl
  | succ n =>
      rw [up_succ_of_some habove]
      exact h.minimal n (by omega)

theorem IsDepth.root (h : parent node = none) : IsDepth parent node 1 := by
  refine ⟨up_succ_of_none h, ?_⟩
  intro n hn
  rw [Nat.lt_one_iff.mp hn]
  rfl

theorem IsDepth.of_above (h : IsDepth parent node depth)
    (habove : parent node = some above) :
    ∃ rest, depth = rest + 1 ∧ IsDepth parent above rest := by
  cases depth with
  | zero => exact absurd h.ends (Option.some_ne_none node)
  | succ rest =>
      refine ⟨rest, rfl, ?_, ?_⟩
      · rw [← up_succ_of_some habove]
        exact h.ends
      · intro n hn
        rw [← up_succ_of_some habove]
        exact h.minimal (n + 1) (by omega)

theorem IsDepth.of_top (h : IsDepth parent node depth)
    (htop : parent node = none) : depth = 1 := by
  have hlow : 0 < depth := lt_of_up_none rfl h.ends
  by_contra hne
  have hsome := h.minimal 1 (by omega)
  rw [up_succ_of_none htop] at hsome
  exact Bool.false_ne_true hsome

/-- How deep the nodes below a node get is its depth and its height. -/
theorem below_bounded_iff (bound : Nat) (hdepth : IsDepth parent node depth)
    (hheight : IsHeight parent node height) :
    (∀ n below, up parent n below = some node →
        up parent bound below = none) ↔ depth + height ≤ bound + 1 := by
  constructor
  · intro hbound
    obtain ⟨n, below, hn, hbelow⟩ := hheight.reached
    have hnone := hbound n below hbelow
    have hlt := lt_of_up_none hbelow hnone
    obtain ⟨more, rfl⟩ := Nat.exists_eq_add_of_lt hlt
    rw [Nat.add_assoc, up_add_of_some hbelow] at hnone
    have hle : depth ≤ more + 1 := by
      by_contra hshort
      have hsome := hdepth.minimal (more + 1) (by omega)
      rw [hnone] at hsome
      exact Bool.false_ne_true hsome
    omega
  · intro hle n below hbelow
    have hlt := hheight.maximal n below hbelow
    refine up_eq_none_of_le ?_ (show n + depth ≤ bound by omega)
    rw [up_add_of_some hbelow, hdepth.ends]

/-! ### Changing parents -/

/-- Two parent functions agree on the ancestors of a node as long as none of
them was changed. -/
theorem up_congr
    (h : ∀ m < n, ∀ above, up parent m node = some above →
      parent' above = parent above) : up parent' n node = up parent n node := by
  induction n generalizing node with
  | zero => rfl
  | succ n ih =>
      have hself := h 0 (by omega) node rfl
      rw [up, up, hself]
      cases habove : parent node with
      | none => rfl
      | some above =>
          refine ih fun m hm found hfound => ?_
          refine h (m + 1) (by omega) found ?_
          rw [up_succ_of_some habove, hfound]

/-- When parents change only at grounded nodes, every node stays grounded. -/
theorem Grounded.of_changed (h : Grounded parent)
    (hchanged : ∀ node, parent' node ≠ parent node →
      ∃ n, up parent' n node = none) : Grounded parent' := by
  have hstep : ∀ n node, up parent n node = none →
      ∃ m, up parent' m node = none := by
    intro n
    induction n with
    | zero => exact fun node hnone => absurd hnone (Option.some_ne_none node)
    | succ n ih =>
        intro node hnone
        by_cases hsame : parent' node = parent node
        · cases habove : parent node with
          | none => exact ⟨1, up_succ_of_none (hsame.trans habove)⟩
          | some above =>
              rw [up_succ_of_some habove] at hnone
              obtain ⟨m, hm⟩ := ih above hnone
              refine ⟨m + 1, ?_⟩
              rw [up_succ_of_some (hsame.trans habove), hm]
        · exact hchanged node hsame
  intro node
  obtain ⟨n, hn⟩ := h node
  exact hstep n node hn

/-- When parents change only below `node`, a bound is kept exactly when the
depth and the new height of `node` fit. -/
theorem bounded_iff_of_changed {bound : Nat}
    (hold : ∀ other, up parent bound other = none)
    (hchanged : ∀ other, parent' other ≠ parent other →
      ∃ n, up parent' n other = some node)
    (hdepth : IsDepth parent' node depth)
    (hheight : IsHeight parent' node height) :
    (∀ other, up parent' bound other = none) ↔ depth + height ≤ bound + 1 := by
  rw [← below_bounded_iff bound hdepth hheight]
  constructor
  · exact fun hbound n below _ => hbound below
  · intro hbelow other
    by_cases hunder : ∃ n, up parent' n other = some node
    · obtain ⟨n, hn⟩ := hunder
      exact hbelow n other hn
    · rw [← hold other]
      symm
      refine up_congr fun m _ above habove => ?_
      by_contra hne
      obtain ⟨n, hn⟩ := hchanged above (Ne.symm hne)
      exact hunder ⟨m + n, (up_add_of_some habove).trans hn⟩

/-- Cutting a node off brings no node further down. -/
theorem up_none_of_cut {cut : α} (hcut : parent' cut = none)
    (hkept : ∀ node, node ≠ cut → parent' node = parent node)
    (h : up parent n node = none) : up parent' n node = none := by
  induction n generalizing node with
  | zero => exact h
  | succ n ih =>
      by_cases hnode : node = cut
      · rw [hnode]
        exact up_succ_of_none hcut
      · cases habove : parent node with
        | none => exact up_succ_of_none ((hkept node hnode).trans habove)
        | some above =>
            rw [up_succ_of_some habove] at h
            rw [up_succ_of_some ((hkept node hnode).trans habove)]
            exact ih h

/-! ### Hanging a node elsewhere -/

section Hang

variable {parent' : α → Option α} {node above : α}
  (hacyclic : Acyclic parent)
  (hkept : ∀ other, other ≠ node → parent' other = parent other)
include hacyclic hkept

/-- What hangs below the node that moves is not touched. -/
theorem up_node_of_hang {other : α} (h : up parent n other = some node) :
    up parent' n other = some node := by
  rw [← h]
  refine up_congr fun m hm found hfound => hkept found ?_
  intro heq
  rw [heq] at hfound
  exact absurd (hacyclic.distance_eq hfound h) (Nat.ne_of_lt hm)

/-- Hanging a node below itself closes a cycle. -/
theorem cycle_of_hang (habove : parent' node = some above)
    (h : up parent n above = some node) :
    up parent' (n + 1) above = some above := by
  rw [up_add_of_some (up_node_of_hang hacyclic hkept h),
    up_succ_of_some habove]
  rfl

omit hacyclic in
/-- The ancestors of a node outside the moved part are not touched. -/
theorem up_of_hang {other : α} (h : ∀ n, up parent n other ≠ some node)
    (n : Nat) : up parent' n other = up parent n other := by
  refine up_congr fun m _ found hfound => hkept found ?_
  intro heq
  exact h m (heq ▸ hfound)

theorem IsHeight.hang (habove : parent' node = some above)
    (houtside : ∀ n, up parent n above ≠ some node)
    (h : IsHeight parent node height) : IsHeight parent' node height := by
  obtain ⟨n, below, hn, hbelow⟩ := h.reached
  refine ⟨⟨n, below, hn, up_node_of_hang hacyclic hkept hbelow⟩, ?_⟩
  intro m other hother
  refine h.maximal m other ?_
  rw [← hother]
  refine up_congr fun k hk found hfound => (hkept found ?_).symm
  -- The node is met once only: above it the chain stays outside.
  intro heq
  rw [heq] at hfound
  obtain ⟨more, rfl⟩ := Nat.exists_eq_add_of_lt hk
  rw [Nat.add_assoc, up_add_of_some hfound, up_succ_of_some habove,
    up_of_hang hkept houtside] at hother
  exact houtside more hother

omit hacyclic in
theorem IsDepth.hang (houtside : ∀ n, up parent n above ≠ some node)
    (h : IsDepth parent above depth) : IsDepth parent' above depth := by
  refine ⟨(up_of_hang hkept houtside depth).trans h.ends, ?_⟩
  intro n hn
  rw [up_of_hang hkept houtside]
  exact h.minimal n hn

end Hang

/-- Dropping a node and hanging its children from its own parent brings no
node further down. -/
theorem up_none_of_splice {gone : α} (hself : parent gone ≠ some gone)
    (hchild : ∀ node, node ≠ gone → parent node = some gone →
      parent' node = parent gone)
    (hkept : ∀ node, node ≠ gone → parent node ≠ some gone →
      parent' node = parent node) (hnode : node ≠ gone)
    (h : up parent n node = none) : up parent' n node = none := by
  induction n generalizing node with
  | zero => exact h
  | succ n ih =>
      by_cases hgone : parent node = some gone
      · rw [up_succ_of_some hgone] at h
        cases habove : parent gone with
        | none => exact up_succ_of_none ((hchild node hnode hgone).trans habove)
        | some above =>
            have hne : above ≠ gone := fun heq => hself (heq ▸ habove)
            rw [up_succ_of_some ((hchild node hnode hgone).trans habove)]
            refine ih hne ?_
            cases n with
            | zero => exact absurd h (Option.some_ne_none gone)
            | succ n =>
                rw [up_succ_of_some habove] at h
                exact up_eq_none_of_le h (Nat.le_succ n)
      · cases habove : parent node with
        | none => exact up_succ_of_none ((hkept node hnode hgone).trans habove)
        | some above =>
            rw [up_succ_of_some ((hkept node hnode hgone).trans habove)]
            rw [up_succ_of_some habove] at h
            exact ih (fun heq => hgone (heq ▸ habove)) h

end AiTeam.Forest
