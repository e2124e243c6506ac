/-
The hierarchy of a tenant is a forest of at most `maxDepartmentDepth` levels,
and the checks refuse exactly what would break it.
-/
import AiTeam.Department.Repository

namespace AiTeam.Department

open Forest

/-- A forest whose departments have at most `maxDepartmentDepth` levels. -/
structure Hierarchy (parents : Parents) : Prop where
  parent_exists : ∀ id above, parentOf parents id = some above →
    has parents above = true
  acyclic : Acyclic (parentOf parents)
  shallow : ∀ id, up (parentOf parents) maxDepartmentDepth id = none

theorem hierarchy_of_shallow {parents : Parents}
    (hexists : ∀ id above, parentOf parents id = some above →
      has parents above = true)
    (hshallow : ∀ id, up (parentOf parents) maxDepartmentDepth id = none) :
    Hierarchy parents :=
  ⟨hexists, (Grounded.of_bound hshallow).acyclic, hshallow⟩

/-! ### Changing one parent -/

theorem lookup_setParent (parents : Parents) (id : String)
    (parent : Option String) (other : String) :
    lookup Prod.fst other (setParent parents id parent) =
      (lookup Prod.fst other parents).map fun row =>
        if row.1 == id then (row.1, parent) else row :=
  lookup_updateWhere Prod.fst other (·.1 == id) (fun row => (row.1, parent))
    (fun _ => rfl) parents

theorem has_setParent (parents : Parents) (id : String)
    (parent : Option String) (other : String) :
    has (setParent parents id parent) other = has parents other := by
  rw [has, lookup_setParent, Option.isSome_map]
  rfl

theorem parentOf_setParent (parents : Parents) (id : String)
    (parent : Option String) (other : String) :
    parentOf (setParent parents id parent) other =
      if other = id ∧ has parents other = true then parent
      else parentOf parents other := by
  unfold parentOf has
  rw [lookup_setParent]
  cases hfound : lookup Prod.fst other parents with
  | none => simp
  | some row =>
      have hkey : row.1 = other := lookup_key hfound
      by_cases heq : other = id
      · simp [heq, hkey]
      · simp [heq, hkey]

variable {id other departmentId : String} {tenant : Tenant}

theorem parentOf_setParent_self {parents : Parents}
    (hid : has parents id = true) (parent : Option String) :
    parentOf (setParent parents id parent) id = parent := by
  rw [parentOf_setParent, if_pos ⟨rfl, hid⟩]

theorem parentOf_setParent_of_ne (parents : Parents) (hne : other ≠ id)
    (parent : Option String) :
    parentOf (setParent parents id parent) other = parentOf parents other := by
  rw [parentOf_setParent, if_neg fun h => hne h.1]

theorem Keyed.setParent {parents : Parents} (h : Keyed Prod.fst parents)
    (id : String) (parent : Option String) :
    Keyed Prod.fst (setParent parents id parent) :=
  h.updateWhere (·.1 == id) (fun row => (row.1, parent)) fun _ => rfl

/-! ### Depth and height in a hierarchy -/

theorem depth_isDepth {parents : Parents}
    (h : Grounded (parentOf parents)) (id : String) :
    IsDepth (parentOf parents) id (depth parents id) := by
  have hexists : ∀ n node, up (parentOf parents) n node = none →
      ∃ levels, IsDepth (parentOf parents) node levels := by
    intro n
    induction n with
    | zero => exact fun node hnone => absurd hnone (Option.some_ne_none node)
    | succ n ih =>
        intro node hnone
        cases habove : parentOf parents node with
        | none => exact ⟨1, IsDepth.root habove⟩
        | some above =>
            rw [up_succ_of_some habove] at hnone
            obtain ⟨levels, hlevels⟩ := ih above hnone
            exact ⟨levels + 1, hlevels.child habove⟩
  obtain ⟨n, hn⟩ := h id
  obtain ⟨levels, hlevels⟩ := hexists n id hn
  rw [depth_eq h.acyclic hlevels]
  exact hlevels

theorem Hierarchy.grounded {parents : Parents} (h : Hierarchy parents) :
    Grounded (parentOf parents) :=
  Grounded.of_bound h.shallow

theorem Hierarchy.meets_iff {parents : Parents} (h : Hierarchy parents)
    (target start : String) :
    meets parents target (parents.length + 1) [] (some start) = true ↔
      ∃ n, up (parentOf parents) n start = some target :=
  Department.meets_iff h.acyclic target _ (unvisited_nil_le parents)
    fun _ hnode => nomatch hnode

/-! ### `check_parent` -/

theorem checkMoving_ok_iff {parents : Parents} (h : Hierarchy parents)
    (parentId moving : String) :
    checkMoving parents parentId moving = .ok () ↔
      ∀ n, up (parentOf parents) n parentId ≠ some moving := by
  unfold checkMoving
  have hmeets := h.meets_iff moving parentId
  by_cases heq : parentId = moving
  · rw [if_pos (beq_iff_eq.mpr heq)]
    refine ⟨fun hok => by simp at hok, fun hnone => ?_⟩
    exact absurd (congrArg some heq) (hnone 0)
  · rw [if_neg (by simpa using heq)]
    by_cases hmeet : meets parents moving (parents.length + 1) []
        (some parentId) = true
    · rw [if_pos hmeet]
      obtain ⟨n, hn⟩ := hmeets.mp hmeet
      exact ⟨fun hok => by simp at hok, fun hnone => absurd hn (hnone n)⟩
    · rw [if_neg hmeet]
      exact ⟨fun _ n hn => hmeet (hmeets.mpr ⟨n, hn⟩), fun _ => rfl⟩

theorem checkParent_moving_ok_iff {parents : Parents} (h : Hierarchy parents)
    (parentId moving : String) :
    checkParent parents (some parentId) (some moving) = .ok () ↔
      has parents parentId = true ∧
        (∀ n, up (parentOf parents) n parentId ≠ some moving) ∧
        depth parents parentId + height parents moving ≤
          maxDepartmentDepth := by
  rw [← checkMoving_ok_iff h]
  simp only [checkParent]
  cases hhas : has parents parentId with
  | false => simp
  | true =>
      cases hmoving : checkMoving parents parentId moving with
      | error problem => simp [bind, Except.bind]
      | ok _ =>
          by_cases hdeep : maxDepartmentDepth <
              depth parents parentId + height parents moving
          · simp [bind, Except.bind, throw, throwThe, MonadExceptOf.throw,
              hdeep]
          · simp [bind, Except.bind, pure, Except.pure, hdeep]
            omega

theorem checkParent_new_ok_iff (parents : Parents) (parentId : String) :
    checkParent parents (some parentId) none = .ok () ↔
      has parents parentId = true ∧
        depth parents parentId + 1 ≤ maxDepartmentDepth := by
  simp only [checkParent]
  cases hhas : has parents parentId with
  | false => simp
  | true =>
      by_cases hdeep : maxDepartmentDepth < depth parents parentId + 1
      · have hover : ¬ depth parents parentId + 1 ≤ maxDepartmentDepth := by
          omega
        simp [throw, throwThe, MonadExceptOf.throw, hdeep, hover]
      · have hfits : depth parents parentId + 1 ≤ maxDepartmentDepth := by
          omega
        simp [pure, Except.pure, hdeep, hfits]

/-- A known department may move exactly where the hierarchy stays one. -/
theorem checkParent_moving_iff {parents : Parents}
    (hkeyed : Keyed Prod.fst parents) (h : Hierarchy parents)
    {moving : String} (hmoving : has parents moving = true)
    (parentId : Option String) :
    checkParent parents parentId (some moving) = .ok () ↔
      Hierarchy (setParent parents moving parentId) := by
  have hkept : ∀ other, other ≠ moving →
      parentOf (setParent parents moving parentId) other =
        parentOf parents other :=
    fun other hne => parentOf_setParent_of_ne parents hne parentId
  have hself := parentOf_setParent_self hmoving parentId
  cases parentId with
  | none =>
      refine ⟨fun _ => hierarchy_of_shallow ?_ ?_, fun _ => rfl⟩
      · intro id above habove
        rw [has_setParent]
        by_cases hid : id = moving
        · rw [hid, hself] at habove
          exact absurd habove.symm (Option.some_ne_none above)
        · rw [hkept id hid] at habove
          exact h.parent_exists id above habove
      · exact fun id => up_none_of_cut hself hkept (h.shallow id)
  | some target =>
      rw [checkParent_moving_ok_iff h]
      constructor
      · rintro ⟨hexists, houtside, hfits⟩
        refine hierarchy_of_shallow ?_ ?_
        · intro id above habove
          rw [has_setParent]
          by_cases hid : id = moving
          · rw [hid, hself] at habove
            rw [← Option.some.inj habove]
            exact hexists
          · rw [hkept id hid] at habove
            exact h.parent_exists id above habove
        · have hdepth := (IsDepth.hang hkept houtside
            (depth_isDepth h.grounded target)).child hself
          have hheight := (height_isHeight hkeyed h.acyclic moving).hang
            h.acyclic hkept hself houtside
          refine (bounded_iff_of_changed h.shallow ?_ hdepth hheight).mpr
            (by omega)
          intro other hother
          refine ⟨0, congrArg some ?_⟩
          by_contra hne
          exact hother (hkept other hne)
      · intro hafter
        have houtside : ∀ n, up (parentOf parents) n target ≠ some moving :=
          fun n hn => hafter.acyclic target n
            (cycle_of_hang h.acyclic hkept hself hn)
        have hexists := hafter.parent_exists moving target hself
        rw [has_setParent] at hexists
        refine ⟨hexists, houtside, ?_⟩
        have hdepth := (IsDepth.hang hkept houtside
          (depth_isDepth h.grounded target)).child hself
        have hheight := (height_isHeight hkeyed h.acyclic moving).hang
          h.acyclic hkept hself houtside
        have hfits := (below_bounded_iff maxDepartmentDepth hdepth
          hheight).mp fun _ below _ => hafter.shallow below
        omega

theorem parentOf_append_of_ne (parents : Parents) (hne : other ≠ id)
    (parent : Option String) :
    parentOf (parents ++ [(id, parent)]) other = parentOf parents other := by
  rw [parentOf, lookup_append, if_neg (Ne.symm hne), Option.or_none]
  rfl

theorem has_append (parents : Parents) (id : String) (parent : Option String)
    (other : String) :
    has (parents ++ [(id, parent)]) other =
      (has parents other || decide (id = other)) := by
  rw [has, lookup_append]
  by_cases heq : id = other <;> simp [heq, has]

theorem parentOf_append_self {parents : Parents} (hid : has parents id = false)
    (parent : Option String) :
    parentOf (parents ++ [(id, parent)]) id = parent := by
  have hnone : lookup Prod.fst id parents = none := by
    simpa [has] using hid
  rw [parentOf, lookup_append, hnone, if_pos rfl]
  rfl

/-- Nothing hangs from an unknown department. -/
theorem Hierarchy.up_ne_of_unknown {parents : Parents} (h : Hierarchy parents)
    (hid : has parents id = false) (hother : other ≠ id) (n : Nat) :
    up (parentOf parents) n other ≠ some id := by
  intro hup
  cases n with
  | zero => exact hother (Option.some.inj hup)
  | succ n =>
      obtain ⟨below, _, hbelow⟩ := exists_of_up_succ hup
      have hknown := h.parent_exists below id hbelow
      rw [hid] at hknown
      exact Bool.false_ne_true hknown

/-- A new department is admitted exactly where the hierarchy stays one. -/
theorem checkParent_new_iff {parents : Parents} (h : Hierarchy parents)
    (hid : has parents id = false) (parentId : Option String) :
    checkParent parents parentId none = .ok () ↔
      Hierarchy (parents ++ [(id, parentId)]) := by
  have hkept : ∀ other, other ≠ id →
      parentOf (parents ++ [(id, parentId)]) other = parentOf parents other :=
    fun other hne => parentOf_append_of_ne parents hne parentId
  have hself := parentOf_append_self hid parentId
  have hold : ∀ other above, other ≠ id →
      parentOf (parents ++ [(id, parentId)]) other = some above →
      has (parents ++ [(id, parentId)]) above = true := by
    intro other above hne habove
    rw [hkept other hne] at habove
    rw [has_append, h.parent_exists other above habove]
    rfl
  cases parentId with
  | none =>
      refine ⟨fun _ => hierarchy_of_shallow ?_ ?_, fun _ => rfl⟩
      · intro other above habove
        by_cases hne : other = id
        · rw [hne, hself] at habove
          exact absurd habove.symm (Option.some_ne_none above)
        · exact hold other above hne habove
      · exact fun other => up_none_of_cut hself hkept (h.shallow other)
  | some target =>
      rw [checkParent_new_ok_iff]
      have hheight : IsHeight (parentOf parents) id 1 := by
        refine ⟨⟨0, id, rfl, rfl⟩, ?_⟩
        intro n below hbelow
        cases n with
        | zero => exact Nat.one_pos
        | succ n =>
            obtain ⟨last, _, hlast⟩ := exists_of_up_succ hbelow
            have hknown := h.parent_exists last id hlast
            rw [hid] at hknown
            exact absurd hknown Bool.false_ne_true
      have hfits : ∀ hne : target ≠ id,
          (∀ other, up (parentOf (parents ++ [(id, some target)]))
            maxDepartmentDepth other = none) ↔
            depth parents target + 1 + 1 ≤ maxDepartmentDepth + 1 := by
        intro hne
        have houtside := h.up_ne_of_unknown hid hne
        refine bounded_iff_of_changed h.shallow ?_
          ((IsDepth.hang hkept houtside
            (depth_isDepth h.grounded target)).child hself)
          (hheight.hang h.acyclic hkept hself houtside)
        intro other hother
        refine ⟨0, congrArg some ?_⟩
        by_contra hdiff
        exact hother (hkept other hdiff)
      constructor
      · rintro ⟨hknown, hdeep⟩
        have hne : target ≠ id := by
          intro heq
          rw [heq, hid] at hknown
          exact Bool.false_ne_true hknown
        refine hierarchy_of_shallow ?_ ((hfits hne).mpr (by omega))
        intro other above habove
        by_cases hother : other = id
        · rw [hother, hself] at habove
          rw [has_append, ← Option.some.inj habove, hknown]
          rfl
        · exact hold other above hother habove
      · intro hafter
        have hne : target ≠ id := by
          intro heq
          exact hafter.acyclic id 0
            ((up_succ_of_some hself).trans (congrArg some heq))
        have hknown := hafter.parent_exists id target hself
        rw [has_append, decide_eq_false (Ne.symm hne), Bool.or_false]
          at hknown
        have hdeep := (hfits hne).mp hafter.shallow
        exact ⟨hknown, by omega⟩

/-! ### `check_promote` -/

/-- `child` hangs somewhere below `department`. -/
def Below (parents : Parents) (child department : String) : Prop :=
  ∃ n, up (parentOf parents) (n + 1) child = some department

theorem has_promoted (parents : Parents) (departmentId childId other : String) :
    has (promoted parents departmentId childId) other = has parents other := by
  rw [promoted, has_setParent, has_setParent]

/-- Only the parents of the two departments change. -/
theorem parentOf_promoted_of_ne (parents : Parents) {childId : String}
    (hdepartment : other ≠ departmentId) (hchild : other ≠ childId) :
    parentOf (promoted parents departmentId childId) other =
      parentOf parents other := by
  rw [promoted, parentOf_setParent_of_ne _ hdepartment,
    parentOf_setParent_of_ne _ hchild]

theorem parentOf_promoted_department {parents : Parents}
    (hdepartment : has parents departmentId = true) (childId : String) :
    parentOf (promoted parents departmentId childId) departmentId =
      some childId := by
  refine parentOf_setParent_self ?_ _
  rw [has_setParent]
  exact hdepartment

theorem parentOf_promoted_child {parents : Parents} {childId : String}
    (hchild : has parents childId = true) (hne : childId ≠ departmentId) :
    parentOf (promoted parents departmentId childId) childId =
      parentOf parents departmentId := by
  rw [promoted, parentOf_setParent_of_ne _ hne,
    parentOf_setParent_self hchild]

theorem Keyed.promoted {parents : Parents} (h : Keyed Prod.fst parents)
    (departmentId childId : String) :
    Keyed Prod.fst (promoted parents departmentId childId) :=
  Keyed.setParent (Keyed.setParent h _ _) _ _

section Promote

variable {parents : Parents} {departmentId childId : String}
  (h : Hierarchy parents) (hdepartment : has parents departmentId = true)
  (hchild : has parents childId = true)
  (hbelow : Below parents childId departmentId)
include h hdepartment hchild hbelow

omit hdepartment hchild in
theorem Below.ne : childId ≠ departmentId := by
  obtain ⟨n, hn⟩ := hbelow
  intro heq
  rw [heq] at hn
  exact h.acyclic departmentId n hn

omit hdepartment hchild in
/-- The departments above the promoted place keep their superiors. -/
theorem up_promoted_of_above {top : String}
    (htop : parentOf parents departmentId = some top) (n : Nat) :
    up (parentOf (promoted parents departmentId childId)) n top =
      up (parentOf parents) n top := by
  refine up_congr fun m _ above habove => parentOf_promoted_of_ne parents ?_ ?_
  · intro heq
    rw [heq, ← up_succ_of_some htop] at habove
    exact h.acyclic departmentId m habove
  · intro heq
    obtain ⟨n, hn⟩ := hbelow
    rw [heq, ← up_succ_of_some htop] at habove
    refine h.acyclic departmentId (m + (n + 1)) ?_
    have hround := up_add_of_some habove (n := n + 1)
    rw [hn] at hround
    rw [← hround]
    congr 1
    omega

theorem promoted_grounded :
    Grounded (parentOf (promoted parents departmentId childId)) := by
  have hplace := parentOf_promoted_child hchild (hbelow.ne h)
  have hunder := parentOf_promoted_department hdepartment childId
  have hgrounded : ∃ n, up (parentOf (promoted parents departmentId childId))
      n childId = none := by
    cases htop : parentOf parents departmentId with
    | none => exact ⟨1, up_succ_of_none (hplace.trans htop)⟩
    | some top =>
        refine ⟨maxDepartmentDepth + 1, ?_⟩
        rw [up_succ_of_some (hplace.trans htop),
          up_promoted_of_above h hbelow htop, h.shallow]
  refine h.grounded.of_changed fun node hnode => ?_
  by_cases hdep : node = departmentId
  · obtain ⟨n, hn⟩ := hgrounded
    exact ⟨n + 1, by rw [hdep, up_succ_of_some hunder, hn]⟩
  · by_cases hpromoted : node = childId
    · rw [hpromoted]
      exact hgrounded
    · exact absurd (parentOf_promoted_of_ne parents hdep hpromoted) hnode

theorem promoted_parent_exists (id above : String)
    (habove : parentOf (promoted parents departmentId childId) id =
      some above) :
    has (promoted parents departmentId childId) above = true := by
  rw [has_promoted]
  by_cases hdep : id = departmentId
  · rw [hdep, parentOf_promoted_department hdepartment] at habove
    rw [← Option.some.inj habove]
    exact hchild
  · by_cases hpromoted : id = childId
    · rw [hpromoted, parentOf_promoted_child hchild (hbelow.ne h)] at habove
      exact h.parent_exists departmentId above habove
    · rw [parentOf_promoted_of_ne parents hdep hpromoted] at habove
      exact h.parent_exists id above habove

theorem promoted_isDepth :
    IsDepth (parentOf (promoted parents departmentId childId)) childId
      (promotedBase parents departmentId childId + 1) := by
  have hplace := parentOf_promoted_child hchild (hbelow.ne h)
  have hgrounded := promoted_grounded h hdepartment hchild hbelow
  unfold promotedBase
  cases htop : parentOf parents departmentId with
  | none => exact IsDepth.root (hplace.trans htop)
  | some top =>
      exact (depth_isDepth hgrounded top).child (hplace.trans htop)

theorem promoted_hierarchy_iff (hkeyed : Keyed Prod.fst parents) :
    Hierarchy (promoted parents departmentId childId) ↔
      promotedBase parents departmentId childId +
        height (promoted parents departmentId childId) childId ≤
          maxDepartmentDepth := by
  have hgrounded := promoted_grounded h hdepartment hchild hbelow
  have hheight := height_isHeight
    (Keyed.promoted hkeyed departmentId childId) hgrounded.acyclic childId
  have hunder := parentOf_promoted_department hdepartment childId
  have hfits := bounded_iff_of_changed h.shallow (by
    intro other hother
    by_cases hdep : other = departmentId
    · exact ⟨1, by rw [hdep, up_succ_of_some hunder]; rfl⟩
    · refine ⟨0, congrArg some ?_⟩
      by_contra hne
      exact hother (parentOf_promoted_of_ne parents hdep hne))
    (promoted_isDepth h hdepartment hchild hbelow) hheight
  constructor
  · intro hafter
    have := hfits.mp hafter.shallow
    omega
  · intro hle
    exact hierarchy_of_shallow
      (promoted_parent_exists h hdepartment hchild hbelow)
      (hfits.mpr (by omega))

end Promote

/-- A promotion is accepted exactly for a department and one below it when
the hierarchy stays one, and answers with the two parents exchanged. -/
theorem checkPromote_iff {parents : Parents}
    (hkeyed : Keyed Prod.fst parents) (h : Hierarchy parents)
    (departmentId childId : String) (updated : Parents) :
    checkPromote parents departmentId childId = .ok updated ↔
      updated = promoted parents departmentId childId ∧
        has parents departmentId = true ∧ has parents childId = true ∧
        Below parents childId departmentId ∧
        Hierarchy (promoted parents departmentId childId) := by
  have hmeets : meets parents departmentId (parents.length + 1) []
      (parentOf parents childId) = true ↔
        Below parents childId departmentId := by
    cases habove : parentOf parents childId with
    | none =>
        refine ⟨fun hfalse => by simp [meets] at hfalse, ?_⟩
        rintro ⟨n, hn⟩
        rw [up_succ_of_none habove] at hn
        exact absurd hn.symm (Option.some_ne_none departmentId)
    | some above =>
        rw [h.meets_iff]
        exact exists_congr fun n => by rw [up_succ_of_some habove]
  unfold checkPromote
  cases hdepartment : has parents departmentId with
  | false => simp
  | true =>
      cases hchild : has parents childId with
      | false => simp
      | true =>
          by_cases hbelow : Below parents childId departmentId
          · have hiff := promoted_hierarchy_iff h hdepartment hchild hbelow
              hkeyed
            rw [hiff]
            by_cases hdeep : maxDepartmentDepth <
                promotedBase parents departmentId childId +
                  height (promoted parents departmentId childId) childId
            · simp [hmeets.mpr hbelow, hdeep, Nat.not_le.mpr hdeep]
            · simp [hmeets.mpr hbelow, hbelow, hdeep, Nat.not_lt.mp hdeep,
                eq_comm]
          · simp [Bool.eq_false_iff.mpr (mt hmeets.mp hbelow), hbelow]

/-! ### The transactions -/

theorem parents_append (tenant : Tenant) (row : DepartmentRow) :
    parents { tenant with departments := tenant.departments ++ [row] } =
      parents tenant ++ [(row.id, row.parentId)] := by
  simp [parents]

theorem map_updateWhere_parent (departments : List DepartmentRow)
    (id : String) (parent : Option String)
    (change : DepartmentRow → DepartmentRow)
    (hid : ∀ row, (change row).id = row.id)
    (hparent : ∀ row, (change row).parentId = parent) :
    (updateWhere (·.id == id) change departments).map
        (fun row => (row.id, row.parentId)) =
      setParent (departments.map fun row => (row.id, row.parentId)) id
        parent := by
  simp only [updateWhere, setParent, List.map_map]
  refine List.map_congr_left fun row _ => ?_
  simp only [Function.comp]
  by_cases hrow : row.id == id
  · simp [hrow, hid, hparent]
  · simp [hrow]

theorem map_updateParent (departments : List DepartmentRow) (id : String)
    (parent : Option String) :
    (updateParent departments id parent).map
        (fun row => (row.id, row.parentId)) =
      setParent (departments.map fun row => (row.id, row.parentId)) id
        parent :=
  map_updateWhere_parent departments id parent
    (fun row => { row with parentId := parent }) (fun _ => rfl) fun _ => rfl

theorem insertDepartment_keyed (h : Keyed Prod.fst (parents tenant))
    (row : DepartmentRow) :
    Keyed Prod.fst (parents (insertDepartment tenant row).1) := by
  unfold insertDepartment
  split
  · exact h
  · next hnew =>
      rw [parents_append]
      refine h.append ?_
      rw [lookup, List.find?_eq_none]
      intro found hfound hkey
      obtain ⟨other, hother, rfl⟩ := List.mem_map.mp hfound
      refine hnew (List.any_eq_true.mpr ⟨other, hother, ?_⟩)
      have hid : other.id = row.id := by simpa using hkey
      simp [hid]

theorem insertDepartment_done {row : DepartmentRow}
    (h : (insertDepartment tenant row).2 = .done) :
    parents (insertDepartment tenant row).1 =
        parents tenant ++ [(row.id, row.parentId)] ∧
      has (parents tenant) row.id = false := by
  unfold insertDepartment at h ⊢
  split at h
  · exact absurd h (by simp)
  · next hnew =>
      rw [if_neg hnew]
      refine ⟨parents_append tenant row, ?_⟩
      simp only [has, lookup, parents, Option.isSome_eq_false_iff,
        Option.isNone_iff_eq_none, List.find?_eq_none]
      intro found hfound hkey
      obtain ⟨other, hother, rfl⟩ := List.mem_map.mp hfound
      refine hnew (List.any_eq_true.mpr ⟨other, hother, ?_⟩)
      have hid : other.id = row.id := by simpa using hkey
      simp [hid]

theorem insertDepartment_not_done {row : DepartmentRow}
    (h : (insertDepartment tenant row).2 ≠ .done) :
    (insertDepartment tenant row).1 = tenant := by
  unfold insertDepartment at h ⊢
  split
  · rfl
  · next hnew => simp [hnew] at h

theorem createDepartment_cases (tenant : Tenant) (row : DepartmentRow) :
    ((createDepartment tenant row).1 = tenant ∧
        (createDepartment tenant row).2 ≠ .done) ∨
      (checkParent (parents tenant) row.parentId none = .ok () ∧
        createDepartment tenant row = insertDepartment tenant row) := by
  unfold createDepartment
  cases hparent : row.parentId with
  | none => exact Or.inr ⟨rfl, rfl⟩
  | some parentId =>
      simp only [Option.isNone_some, Bool.false_eq_true, if_false]
      cases hcheck : checkParent (parents tenant) (some parentId) none with
      | error problem => exact Or.inl ⟨rfl, by simp⟩
      | ok _ => exact Or.inr ⟨rfl, rfl⟩

/-- A move that is carried out was checked and changes one parent. -/
theorem moveDepartment_cases (tenant : Tenant) (departmentId : String)
    (parentId displayName : Option String) :
    ((moveDepartment tenant departmentId parentId displayName).1 = tenant ∧
        (moveDepartment tenant departmentId parentId displayName).2 ≠ .done) ∨
      (has (parents tenant) departmentId = true ∧
        checkParent (parents tenant) parentId (some departmentId) = .ok () ∧
        (moveDepartment tenant departmentId parentId displayName).2 = .done ∧
        parents (moveDepartment tenant departmentId parentId displayName).1 =
          setParent (parents tenant) departmentId parentId) := by
  unfold moveDepartment
  cases hhas : has (parents tenant) departmentId with
  | false => exact Or.inl ⟨rfl, by simp⟩
  | true =>
      cases hcheck : checkParent (parents tenant) parentId
          (some departmentId) with
      | error problem => exact Or.inl ⟨rfl, by simp⟩
      | ok _ =>
          exact Or.inr ⟨rfl, rfl, rfl, map_updateWhere_parent _ departmentId
            parentId _ (fun _ => rfl) fun _ => rfl⟩

/-- A promotion that is carried out was checked. -/
theorem promoteDepartment_cases (hkeyed : Keyed Prod.fst (parents tenant))
    (h : Hierarchy (parents tenant)) (departmentId childId : String) :
    ((promoteDepartment tenant departmentId childId).1 = tenant ∧
        (promoteDepartment tenant departmentId childId).2 ≠ .done) ∨
      (Hierarchy (promoted (parents tenant) departmentId childId) ∧
        (promoteDepartment tenant departmentId childId).2 = .done ∧
        parents (promoteDepartment tenant departmentId childId).1 =
          promoted (parents tenant) departmentId childId) := by
  unfold promoteDepartment
  split
  · exact Or.inl ⟨rfl, by simp⟩
  · cases hcheck : checkPromote (parents tenant) departmentId childId with
    | error problem => exact Or.inl ⟨rfl, by simp⟩
    | ok updated =>
        obtain ⟨rfl, _, hchild, hbelow, hafter⟩ :=
          (checkPromote_iff hkeyed h departmentId childId updated).mp hcheck
        refine Or.inr ⟨hafter, rfl, ?_⟩
        have htop := parentOf_promoted_child hchild (hbelow.ne h)
        simp only [htop]
        simp only [parents, map_updateParent]
        rfl

/-- What is left of the hierarchy when a department goes. -/
def spliced (parents : Parents) (departmentId : String) : Parents :=
  (updateWhere (·.2 == some departmentId)
    (fun row => (row.1, parentOf parents departmentId)) parents).filter
      (·.1 != departmentId)

theorem parents_deleteDepartment (tenant : Tenant) (departmentId : String) :
    parents (deleteDepartment tenant departmentId).1 =
      spliced (parents tenant) departmentId := by
  have habove : (tenant.departments.find? (·.id == departmentId)).bind
      DepartmentRow.parentId = parentOf (parents tenant) departmentId := by
    rw [parentOf, lookup, parents, List.find?_map]
    simp only [Function.comp_def, Option.bind_map]
    rfl
  simp only [deleteDepartment, habove]
  simp only [parents, spliced, updateWhere, List.filter_map, List.map_map]
  congr 1
  · refine funext fun row => ?_
    simp only [Function.comp]
    split <;> rfl
  · refine List.filter_congr fun row _ => ?_
    simp only [Function.comp]
    split <;> rfl

theorem deleteDepartment_absent
    (h : (deleteDepartment tenant departmentId).2 ≠ .done) :
    has (parents tenant) departmentId = false := by
  simp only [deleteDepartment] at h
  split at h
  · exact absurd rfl h
  · next hnone =>
      simp only [has, lookup, parents, Option.isSome_eq_false_iff,
        Option.isNone_iff_eq_none, List.find?_eq_none]
      intro found hfound hkey
      obtain ⟨row, hrow, rfl⟩ := List.mem_map.mp hfound
      refine hnone (List.any_eq_true.mpr ⟨_, List.mem_map_of_mem hrow, ?_⟩)
      have hid : row.id = departmentId := by simpa using hkey
      split <;> simpa using hid

theorem Keyed.spliced {parents : Parents} (h : Keyed Prod.fst parents)
    (departmentId : String) :
    Keyed Prod.fst (spliced parents departmentId) :=
  (h.updateWhere (·.2 == some departmentId)
    (fun row => (row.1, parentOf parents departmentId)) fun _ => rfl).filter _

theorem lookup_spliced {parents : Parents} (hkeyed : Keyed Prod.fst parents)
    (hne : other ≠ departmentId) :
    lookup Prod.fst other (spliced parents departmentId) =
      (lookup Prod.fst other parents).map fun row =>
        if row.2 == some departmentId
          then (row.1, parentOf parents departmentId) else row := by
  have hkept := hkeyed.updateWhere (·.2 == some departmentId)
    (fun row => (row.1, parentOf parents departmentId)) fun _ => rfl
  rw [spliced, hkept.lookup_filter, lookup_updateWhere Prod.fst other
    (·.2 == some departmentId)
    (fun row => (row.1, parentOf parents departmentId)) fun _ => rfl]
  cases hfound : lookup Prod.fst other parents with
  | none => rfl
  | some row =>
      have hkey : row.1 = other := lookup_key hfound
      rw [Option.map_some, Option.filter_some_pos]
      split <;> simpa [hkey] using hne

theorem parentOf_spliced {parents : Parents} (hkeyed : Keyed Prod.fst parents)
    (hne : other ≠ departmentId) :
    parentOf (spliced parents departmentId) other =
      if parentOf parents other = some departmentId
        then parentOf parents departmentId else parentOf parents other := by
  rw [parentOf, lookup_spliced hkeyed hne]
  unfold parentOf
  cases hfound : lookup Prod.fst other parents with
  | none => simp
  | some row =>
      by_cases hrow : row.2 = some departmentId
      · simp [hrow]
      · simp [hrow]

theorem has_spliced {parents : Parents} (hkeyed : Keyed Prod.fst parents)
    (hne : other ≠ departmentId) :
    has (spliced parents departmentId) other = has parents other := by
  rw [has, lookup_spliced hkeyed hne, Option.isSome_map]
  rfl

theorem parentOf_spliced_self (parents : Parents) (departmentId : String) :
    parentOf (spliced parents departmentId) departmentId = none := by
  rw [parentOf, spliced, lookup_filter_eq_none]
  · rfl
  · intro row _ hkey
    simp [hkey]

theorem Hierarchy.spliced {parents : Parents}
    (hkeyed : Keyed Prod.fst parents) (h : Hierarchy parents)
    (departmentId : String) :
    Hierarchy (spliced parents departmentId) := by
  have hself : parentOf parents departmentId ≠ some departmentId :=
    fun heq => h.acyclic departmentId 0 (up_succ_of_some heq)
  refine hierarchy_of_shallow ?_ ?_
  · intro id above habove
    by_cases hid : id = departmentId
    · rw [hid, parentOf_spliced_self] at habove
      exact absurd habove.symm (Option.some_ne_none above)
    · rw [parentOf_spliced hkeyed hid] at habove
      split at habove
      · have hne : above ≠ departmentId := fun heq => hself (heq ▸ habove)
        rw [has_spliced hkeyed hne]
        exact h.parent_exists departmentId above habove
      · next hother =>
          have hne : above ≠ departmentId := fun heq => hother (heq ▸ habove)
          rw [has_spliced hkeyed hne]
          exact h.parent_exists id above habove
  · intro id
    by_cases hid : id = departmentId
    · rw [hid]
      have htop : up (parentOf (Department.spliced parents departmentId)) 1
          departmentId = none :=
        up_succ_of_none (parentOf_spliced_self parents departmentId)
      exact up_eq_none_of_le htop (by decide)
    · refine up_none_of_splice hself ?_ ?_ hid (h.shallow id)
      · intro node hnode hchild
        rw [parentOf_spliced hkeyed hnode, if_pos hchild]
      · intro node hnode hchild
        rw [parentOf_spliced hkeyed hnode, if_neg hchild]

/-- Deleting an unknown department leaves the hierarchy as it is. -/
theorem spliced_of_unknown {parents : Parents}
    (hkeyed : Keyed Prod.fst parents) (h : Hierarchy parents)
    (hunknown : has parents departmentId = false) :
    spliced parents departmentId = parents := by
  have hchild : ∀ row ∈ parents, (row.2 == some departmentId) = false := by
    intro row hrow
    rw [beq_eq_false_iff_ne]
    intro heq
    have hknown := h.parent_exists row.1 departmentId
      (by rw [parentOf, hkeyed row hrow, Option.bind_some, heq])
    rw [hunknown] at hknown
    exact Bool.false_ne_true hknown
  have hsame : updateWhere (·.2 == some departmentId)
      (fun row => (row.1, parentOf parents departmentId)) parents =
        parents := by
    rw [updateWhere]
    conv_rhs => rw [← List.map_id parents]
    refine List.map_congr_left fun row hrow => ?_
    rw [hchild row hrow]
    rfl
  rw [spliced, hsame, List.filter_eq_self]
  intro row hrow
  rw [bne_iff_ne]
  intro heq
  rw [has, ← heq, hkeyed row hrow] at hunknown
  exact absurd hunknown (by simp)

/-! ### Runs -/

/-- What every transaction keeps. -/
structure Sound (tenant : Tenant) : Prop where
  keyed : Keyed Prod.fst (parents tenant)
  hierarchy : Hierarchy (parents tenant)

theorem sound_empty : Sound empty := by
  refine ⟨Keyed.nil _, hierarchy_of_shallow ?_ fun id => ?_⟩
  · exact fun id above h => absurd h.symm (Option.some_ne_none above)
  · rfl

theorem Sound.apply (h : Sound tenant) (operation : Operation) :
    Sound (apply tenant operation).1 := by
  cases operation with
  | create row =>
      simp only [Department.apply]
      rcases createDepartment_cases tenant row with
        ⟨hsame, _⟩ | ⟨hcheck, heq⟩
      · rw [hsame]
        exact h
      · rw [heq]
        refine ⟨insertDepartment_keyed h.keyed row, ?_⟩
        by_cases hdone : (insertDepartment tenant row).2 = .done
        · obtain ⟨hparents, hfresh⟩ := insertDepartment_done hdone
          rw [hparents]
          exact (checkParent_new_iff h.hierarchy hfresh row.parentId).mp hcheck
        · rw [insertDepartment_not_done hdone]
          exact h.hierarchy
  | move departmentId parentId displayName =>
      simp only [Department.apply]
      rcases moveDepartment_cases tenant departmentId parentId displayName with
        ⟨hsame, _⟩ | ⟨hhas, hcheck, _, hparents⟩
      · rw [hsame]
        exact h
      · refine ⟨?_, ?_⟩
        · rw [hparents]
          exact Keyed.setParent h.keyed _ _
        · rw [hparents]
          exact (checkParent_moving_iff h.keyed h.hierarchy hhas parentId).mp
            hcheck
  | promote departmentId childId =>
      simp only [Department.apply]
      rcases promoteDepartment_cases h.keyed h.hierarchy departmentId
        childId with ⟨hsame, _⟩ | ⟨hafter, _, hparents⟩
      · rw [hsame]
        exact h
      · refine ⟨?_, hparents ▸ hafter⟩
        rw [hparents]
        exact Keyed.promoted h.keyed _ _
  | delete departmentId =>
      simp only [Department.apply]
      refine ⟨?_, ?_⟩
      · rw [parents_deleteDepartment]
        exact Keyed.spliced h.keyed departmentId
      · rw [parents_deleteDepartment]
        exact h.hierarchy.spliced h.keyed departmentId

/-- A rejected operation leaves the hierarchy as it is. -/
theorem Sound.rejected (h : Sound tenant) (operation : Operation)
    (hrejected : (Department.apply tenant
      operation).2 ≠ .done) :
    parents (Department.apply tenant operation).1 = parents tenant := by
  cases operation with
  | create row =>
      simp only [Department.apply] at hrejected ⊢
      rcases createDepartment_cases tenant row with ⟨hsame, _⟩ | ⟨_, heq⟩
      · rw [hsame]
      · rw [heq] at hrejected ⊢
        rw [insertDepartment_not_done hrejected]
  | move departmentId parentId displayName =>
      simp only [Department.apply] at hrejected ⊢
      rcases moveDepartment_cases tenant departmentId parentId displayName with
        ⟨hsame, _⟩ | ⟨_, _, hdone, _⟩
      · rw [hsame]
      · exact absurd hdone hrejected
  | promote departmentId childId =>
      simp only [Department.apply] at hrejected ⊢
      rcases promoteDepartment_cases h.keyed h.hierarchy departmentId
        childId with ⟨hsame, _⟩ | ⟨_, hdone, _⟩
      · rw [hsame]
      · exact absurd hdone hrejected
  | delete departmentId =>
      simp only [Department.apply] at hrejected ⊢
      rw [parents_deleteDepartment]
      exact spliced_of_unknown h.keyed h.hierarchy
        (deleteDepartment_absent hrejected)

/-- What an operation makes of the parents when it is carried out. -/
def carriedOut (parents : Parents) : Operation → Parents
  | .create row => parents ++ [(row.id, row.parentId)]
  | .move departmentId parentId _ => setParent parents departmentId parentId
  | .promote departmentId childId => promoted parents departmentId childId
  | .delete departmentId => spliced parents departmentId

theorem Sound.done (h : Sound tenant) {operation : Operation}
    (hdone : (Department.apply tenant operation).2 = .done) :
    parents (Department.apply tenant operation).1 =
      carriedOut (parents tenant) operation := by
  cases operation with
  | create row =>
      simp only [Department.apply] at hdone ⊢
      rcases createDepartment_cases tenant row with ⟨_, hnot⟩ | ⟨_, heq⟩
      · exact absurd hdone hnot
      · rw [heq] at hdone ⊢
        exact (insertDepartment_done hdone).1
  | move departmentId parentId displayName =>
      simp only [Department.apply] at hdone ⊢
      rcases moveDepartment_cases tenant departmentId parentId displayName with
        ⟨_, hnot⟩ | ⟨_, _, _, hparents⟩
      · exact absurd hdone hnot
      · exact hparents
  | promote departmentId childId =>
      simp only [Department.apply] at hdone ⊢
      rcases promoteDepartment_cases h.keyed h.hierarchy departmentId
        childId with ⟨_, hnot⟩ | ⟨_, _, hparents⟩
      · exact absurd hdone hnot
      · exact hparents
  | delete departmentId => exact parents_deleteDepartment tenant departmentId

/-- After every run of transactions the hierarchy is a forest of at most
`maxDepartmentDepth` levels, operations do what they say or change nothing, the
checks refuse exactly what would break it, and a promotion changes two
parents. -/
theorem department_hierarchy (operations : List Operation) :
    let tenant := hierarchy.run empty operations
    Hierarchy (parents tenant) ∧
      (∀ operation, (apply tenant operation).2 = .done →
        parents (apply tenant operation).1 =
          carriedOut (parents tenant) operation) ∧
      (∀ operation, (apply tenant operation).2 ≠ .done →
        parents (apply tenant operation).1 = parents tenant) ∧
      (∀ moving parentId, has (parents tenant) moving = true →
        (checkParent (parents tenant) parentId (some moving) = .ok () ↔
          Hierarchy (setParent (parents tenant) moving parentId))) ∧
      (∀ id parentId, has (parents tenant) id = false →
        (checkParent (parents tenant) parentId none = .ok () ↔
          Hierarchy (parents tenant ++ [(id, parentId)]))) ∧
      (∀ departmentId childId updated,
        checkPromote (parents tenant) departmentId childId = .ok updated ↔
          updated = promoted (parents tenant) departmentId childId ∧
            has (parents tenant) departmentId = true ∧
            has (parents tenant) childId = true ∧
            Below (parents tenant) childId departmentId ∧
            Hierarchy (promoted (parents tenant) departmentId childId)) ∧
      ∀ departmentId childId other,
        (apply tenant (.promote departmentId childId)).2 = .done →
        other ≠ departmentId → other ≠ childId →
        parentOf (parents (apply tenant (.promote departmentId childId)).1)
          other = parentOf (parents tenant) other := by
  intro tenant
  have hsound : Sound tenant := hierarchy.stateInvariant Sound
    (fun state operation h _ => h.apply operation) operations sound_empty
    (hierarchy.admissible_true empty operations)
  refine ⟨hsound.hierarchy, fun _ => hsound.done, hsound.rejected, ?_, ?_, ?_,
    ?_⟩
  · exact fun moving parentId hmoving =>
      checkParent_moving_iff hsound.keyed hsound.hierarchy hmoving parentId
  · exact fun id parentId hid =>
      checkParent_new_iff hsound.hierarchy hid parentId
  · exact checkPromote_iff hsound.keyed hsound.hierarchy
  · intro departmentId childId other hdone hdepartment hchild
    rw [hsound.done hdone]
    exact parentOf_promoted_of_ne _ hdepartment hchild

/-- A grandchild takes the place of its top department and cannot move below
what now hangs from it. -/
example : hierarchy.trace empty
    [.create ⟨"a", "a", "A", none⟩, .create ⟨"b", "b", "B", some "a"⟩,
      .create ⟨"c", "c", "C", some "b"⟩, .promote "a" "c",
      .move "c" (some "b") none, .delete "a"] =
    [.done, .done, .done, .done,
      .problem (.departmentInvalidMove
        "a department cannot be moved under its own sub-department"),
      .done] := by
  decide

end AiTeam.Department
