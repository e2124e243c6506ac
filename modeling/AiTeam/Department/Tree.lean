/-
`department_tree`: the checks on a department hierarchy, and what its loops
compute on a forest.
-/
import Mathlib.Tactic.Common
import AiTeam.Forest
import AiTeam.Table

namespace AiTeam.Department

/-- Problems of a hierarchy change, with the detail the caller reads. -/
inductive Problem where
  | notFound (detail : String)
  | departmentInvalidMove (detail : String)
  | departmentDepthExceeded (detail : String)
deriving DecidableEq

/-- A top department is on level 1. -/
def maxDepartmentDepth : Nat := 5

/-- `Mapping[str, str | None]`, in the order of its items. -/
abbrev Parents := List (String × Option String)

/-- `parents.get(id)`. -/
def parentOf (parents : Parents) (id : String) : Option String :=
  (lookup Prod.fst id parents).bind Prod.snd

/-- `id in parents`. -/
def has (parents : Parents) (id : String) : Bool :=
  (lookup Prod.fst id parents).isSome

/-! ### The loops -/

/-- The loop of `_depth`: up until a top department or a repetition. -/
def depthLoop (parents : Parents) :
    Nat → List String → Option String → Nat → Nat
  | fuel + 1, seen, some current, depth =>
      if seen.contains current then depth
      else depthLoop parents fuel (current :: seen)
        (parentOf parents current) (depth + 1)
  | _, _, _, depth => depth

/-- `_depth`. -/
def depth (parents : Parents) (departmentId : String) : Nat :=
  depthLoop parents (parents.length + 1) [] (some departmentId) 0

/-- `children.get(node, [])`. -/
def childrenOf (parents : Parents) (node : String) : List String :=
  (parents.filter (·.2 == some node)).map Prod.fst

/-- The loop of `_height`; the top of the stack comes first. -/
def heightLoop (parents : Parents) :
    Nat → Nat → List String → List (String × Nat) → Nat
  | fuel + 1, best, seen, (node, level) :: stack =>
      if seen.contains node then heightLoop parents fuel best seen stack
      else heightLoop parents fuel (max best level) (node :: seen)
        ((childrenOf parents node).reverse.map (·, level + 1) ++ stack)
  | _, best, _, _ => best

/-- `_height`. -/
def height (parents : Parents) (departmentId : String) : Nat :=
  heightLoop parents (parents.length + 1) 0 [] [(departmentId, 1)]

/-- The loop both checks share: does the chain of superiors meet `target`? -/
def meets (parents : Parents) (target : String) :
    Nat → List String → Option String → Bool
  | fuel + 1, seen, some current =>
      if seen.contains current then false
      else if current == target then true
      else meets parents target fuel (current :: seen)
        (parentOf parents current)
  | _, _, _ => false

/-! ### The checks -/

def depthExceeded : Problem :=
  .departmentDepthExceeded
    s!"department hierarchy is limited to {maxDepartmentDepth} levels"

/-- The part of `check_parent` that looks at a department being moved. -/
def checkMoving (parents : Parents) (parentId moving : String) :
    Except Problem Unit :=
  if parentId == moving then
    .error (.departmentInvalidMove "a department cannot be its own parent")
  else if meets parents moving (parents.length + 1) [] (some parentId) then
    .error (.departmentInvalidMove
      "a department cannot be moved under its own sub-department")
  else .ok ()

/-- `check_parent`; `moving` is `none` for a new department. -/
def checkParent (parents : Parents) (parentId moving : Option String) :
    Except Problem Unit :=
  match parentId with
  | none => .ok ()
  | some parentId =>
      if !has parents parentId then
        .error (.notFound "parent department not found in this tenant")
      else do
        match moving with
        | none => pure ()
        | some moving => checkMoving parents parentId moving
        let subtree := match moving with
          | none => 1
          | some moving => height parents moving
        if maxDepartmentDepth < depth parents parentId + subtree then
          throw depthExceeded

/-- `{**parents, id: parent}` for a known id. -/
def setParent (parents : Parents) (id : String) (parent : Option String) :
    Parents :=
  updateWhere (·.1 == id) (fun row => (row.1, parent)) parents

/-- The mapping after `child_id` took the place of `department_id`. -/
def promoted (parents : Parents) (departmentId childId : String) : Parents :=
  setParent (setParent parents childId (parentOf parents departmentId))
    departmentId (some childId)

/-- The level above the place the child takes over. -/
def promotedBase (parents : Parents) (departmentId childId : String) : Nat :=
  match parentOf parents departmentId with
  | none => 0
  | some top => depth (promoted parents departmentId childId) top

/-- `check_promote`. -/
def checkPromote (parents : Parents) (departmentId childId : String) :
    Except Problem Parents :=
  if !has parents departmentId || !has parents childId then
    .error (.notFound "department not found in this tenant")
  else if !meets parents departmentId (parents.length + 1) []
      (parentOf parents childId) then
    .error (.departmentInvalidMove
      "promoted department must be a sub-department of the target")
  else
    let updated := promoted parents departmentId childId
    if maxDepartmentDepth < promotedBase parents departmentId childId +
        height updated childId then
      .error depthExceeded
    else .ok updated

/-! ### What the loops compute -/

open Forest

/-- Rows whose department was not visited yet. -/
def unvisited (parents : Parents) (seen : List String) : Nat :=
  parents.countP fun row => !seen.contains row.1

variable {seen : List String} {current node root : String} {best : Nat}
  {stack : List (String × Nat)}

theorem unvisited_cons_lt {parents : Parents} {above : String}
    (habove : parentOf parents current = some above) (hnew : current ∉ seen) :
    unvisited parents (current :: seen) < unvisited parents seen := by
  obtain ⟨row, hfound, _⟩ := Option.bind_eq_some_iff.mp habove
  have hkey : row.1 = current := lookup_key hfound
  have hmem : row ∈ parents := lookup_mem hfound
  clear hfound habove
  unfold unvisited
  have hmono : ∀ rows : Parents,
      rows.countP (fun row => !(current :: seen).contains row.1) ≤
        rows.countP fun row => !seen.contains row.1 := by
    intro rows
    refine List.countP_mono_left fun other _ hother => ?_
    simp only [List.contains_cons, Bool.not_or, Bool.and_eq_true] at hother
    exact hother.2
  induction parents with
  | nil => exact nomatch hmem
  | cons head tail ih =>
      rw [List.countP_cons, List.countP_cons]
      rcases List.mem_cons.mp hmem with heq | htail
      · have hout : seen.contains row.1 = false := by
          simpa [hkey] using hnew
        have hin : (current :: seen).contains row.1 = true := by
          simp [hkey]
        rw [← heq, hin, hout]
        have := hmono tail
        simp only [Bool.not_true, Bool.false_eq_true, if_false, Bool.not_false,
          if_true]
        omega
      · have hrest := ih htail
        have hhead : (!(current :: seen).contains head.1) = true →
            (!seen.contains head.1) = true := by
          simp only [List.contains_cons, Bool.not_or, Bool.and_eq_true]
          exact And.right
        split
        · next hleft => rw [if_pos (hhead hleft)]; omega
        · omega

/-- The nodes a climb has seen lie properly below the node it is at. -/
def Climbed (parents : Parents) (seen : List String) (current : String) :
    Prop :=
  ∀ node ∈ seen, ∃ n, up (parentOf parents) (n + 1) node = some current

theorem Climbed.not_mem {parents : Parents}
    (hacyclic : Acyclic (parentOf parents)) (h : Climbed parents seen current) :
    current ∉ seen := by
  intro hmem
  obtain ⟨n, hn⟩ := h current hmem
  exact hacyclic current n hn

theorem Climbed.next {parents : Parents} {above : String}
    (h : Climbed parents seen current)
    (habove : parentOf parents current = some above) :
    Climbed parents (current :: seen) above := by
  intro node hnode
  rcases List.mem_cons.mp hnode with rfl | hseen
  · exact ⟨0, up_succ_of_some habove⟩
  · obtain ⟨n, hn⟩ := h node hseen
    exact ⟨n + 1, by rw [up_add_of_some hn, up_succ_of_some habove]; rfl⟩

theorem depthLoop_eq {parents : Parents}
    (hacyclic : Acyclic (parentOf parents)) (fuel : Nat) {levels : Nat}
    (count : Nat) (hfuel : unvisited parents seen < fuel)
    (hseen : Climbed parents seen current)
    (hlevels : IsDepth (parentOf parents) current levels) :
    depthLoop parents fuel seen (some current) count = count + levels := by
  induction fuel generalizing seen current levels count with
  | zero => exact absurd hfuel (Nat.not_lt_zero _)
  | succ fuel ih =>
      have hnew := hseen.not_mem hacyclic
      rw [depthLoop, if_neg (by simpa using hnew)]
      cases habove : parentOf parents current with
      | none =>
          rw [hlevels.of_top habove]
          cases fuel <;> rfl
      | some above =>
          obtain ⟨rest, rfl, hrest⟩ := hlevels.of_above habove
          have hless := unvisited_cons_lt habove hnew
          rw [ih (count + 1) (by omega) (hseen.next habove) hrest]
          omega

theorem unvisited_nil_le (parents : Parents) :
    unvisited parents [] < parents.length + 1 :=
  Nat.lt_succ_of_le List.countP_le_length

theorem depth_eq {parents : Parents} (hacyclic : Acyclic (parentOf parents))
    {departmentId : String} {levels : Nat}
    (h : IsDepth (parentOf parents) departmentId levels) :
    depth parents departmentId = levels := by
  rw [depth, depthLoop_eq hacyclic _ 0 (unvisited_nil_le parents)
    (fun _ hnode => nomatch hnode) h, Nat.zero_add]

theorem meets_iff {parents : Parents} (hacyclic : Acyclic (parentOf parents))
    (target : String) (fuel : Nat) (hfuel : unvisited parents seen < fuel)
    (hseen : Climbed parents seen current) :
    meets parents target fuel seen (some current) = true ↔
      ∃ n, up (parentOf parents) n current = some target := by
  induction fuel generalizing seen current with
  | zero => exact absurd hfuel (Nat.not_lt_zero _)
  | succ fuel ih =>
      have hnew := hseen.not_mem hacyclic
      rw [meets, if_neg (by simpa using hnew)]
      by_cases htarget : current = target
      · rw [if_pos (beq_iff_eq.mpr htarget)]
        exact ⟨fun _ => ⟨0, congrArg some htarget⟩, fun _ => rfl⟩
      · rw [if_neg (by simpa using htarget)]
        have hzero : ∀ n, up (parentOf parents) n current = some target →
            ∃ m, n = m + 1 := by
          intro n hn
          cases n with
          | zero => exact absurd (Option.some.inj hn) htarget
          | succ m => exact ⟨m, rfl⟩
        cases habove : parentOf parents current with
        | none =>
            have hstop : meets parents target fuel (current :: seen) none =
                false := by
              cases fuel <;> rfl
            rw [hstop]
            refine ⟨fun h => absurd h Bool.false_ne_true, ?_⟩
            rintro ⟨n, hn⟩
            obtain ⟨m, rfl⟩ := hzero n hn
            rw [up_succ_of_none habove] at hn
            exact absurd hn.symm (Option.some_ne_none target)
        | some above =>
            have hless := unvisited_cons_lt habove hnew
            rw [ih (by omega) (hseen.next habove)]
            constructor
            · rintro ⟨n, hn⟩
              exact ⟨n + 1, by rw [up_succ_of_some habove, hn]⟩
            · rintro ⟨n, hn⟩
              obtain ⟨m, rfl⟩ := hzero n hn
              rw [up_succ_of_some habove] at hn
              exact ⟨m, hn⟩

/-- Rows whose superior was not visited yet. -/
def unopened (parents : Parents) (seen : List String) : Nat :=
  parents.countP fun row => row.2.any fun above => !seen.contains above

theorem unopened_cons (parents : Parents) (hnew : node ∉ seen) :
    unopened parents (node :: seen) + (childrenOf parents node).length =
      unopened parents seen := by
  unfold unopened childrenOf
  rw [List.length_map, ← List.countP_eq_length_filter]
  induction parents with
  | nil => rfl
  | cons head tail ih =>
      simp only [List.countP_cons]
      rw [← ih]
      cases habove : head.2 with
      | none => simp
      | some above =>
          by_cases heq : above = node
          · simp only [heq, hnew, Option.any_some, List.contains_cons,
              beq_self_eq_true, Bool.true_or, Bool.not_true,
              Bool.false_eq_true, if_false, if_true, List.contains_iff_mem,
              Bool.not_eq_true', ← Bool.not_eq_true, not_false_eq_true]
            omega
          · by_cases hmem : above ∈ seen
            · simp [heq, hmem]
            · simp [heq, hmem]
              omega

theorem mem_childrenOf {parents : Parents} (hkeyed : Keyed Prod.fst parents)
    {child : String} :
    child ∈ childrenOf parents node ↔ parentOf parents child = some node := by
  constructor
  · intro hmem
    obtain ⟨row, hrow, rfl⟩ := List.mem_map.mp hmem
    obtain ⟨hin, habove⟩ := List.mem_filter.mp hrow
    rw [parentOf, hkeyed row hin, Option.bind_some]
    exact beq_iff_eq.mp habove
  · intro habove
    obtain ⟨row, hfound, hparent⟩ := Option.bind_eq_some_iff.mp habove
    rw [← lookup_key hfound]
    exact List.mem_map_of_mem
      (List.mem_filter.mpr ⟨lookup_mem hfound, beq_iff_eq.mpr hparent⟩)

/-- The invariant of the search below `root`: what is seen is within `best`
levels, what hangs from it is seen or on the stack, and every level is one
some department has. -/
structure Search (parents : Parents) (root : String) (best : Nat)
    (seen : List String) (stack : List (String × Nat)) : Prop where
  stacked : ∀ entry ∈ stack, ∃ n, entry.2 = n + 1 ∧
    up (parentOf parents) n entry.1 = some root
  found : root ∈ seen ∨ ∃ level, (root, level) ∈ stack
  within : ∀ node ∈ seen, ∃ n < best,
    up (parentOf parents) n node = some root
  closed : ∀ node ∈ seen, ∀ child, parentOf parents child = some node →
    child ∈ seen ∨ ∃ level, (child, level) ∈ stack
  attained : best = 0 ∨ ∃ n node, best = n + 1 ∧
    up (parentOf parents) n node = some root

theorem Search.start (parents : Parents) (root : String) :
    Search parents root 0 [] [(root, 1)] := by
  refine ⟨?_, Or.inr ⟨1, List.mem_cons_self⟩, ?_, ?_, Or.inl rfl⟩
  · intro entry hentry
    rw [List.mem_singleton.mp hentry]
    exact ⟨0, rfl, rfl⟩
  · exact fun node hnode => nomatch hnode
  · exact fun node hnode => nomatch hnode

theorem Search.skip {parents : Parents} {level : Nat}
    (h : Search parents root best seen ((node, level) :: stack))
    (hseen : node ∈ seen) : Search parents root best seen stack := by
  have hdrop : ∀ other, other ∈ seen ∨
      (∃ level', (other, level') ∈ (node, level) :: stack) →
      other ∈ seen ∨ ∃ level', (other, level') ∈ stack := by
    rintro other (hin | ⟨level', hin⟩)
    · exact Or.inl hin
    · rcases List.mem_cons.mp hin with heq | hrest
      · cases heq
        exact Or.inl hseen
      · exact Or.inr ⟨level', hrest⟩
  exact ⟨fun entry hentry => h.stacked entry (List.mem_cons_of_mem _ hentry),
    hdrop root h.found, h.within,
    fun other hother child hchild =>
      hdrop child (h.closed other hother child hchild), h.attained⟩

theorem Search.visit {parents : Parents} (hkeyed : Keyed Prod.fst parents)
    {level : Nat} (h : Search parents root best seen ((node, level) :: stack)) :
    Search parents root (max best level) (node :: seen)
      ((childrenOf parents node).reverse.map (·, level + 1) ++ stack) := by
  obtain ⟨n, hlevel, hnode⟩ := h.stacked (node, level) List.mem_cons_self
  simp only at hlevel hnode
  have hmove : ∀ other, other ∈ seen ∨
      (∃ level', (other, level') ∈ (node, level) :: stack) →
      other ∈ node :: seen ∨ ∃ level', (other, level') ∈
        (childrenOf parents node).reverse.map (·, level + 1) ++ stack := by
    rintro other (hin | ⟨level', hin⟩)
    · exact Or.inl (List.mem_cons_of_mem _ hin)
    · rcases List.mem_cons.mp hin with heq | hrest
      · cases heq
        exact Or.inl List.mem_cons_self
      · exact Or.inr ⟨level', List.mem_append_right _ hrest⟩
  refine ⟨?_, hmove root h.found, ?_, ?_, ?_⟩
  · intro entry hentry
    rcases List.mem_append.mp hentry with hnew | hold
    · obtain ⟨child, hchild, rfl⟩ := List.mem_map.mp hnew
      have hparent := (mem_childrenOf hkeyed).mp (List.mem_reverse.mp hchild)
      exact ⟨n + 1, congrArg (· + 1) hlevel,
        (up_succ_of_some hparent).trans hnode⟩
    · exact h.stacked entry (List.mem_cons_of_mem _ hold)
  · intro other hother
    rcases List.mem_cons.mp hother with rfl | hseen
    · exact ⟨n, by omega, hnode⟩
    · obtain ⟨m, hm, hroot⟩ := h.within other hseen
      exact ⟨m, by omega, hroot⟩
  · intro other hother child hchild
    rcases List.mem_cons.mp hother with rfl | hseen
    · refine Or.inr ⟨level + 1, List.mem_append_left _ ?_⟩
      exact List.mem_map_of_mem
        (List.mem_reverse.mpr ((mem_childrenOf hkeyed).mpr hchild))
    · exact hmove child (h.closed other hseen child hchild)
  · rcases Nat.le_total best level with hle | hle
    · exact Or.inr ⟨n, node, by omega, hnode⟩
    · rcases h.attained with hzero | ⟨m, other, hm, hother⟩
      · omega
      · exact Or.inr ⟨m, other, by omega, hother⟩

/-- A search that has emptied its stack has seen everything below. -/
theorem Search.done {parents : Parents} (hacyclic : Acyclic (parentOf parents))
    (h : Search parents root best seen []) :
    IsHeight (parentOf parents) root best := by
  have hroot : root ∈ seen := by
    rcases h.found with hin | ⟨_, hin⟩
    · exact hin
    · exact nomatch hin
  have hall : ∀ n below, up (parentOf parents) n below = some root →
      below ∈ seen := by
    intro n
    induction n with
    | zero =>
        intro below hbelow
        rw [Option.some.inj hbelow]
        exact hroot
    | succ n ih =>
        intro below hbelow
        obtain ⟨above, habove, hrest⟩ := Option.bind_eq_some_iff.mp hbelow
        rcases h.closed above (ih above hrest) below habove with hin | ⟨_, hin⟩
        · exact hin
        · exact nomatch hin
  constructor
  · rcases h.attained with hzero | hattained
    · obtain ⟨n, hn, _⟩ := h.within root hroot
      omega
    · exact hattained
  · intro n below hbelow
    obtain ⟨m, hm, hsame⟩ := h.within below (hall n below hbelow)
    rw [hacyclic.distance_eq hbelow hsame]
    exact hm

theorem heightLoop_isHeight {parents : Parents}
    (hkeyed : Keyed Prod.fst parents) (hacyclic : Acyclic (parentOf parents))
    (fuel : Nat) (hfuel : stack.length + unopened parents seen ≤ fuel)
    (h : Search parents root best seen stack) :
    IsHeight (parentOf parents) root
      (heightLoop parents fuel best seen stack) := by
  induction fuel generalizing best seen stack with
  | zero =>
      cases stack with
      | nil => exact h.done hacyclic
      | cons entry stack => simp at hfuel
  | succ fuel ih =>
      cases stack with
      | nil => exact h.done hacyclic
      | cons entry stack =>
          obtain ⟨node, level⟩ := entry
          rw [List.length_cons] at hfuel
          rw [heightLoop]
          split
          · next hin =>
              exact ih (by omega) (h.skip (List.contains_iff_mem.mp hin))
          · next hout =>
              have hnew : node ∉ seen := by simpa using hout
              have hopened := unopened_cons parents hnew
              refine ih ?_ (h.visit hkeyed)
              simp only [List.length_append, List.length_map,
                List.length_reverse]
              omega

theorem height_isHeight {parents : Parents} (hkeyed : Keyed Prod.fst parents)
    (hacyclic : Acyclic (parentOf parents)) (departmentId : String) :
    IsHeight (parentOf parents) departmentId (height parents departmentId) := by
  refine heightLoop_isHeight hkeyed hacyclic _ ?_ (Search.start parents _)
  have hcount : unopened parents [] ≤ parents.length := List.countP_le_length
  simp only [List.length_singleton]
  omega

end AiTeam.Department
