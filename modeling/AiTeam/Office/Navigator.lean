/-
`Navigator`: the padded boxes and the remembered grid edges of one map.  Over
every sequence of calls it answers like the functions that remember nothing, as
long as the padding of each radius covers the width that counts as touching.
-/
import Mathlib.Data.Rat.Floor
import Mathlib.Tactic.NormNum
import AiTeam.Office.Obstacles
import AiTeam.Office.Path

namespace AiTeam.Office

open BreadthFirst (Answers)

variable {K : Type} [Field K] [LinearOrder K] [IsStrictOrderedRing K]
  [FloorRing K]

/-! ### The navigator -/

/-- What is known of a grid edge: 0, 1 and 2 in an `EdgeCache`. -/
inductive EdgeState where
  | unknown
  | clear
  | blocked
deriving DecidableEq

/-- The slots of a cache, two for each cell: the edge to the right and the edge
below. -/
abbrev EdgeCache := Nat → EdgeState

/-- The polygons, their boxes and the grid of a navigator are those of its map
and its mode. -/
structure Navigator (K : Type) [Field K] [LinearOrder K] where
  map : OfficeMap K
  mode : WalkMode
  edgeCaches : K → Option EdgeCache

namespace Navigator

def new (map : OfficeMap K) (mode : WalkMode) : Navigator K :=
  ⟨map, mode, fun _ => none⟩

def statics (nav : Navigator K) : ObstacleSet K :=
  obstacleSet (blockers nav.map nav.mode)

def staticClear (nav : Navigator K) (a b : MapPoint K) (radius : K) : Bool :=
  if !inBounds nav.map a radius || !inBounds nav.map b radius then false
  else !pointBlockedBy nav.statics a radius &&
    !pointBlockedBy nav.statics b radius &&
    !segmentBlockedBy nav.statics a b radius

/-- The obstacles of one call. -/
def extraClear (a b : MapPoint K) (radius : K) (extra : ObstacleSet K) : Bool :=
  !pointBlockedBy extra a radius && !pointBlockedBy extra b radius &&
    !segmentBlockedBy extra a b radius

def isBlocked (nav : Navigator K) (p : MapPoint K) (radius : K)
    (extra : Option (ObstacleSet K)) : Bool :=
  !inBounds nav.map p radius || pointBlockedBy nav.statics p radius ||
    extra.any fun set => pointBlockedBy set p radius

def clearSegment (nav : Navigator K) (a b : MapPoint K) (radius : K)
    (extra : Option (ObstacleSet K)) : Bool :=
  nav.staticClear a b radius && extra.all (extraClear a b radius)

def edgeCache (nav : Navigator K) (radius : K) : EdgeCache :=
  (nav.edgeCaches radius).getD fun _ => .unknown

def keep (nav : Navigator K) (radius : K) (cache : EdgeCache) : Navigator K :=
  { nav with edgeCaches := Function.update nav.edgeCaches radius (some cache) }

/-- An edge that is not known yet is checked. -/
def remember (nav : Navigator K) (radius : K) (cache : EdgeCache) (slot : Nat)
    (a b : MapPoint K) : EdgeCache :=
  if cache slot = .unknown then
    Function.update cache slot
      (if nav.staticClear a b radius then .clear else .blocked)
  else cache

def slot (id next : Nat) : Nat :=
  min id next * 2 + if ((id : Int) - next).natAbs = 1 then 0 else 1

def probe (nav : Navigator K) (radius : K) (extra : Option (ObstacleSet K)) :
    SearchProbe K EdgeCache where
  blocked p := nav.isBlocked p radius extra
  clear a b := nav.clearSegment a b radius extra
  edge cache id next a b :=
    let now := nav.remember radius cache (slot id next) a b
    (decide (now (slot id next) = .clear) &&
      extra.all (extraClear a b radius), now)

def findPath (nav : Navigator K) (start finish : MapPoint K) (radius : K)
    (extra : Option (ObstacleSet K)) :
    Option (List (MapPoint K)) × Navigator K :=
  let result := searchPath nav.map start finish (nav.probe radius extra)
    (nav.edgeCache radius)
  (result.1, nav.keep radius result.2)

/-- The body of the loops of `warm`. -/
def warmCell (nav : Navigator K) (radius : K) (y : Nat) (cache : EdgeCache)
    (x : Nat) : EdgeCache :=
  let grid := gridLayout nav.map
  let id := y * grid.cols + x
  let here := grid.center x y
  let right :=
    if x + 1 < grid.cols then
      nav.remember radius cache (id * 2) here (grid.center (x + 1) y)
    else cache
  if y + 1 < grid.rows then
    nav.remember radius right (id * 2 + 1) here (grid.center x (y + 1))
  else right

def warm (nav : Navigator K) (radii : List K) : Navigator K :=
  radii.foldl (fun nav radius =>
    nav.keep radius ((List.range (gridLayout nav.map).rows).foldl
      (fun cache y => (List.range (gridLayout nav.map).cols).foldl
        (nav.warmCell radius y) cache) (nav.edgeCache radius))) nav

end Navigator

/-! ### Calls -/

inductive Call (K : Type) where
  | warm (radii : List K)
  | isBlocked (p : MapPoint K) (radius : K) (extra : Option (List (Polygon K)))
  | clearSegment (a b : MapPoint K) (radius : K)
      (extra : Option (List (Polygon K)))
  | findPath (start finish : MapPoint K) (radius : K)
      (extra : Option (List (Polygon K)))

inductive Answer (K : Type) where
  | done
  | yes (answer : Bool)
  | path (path : Option (List (MapPoint K)))
deriving DecidableEq

/-- The radius that an answer depends on. -/
def Call.radius : Call K → Option K
  | .warm _ => none
  | .isBlocked _ radius _ => some radius
  | .clearSegment _ _ radius _ => some radius
  | .findPath _ _ radius _ => some radius

def Navigator.answer (nav : Navigator K) : Call K → Answer K × Navigator K
  | .warm radii => (.done, nav.warm radii)
  | .isBlocked p radius extra =>
      (.yes (nav.isBlocked p radius (extra.map obstacleSet)), nav)
  | .clearSegment a b radius extra =>
      (.yes (nav.clearSegment a b radius (extra.map obstacleSet)), nav)
  | .findPath start finish radius extra =>
      let result := nav.findPath start finish radius (extra.map obstacleSet)
      (.path result.1, result.2)

def Navigator.answers : Navigator K → List (Call K) → List (Answer K)
  | _, [] => []
  | nav, call :: calls =>
      (nav.answer call).1 :: Navigator.answers (nav.answer call).2 calls

/-- The answer without boxes or caches. -/
def reference (map : OfficeMap K) (mode : WalkMode) : Call K → Answer K
  | .warm _ => .done
  | .isBlocked p radius extra =>
      .yes (isBlocked map p radius (blockers map mode ++ extra.getD []))
  | .clearSegment a b radius extra =>
      .yes (clearSegment map a b radius (blockers map mode ++ extra.getD []))
  | .findPath start finish radius extra =>
      .path (findPath map start finish radius mode (extra.getD []))

variable {nav : Navigator K} {cache : EdgeCache} {grid : Grid K}

namespace Navigator

/-! ### Checks with boxes -/

omit [FloorRing K] in
theorem pointBlockedBy_extra (extra : Option (List (Polygon K)))
    (p : MapPoint K) {radius : K} (hradius : Covers radius) :
    ((extra.map obstacleSet).any fun set => pointBlockedBy set p radius) =
      (extra.getD []).any (blocksPoint p radius) := by
  cases extra with
  | none => rfl
  | some polygons => exact pointBlockedBy_eq polygons p hradius

omit [FloorRing K] in
theorem isBlocked_eq (nav : Navigator K) (p : MapPoint K)
    (extra : Option (List (Polygon K))) {radius : K} (hradius : Covers radius) :
    nav.isBlocked p radius (extra.map obstacleSet) =
      Office.isBlocked nav.map p radius
        (blockers nav.map nav.mode ++ extra.getD []) := by
  rw [isBlocked, Office.isBlocked, statics, pointBlockedBy_eq _ p hradius,
    pointBlockedBy_extra extra p hradius, List.any_append, Bool.or_assoc]

omit [FloorRing K] in
theorem extraClear_eq (extra : Option (List (Polygon K))) (a b : MapPoint K)
    {radius : K} (hradius : Covers radius) :
    (extra.map obstacleSet).all (extraClear a b radius) =
      (!(extra.getD []).any (blocksPoint a radius) &&
        !(extra.getD []).any (blocksPoint b radius) &&
        !(extra.getD []).any (blocksSegment a b radius)) := by
  cases extra with
  | none => rfl
  | some polygons =>
      rw [Option.map_some, Option.all_some, extraClear,
        pointBlockedBy_eq _ a hradius, pointBlockedBy_eq _ b hradius,
        segmentBlockedBy_eq _ a b hradius]
      rfl

omit [FloorRing K] in
theorem clearSegment_eq (nav : Navigator K) (a b : MapPoint K)
    (extra : Option (List (Polygon K))) {radius : K} (hradius : Covers radius) :
    nav.clearSegment a b radius (extra.map obstacleSet) =
      Office.clearSegment nav.map a b radius
        (blockers nav.map nav.mode ++ extra.getD []) := by
  rw [clearSegment, extraClear_eq extra a b hradius, staticClear, statics,
    pointBlockedBy_eq _ a hradius, pointBlockedBy_eq _ b hradius,
    segmentBlockedBy_eq _ a b hradius, Office.clearSegment, Office.isBlocked,
    Office.isBlocked, List.any_append, List.any_append, List.any_append]
  cases inBounds nav.map a radius <;> cases inBounds nav.map b radius <;>
    simp [Bool.and_assoc, Bool.and_left_comm, Bool.and_comm]

omit [FloorRing K] in
theorem segmentBlockedBy_comm (set : ObstacleSet K) (a b : MapPoint K)
    (radius : K) :
    segmentBlockedBy set a b radius = segmentBlockedBy set b a radius := by
  rw [segmentBlockedBy, segmentBlockedBy]
  congr 1
  funext obstacle
  rw [blocksSegment_comm]
  congr 3
  funext box
  rw [Box.apart, Box.apart, min_comm a.x, max_comm a.x, min_comm a.y,
    max_comm a.y]

omit [FloorRing K] in
theorem staticClear_comm (nav : Navigator K) (a b : MapPoint K) (radius : K) :
    nav.staticClear a b radius = nav.staticClear b a radius := by
  rw [staticClear, staticClear, segmentBlockedBy_comm,
    Bool.or_comm (!inBounds nav.map a radius),
    Bool.and_comm (!pointBlockedBy nav.statics a radius)]

/-! ### What a cache says -/

/-- The cells of the edge of a slot. -/
def slotEnds (grid : Grid K) (slot : Nat) : Nat × Nat :=
  (slot / 2, slot / 2 + if slot % 2 = 0 then 1 else grid.cols)

/-- Every edge that is known is clear exactly when the cache says so. -/
def Exact (nav : Navigator K) (radius : K) (cache : EdgeCache) : Prop :=
  let grid := gridLayout nav.map
  ∀ slot, cache slot ≠ .unknown →
    decide (cache slot = .clear) =
      nav.staticClear (grid.point (slotEnds grid slot).1)
        (grid.point (slotEnds grid slot).2) radius

def Known (nav : Navigator K) : Prop :=
  ∀ radius cache, nav.edgeCaches radius = some cache → nav.Exact radius cache

omit [IsStrictOrderedRing K] in
theorem remember_exact {radius : K} (h : nav.Exact radius cache) {slot : Nat}
    {a b : MapPoint K}
    (hends : nav.staticClear a b radius =
      nav.staticClear ((gridLayout nav.map).point
          (slotEnds (gridLayout nav.map) slot).1)
        ((gridLayout nav.map).point (slotEnds (gridLayout nav.map) slot).2)
        radius) :
    nav.Exact radius (nav.remember radius cache slot a b) ∧
      decide (nav.remember radius cache slot a b slot = .clear) =
        nav.staticClear a b radius := by
  rw [remember]
  by_cases hunknown : cache slot = .unknown
  · rw [if_pos hunknown]
    have hnow : decide ((if nav.staticClear a b radius then EdgeState.clear
        else EdgeState.blocked) = .clear) = nav.staticClear a b radius := by
      cases nav.staticClear a b radius <;> rfl
    constructor
    · intro other hother
      by_cases hsame : other = slot
      · rw [hsame, Function.update_self, hnow, hends]
      · rw [Function.update_of_ne hsame] at hother ⊢
        exact h other hother
    · rw [Function.update_self, hnow]
  · rw [if_neg hunknown]
    exact ⟨h, (h slot hunknown).trans hends.symm⟩

omit [IsStrictOrderedRing K] in
theorem edgeCache_exact (h : nav.Known) (radius : K) :
    nav.Exact radius (nav.edgeCache radius) := by
  rw [edgeCache]
  cases hcache : nav.edgeCaches radius with
  | none => exact fun slot hslot => absurd rfl hslot
  | some cache => exact h radius cache hcache

omit [IsStrictOrderedRing K] in
theorem keep_known (h : nav.Known) {radius : K}
    (hcache : nav.Exact radius cache) : (nav.keep radius cache).Known := by
  intro other kept hkept
  change Function.update nav.edgeCaches radius (some cache) other = some kept
    at hkept
  by_cases hsame : other = radius
  · rw [hsame, Function.update_self, Option.some_inj] at hkept
    rw [hsame, ← hkept]
    exact hcache
  · rw [Function.update_of_ne hsame] at hkept
    exact h other kept hkept

/-! ### Steps between cells -/

omit [Field K] [LinearOrder K] [IsStrictOrderedRing K] [FloorRing K] in
/-- The numbers of two cells next to each other. -/
theorem neighbours_cases {id next : Nat} (h : next ∈ grid.neighbours id) :
    next = id + 1 ∨ id = next + 1 ∨ next = id + grid.cols ∨
      id = next + grid.cols := by
  obtain ⟨dx, dy, hmove, hcell⟩ := Grid.mem_neighbours.mp h
  obtain ⟨hx, -, hy, -, hnext⟩ := Grid.cell_some.mp hcell
  have hid := Nat.div_add_mod' id grid.cols
  rcases hmove with ⟨rfl, rfl | rfl⟩ | ⟨rfl, rfl | rfl⟩
  · right; right; left
    have hrow : ((id / grid.cols : Nat) + 1 : Int).toNat =
        id / grid.cols + 1 := by omega
    rw [hrow, Nat.succ_mul] at hnext
    omega
  · right; right; right
    obtain ⟨row, hrow⟩ : ∃ row, id / grid.cols = row + 1 :=
      ⟨id / grid.cols - 1, by omega⟩
    rw [hrow] at hnext hid
    rw [Nat.succ_mul] at hid
    have hup : ((row + 1 : Nat) + -1 : Int).toNat = row := by omega
    rw [hup] at hnext
    omega
  · left
    rw [add_zero, Int.toNat_natCast] at hnext
    omega
  · right; left
    rw [add_zero, Int.toNat_natCast] at hnext
    omega

omit [Field K] [LinearOrder K] [IsStrictOrderedRing K] [FloorRing K] in
/-- The slot of a step belongs to its two cells. -/
theorem slotEnds_slot {id next : Nat} (h : next ∈ grid.neighbours id) :
    slotEnds grid (slot id next) = (id, next) ∨
      slotEnds grid (slot id next) = (next, id) := by
  by_cases hone : ((id : Int) - next).natAbs = 1
  · rw [slot, if_pos hone, slotEnds, if_pos (by omega)]
    rcases le_total id next with hle | hle
    · left
      rw [min_eq_left hle]
      exact Prod.ext (by dsimp only; omega) (by dsimp only; omega)
    · right
      rw [min_eq_right hle]
      exact Prod.ext (by dsimp only; omega) (by dsimp only; omega)
  · rw [slot, if_neg hone, slotEnds, if_neg (by omega)]
    rcases neighbours_cases h with hnext | hnext | hnext | hnext
    · omega
    · omega
    · left
      rw [min_eq_left (by omega)]
      exact Prod.ext (by dsimp only; omega) (by dsimp only; omega)
    · right
      rw [min_eq_right (by omega)]
      exact Prod.ext (by dsimp only; omega) (by dsimp only; omega)

/-- An edge of the search is answered like the segment between its cells. -/
theorem edge_answers (nav : Navigator K) {radius : K} (hradius : Covers radius)
    (extra : Option (List (Polygon K))) :
    Answers (gridLayout nav.map).neighbours
      (fun state id next =>
        (nav.probe radius (extra.map obstacleSet)).edge state id next
          ((gridLayout nav.map).point id) ((gridLayout nav.map).point next))
      (nav.Exact radius)
      fun id next => Office.clearSegment nav.map ((gridLayout nav.map).point id)
        ((gridLayout nav.map).point next) radius
        (blockers nav.map nav.mode ++ extra.getD []) := by
  intro cache id next hexact hnext
  have hends : nav.staticClear ((gridLayout nav.map).point id)
      ((gridLayout nav.map).point next) radius =
      nav.staticClear
        ((gridLayout nav.map).point
          (slotEnds (gridLayout nav.map) (slot id next)).1)
        ((gridLayout nav.map).point
          (slotEnds (gridLayout nav.map) (slot id next)).2) radius := by
    rcases slotEnds_slot hnext with hslot | hslot
    · rw [hslot]
    · rw [hslot]
      exact nav.staticClear_comm _ _ radius
  obtain ⟨hnow, hanswer⟩ := remember_exact hexact hends
  refine ⟨?_, hnow⟩
  dsimp only
  rw [← clearSegment_eq nav _ _ extra hradius, clearSegment, ← hanswer]
  rfl

theorem findPath_eq (h : nav.Known) {radius : K} (hradius : Covers radius)
    (extra : Option (List (Polygon K))) (start finish : MapPoint K) :
    (nav.findPath start finish radius (extra.map obstacleSet)).1 =
        Office.findPath nav.map start finish radius nav.mode (extra.getD []) ∧
      (nav.findPath start finish radius (extra.map obstacleSet)).2.Known := by
  obtain ⟨hexact, hpath⟩ := @searchPath_plain K _ _ _ _ nav.map radius
    (blockers nav.map nav.mode ++ extra.getD [])
    (nav.probe radius (extra.map obstacleSet)) (nav.Exact radius)
    (funext fun p => nav.isBlocked_eq p extra hradius)
    (funext fun a => funext fun b => nav.clearSegment_eq a b extra hradius)
    (nav.edge_answers hradius extra) start finish _ (edgeCache_exact h radius)
  exact ⟨hpath, keep_known h hexact⟩

/-! ### Warming -/

omit [LinearOrder K] [IsStrictOrderedRing K] [FloorRing K] in
theorem point_number {x : Nat} (h : x < grid.cols) (y : Nat) :
    grid.point (y * grid.cols + x) = grid.center x y := by
  rw [Grid.point, Nat.add_comm, Nat.add_mul_mod_self_right, Nat.mod_eq_of_lt h,
    Nat.add_mul_div_right _ _ (Nat.zero_lt_of_lt h), Nat.div_eq_of_lt h,
    Nat.zero_add]

omit [IsStrictOrderedRing K] in
theorem warmCell_exact {radius : K} (h : nav.Exact radius cache) (y : Nat)
    {x : Nat} (hx : x < (gridLayout nav.map).cols) :
    nav.Exact radius (nav.warmCell radius y cache x) := by
  let grid := gridLayout nav.map
  let id := y * grid.cols + x
  let here := grid.center x y
  let right :=
    if x + 1 < grid.cols then
      nav.remember radius cache (id * 2) here (grid.center (x + 1) y)
    else cache
  have hhere : grid.point id = here := point_number hx y
  have hright : nav.Exact radius right := by
    by_cases hnext : x + 1 < grid.cols
    · have hslot : slotEnds grid (id * 2) = (id, id + 1) := by
        rw [slotEnds, if_pos (by omega)]
        exact Prod.ext (by dsimp only; omega) (by dsimp only; omega)
      have hpoint : grid.point (id + 1) = grid.center (x + 1) y :=
        point_number hnext y
      have hstep : right = nav.remember radius cache (id * 2) here
          (grid.center (x + 1) y) := if_pos hnext
      rw [hstep]
      apply (remember_exact h _).1
      rw [hslot, hhere, hpoint]
    · have hstep : right = cache := if_neg hnext
      rw [hstep]
      exact h
  have hcell : nav.warmCell radius y cache x =
      if y + 1 < grid.rows then
        nav.remember radius right (id * 2 + 1) here (grid.center x (y + 1))
      else right := rfl
  rw [hcell]
  by_cases hbelow : y + 1 < grid.rows
  · have hslot : slotEnds grid (id * 2 + 1) = (id, id + grid.cols) := by
      rw [slotEnds, if_neg (by omega)]
      exact Prod.ext (by dsimp only; omega) (by dsimp only; omega)
    have hpoint : grid.point (id + grid.cols) = grid.center x (y + 1) := by
      rw [Nat.add_right_comm, ← Nat.succ_mul]
      exact point_number hx (y + 1)
    rw [if_pos hbelow]
    apply (remember_exact hright _).1
    rw [hslot, hhere, hpoint]
  · rw [if_neg hbelow]
    exact hright

omit [IsStrictOrderedRing K] in
theorem warm_known (radii : List K) : ∀ {nav : Navigator K}, nav.Known →
    (nav.warm radii).Known ∧ (nav.warm radii).map = nav.map ∧
      (nav.warm radii).mode = nav.mode := by
  induction radii with
  | nil => exact fun h => ⟨h, rfl, rfl⟩
  | cons radius rest ih =>
      intro nav h
      have hcache : nav.Exact radius
          ((List.range (gridLayout nav.map).rows).foldl
            (fun cache y => (List.range (gridLayout nav.map).cols).foldl
              (nav.warmCell radius y) cache) (nav.edgeCache radius)) := by
        apply List.foldlRecOn _ _ (edgeCache_exact h radius)
        intro cache hcache y _
        apply List.foldlRecOn _ _ hcache
        intro cache hcache x hx
        exact warmCell_exact hcache y (List.mem_range.mp hx)
      exact ih (keep_known h hcache)

/-! ### Calls and their answers -/

theorem answer_eq (h : nav.Known) {call : Call K}
    (hradius : ∀ radius ∈ call.radius, Covers radius) :
    (nav.answer call).1 = reference nav.map nav.mode call ∧
      (nav.answer call).2.Known ∧ (nav.answer call).2.map = nav.map ∧
      (nav.answer call).2.mode = nav.mode := by
  cases call with
  | warm radii => exact ⟨rfl, warm_known radii h⟩
  | isBlocked p radius extra =>
      exact ⟨congrArg Answer.yes (nav.isBlocked_eq p extra (hradius _ rfl)), h,
        rfl, rfl⟩
  | clearSegment a b radius extra =>
      exact ⟨congrArg Answer.yes (nav.clearSegment_eq a b extra (hradius _ rfl)),
        h, rfl, rfl⟩
  | findPath start finish radius extra =>
      obtain ⟨hpath, hknown⟩ := findPath_eq h (hradius _ rfl) extra start finish
      exact ⟨congrArg Answer.path hpath, hknown, rfl, rfl⟩

theorem answers_eq (calls : List (Call K)) :
    ∀ {nav : Navigator K}, nav.Known →
      (∀ call ∈ calls, ∀ radius ∈ call.radius, Covers radius) →
      nav.answers calls = calls.map (reference nav.map nav.mode) := by
  induction calls with
  | nil => exact fun _ _ => rfl
  | cons call rest ih =>
      intro nav h hradius
      obtain ⟨hanswer, hknown, hmap, hmode⟩ :=
        answer_eq h (hradius call List.mem_cons_self)
      have hrest := ih hknown fun other hother =>
        hradius other (List.mem_cons_of_mem _ hother)
      rw [answers, List.map_cons, hanswer, hrest, hmap, hmode]

end Navigator

/-- A navigator answers every sequence of calls like the functions without boxes
or caches, where each radius is at least -9e-7. -/
theorem navigator_exact (map : OfficeMap K) (mode : WalkMode)
    (calls : List (Call K))
    (h : ∀ call ∈ calls, ∀ radius ∈ call.radius, Covers radius) :
    (Navigator.new map mode).answers calls = calls.map (reference map mode) :=
  Navigator.answers_eq calls (fun _ _ hcache => (nomatch hcache)) h

namespace HallWitness

/-- A hall of nine cells with a pillar in the middle. -/
def hall : OfficeMap ℚ where
  width := 30
  height := 30
  gridSize := 10
  elements := []
  zones := [⟨.walkBlocked, true, [⟨10, 10⟩, ⟨20, 10⟩, ⟨20, 20⟩, ⟨10, 20⟩]⟩]
  width_pos := by norm_num
  height_pos := by norm_num

def calls : List (Call ℚ) :=
  [.warm [1], .findPath ⟨5, 5⟩ ⟨25, 25⟩ 1 none,
    .findPath ⟨25, 25⟩ ⟨5, 5⟩ 1 (some [[⟨25, 15⟩]]), .isBlocked ⟨15, 15⟩ 0 none]

/-- A point of the pillar. -/
def shy : Call ℚ := .isBlocked ⟨21 / 2, 15⟩ (-1) none

end HallWitness

open HallWitness in
theorem navigator_exact_hall :
    (Navigator.new hall .employee).answers calls =
      calls.map (reference hall .employee) :=
  navigator_exact hall .employee calls (by
    simp only [calls, List.forall_mem_cons, Call.radius, Option.mem_def,
      Option.some_inj, forall_eq', reduceCtorEq, false_implies, implies_true,
      List.not_mem_nil, Covers, boxEpsilon]
    norm_num)

open HallWitness in
/-- With a negative radius the padding takes a rim of the pillar out of its
box. -/
theorem navigator_shy :
    (Navigator.new hall .employee).answers [shy] = [.yes false] ∧
      [shy].map (reference hall .employee) = [.yes true] := by
  decide +kernel

end AiTeam.Office
