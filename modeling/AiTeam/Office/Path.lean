/-
`searchPath`: the grid of a map, the cells a point is attached to and the
breadth-first search between them; and `findPath`, which asks every check anew.
-/
import Mathlib.Algebra.Order.Floor.Ring
import AiTeam.BreadthFirst
import AiTeam.Office.Geometry

namespace AiTeam.Office

open BreadthFirst (Search Outcome Answers initial search search_plain climb)

variable {K : Type} [Field K] [LinearOrder K] [FloorRing K] {S : Type}

/-! ### The grid -/

structure Grid (K : Type) where
  step : K
  cols : Nat
  rows : Nat

def gridLayout (map : OfficeMap K) : Grid K :=
  let step := max map.gridSize (⌈max map.width map.height / 160⌉ : K)
  { step := step
    cols := ⌈map.width / step⌉₊
    rows := ⌈map.height / step⌉₊ }

/-- The center of a cell. -/
def Grid.center (grid : Grid K) (x y : Int) : MapPoint K :=
  ⟨(x + 1 / 2) * grid.step, (y + 1 / 2) * grid.step⟩

def Grid.point (grid : Grid K) (id : Nat) : MapPoint K :=
  grid.center (id % grid.cols : Nat) (id / grid.cols : Nat)

/-- The number of a cell, if the grid has it. -/
def Grid.cell (grid : Grid K) (x y : Int) : Option Nat :=
  if x < 0 || grid.cols ≤ x || y < 0 || grid.rows ≤ y then none
  else some (y.toNat * grid.cols + x.toNat)

/-- The cells left, right, above and below. -/
def Grid.neighbours (grid : Grid K) (id : Nat) : List Nat :=
  let x : Int := (id % grid.cols : Nat)
  let y : Int := (id / grid.cols : Nat)
  [grid.cell (x - 1) y, grid.cell (x + 1) y, grid.cell x (y - 1),
    grid.cell x (y + 1)].filterMap fun cell => cell

/-! ### The search -/

/-- The checks of a search.  The one for the step between two cells may keep a
state. -/
structure SearchProbe (K S : Type) where
  blocked : MapPoint K → Bool
  clear : MapPoint K → MapPoint K → Bool
  edge : S → Nat → Nat → MapPoint K → MapPoint K → Bool × S

/-- The cells around a point that it sees. -/
def attach (grid : Grid K) (clear : MapPoint K → MapPoint K → Bool)
    (p : MapPoint K) : List Nat :=
  let x := ⌊p.x / grid.step⌋
  let y := ⌊p.y / grid.step⌋
  [-1, 0, 1].flatMap fun dy => [-1, 0, 1].filterMap fun dx =>
    (grid.cell (x + dx) (y + dy)).filter fun id => clear p (grid.point id)

/-- The turns of the search between the cells. -/
def searchCells (grid : Grid K) (start finish : MapPoint K)
    (probe : SearchProbe K S) (turns : Nat) (state : S) :
    Outcome Nat × S × Search Nat :=
  search (fun id => (attach grid probe.clear finish).contains id)
    grid.neighbours
    (fun state id next =>
      probe.edge state id next (grid.point id) (grid.point next))
    turns (state, initial (attach grid probe.clear start))

/-- The path through the cells that lead to a cell. -/
def pathTo (grid : Grid K) (start finish : MapPoint K) (search : Search Nat)
    (id : Nat) : List (MapPoint K) :=
  (finish :: (climb search.previous (grid.cols * grid.rows) id).map grid.point ++
    [start]).reverse

def searchPath (map : OfficeMap K) (start finish : MapPoint K)
    (probe : SearchProbe K S) (state : S) : Option (List (MapPoint K)) × S :=
  if probe.blocked start || probe.blocked finish then (none, state)
  else if probe.clear start finish then (some [start, finish], state)
  else
    let grid := gridLayout map
    -- every cell has one turn, and the queue is then empty
    let result := searchCells grid start finish probe
      (grid.cols * grid.rows + 1) state
    (match result.1 with
      | .found id => some (pathTo grid start finish result.2.2 id)
      | _ => none, result.2.1)

/-- The probe that asks every check anew. -/
def directProbe (map : OfficeMap K) (radius : K)
    (polygons : List (Polygon K)) : SearchProbe K Unit where
  blocked p := isBlocked map p radius polygons
  clear a b := clearSegment map a b radius polygons
  edge _ _ _ a b := (clearSegment map a b radius polygons, ())

def findPath (map : OfficeMap K) (start finish : MapPoint K) (radius : K)
    (mode : WalkMode) (extra : List (Polygon K)) :
    Option (List (MapPoint K)) :=
  (searchPath map start finish
    (directProbe map radius (blockers map mode ++ extra)) ()).1

/-- The turns of the search of `findPath`. -/
abbrev directCells (map : OfficeMap K) (start finish : MapPoint K) (radius : K)
    (polygons : List (Polygon K)) (turns : Nat) :
    Outcome Nat × Unit × Search Nat :=
  searchCells (gridLayout map) start finish (directProbe map radius polygons)
    turns ()

theorem searchPath_direct (map : OfficeMap K) (start finish : MapPoint K)
    (radius : K) (polygons : List (Polygon K)) :
    (searchPath map start finish (directProbe map radius polygons) ()).1 =
      if (isBlocked map start radius polygons ||
          isBlocked map finish radius polygons) = true then none
      else if clearSegment map start finish radius polygons = true then
        some [start, finish]
      else
        match (directCells map start finish radius polygons
          ((gridLayout map).cols * (gridLayout map).rows + 1)).1 with
        | .found id =>
            some (pathTo (gridLayout map) start finish
              (directCells map start finish radius polygons
                ((gridLayout map).cols * (gridLayout map).rows + 1)).2.2 id)
        | _ => none := by
  rw [searchPath, apply_ite Prod.fst, apply_ite Prod.fst]
  rfl

/-- A search whose step check answers like a plain one, whatever it remembers,
finds the same path. -/
theorem searchPath_plain {map : OfficeMap K} {radius : K}
    {polygons : List (Polygon K)} {probe : SearchProbe K S} {good : S → Prop}
    (hblocked : probe.blocked = fun p => isBlocked map p radius polygons)
    (hclear : probe.clear = fun a b => clearSegment map a b radius polygons)
    (hedge : Answers (gridLayout map).neighbours
      (fun state id next => probe.edge state id next ((gridLayout map).point id)
        ((gridLayout map).point next)) good
      fun id next => clearSegment map ((gridLayout map).point id)
        ((gridLayout map).point next) radius polygons)
    (start finish : MapPoint K) {state : S} (hgood : good state) :
    good (searchPath map start finish probe state).2 ∧
      (searchPath map start finish probe state).1 =
        (searchPath map start finish (directProbe map radius polygons) ()).1 := by
  rw [searchPath_direct, searchPath, hblocked, hclear]
  by_cases hends : (isBlocked map start radius polygons ||
      isBlocked map finish radius polygons) = true
  · rw [if_pos hends, if_pos hends]
    exact ⟨hgood, rfl⟩
  rw [if_neg hends, if_neg hends]
  by_cases hdirect : clearSegment map start finish radius polygons = true
  · rw [if_pos hdirect, if_pos hdirect]
    exact ⟨hgood, rfl⟩
  rw [if_neg hdirect, if_neg hdirect]
  dsimp only [searchCells]
  rw [hclear]
  let begun := initial (attach (gridLayout map)
    (fun a b => clearSegment map a b radius polygons) start)
  obtain ⟨hstate, houtcome, hsearch⟩ := @search_plain _ _ _
    (fun id => (attach (gridLayout map)
      (fun a b => clearSegment map a b radius polygons) finish).contains id)
    _ _ _ _ hedge ((gridLayout map).cols * (gridLayout map).rows + 1)
    (state, begun) ((), begun) hgood rfl
  refine ⟨hstate, ?_⟩
  rw [houtcome, hsearch]
  rfl

/-! ### Cells and their numbers -/

variable {grid : Grid K} {id : Nat} {x y : Int}

omit [Field K] [LinearOrder K] [FloorRing K] in
theorem Grid.cell_some :
    grid.cell x y = some id ↔ 0 ≤ x ∧ x < grid.cols ∧ 0 ≤ y ∧ y < grid.rows ∧
      id = y.toNat * grid.cols + x.toNat := by
  rw [Grid.cell]
  by_cases hout : (x < 0 || grid.cols ≤ x || y < 0 || grid.rows ≤ y) = true
  · rw [if_pos hout]
    simp only [Bool.or_eq_true, decide_eq_true_eq] at hout
    constructor
    · intro h
      cases h
    · rintro ⟨hx, hcols, hy, hrows, _⟩
      omega
  · rw [if_neg hout, Option.some_inj]
    simp only [Bool.or_eq_true, decide_eq_true_eq, not_or, not_lt,
      not_le] at hout
    obtain ⟨⟨⟨hx, hcols⟩, hy⟩, hrows⟩ := hout
    exact ⟨fun h => ⟨hx, hcols, hy, hrows, h.symm⟩, fun h => h.2.2.2.2.symm⟩

omit [Field K] [LinearOrder K] [FloorRing K] in
theorem Grid.cell_lt (h : grid.cell x y = some id) :
    id < grid.cols * grid.rows := by
  obtain ⟨hx, hcols, hy, hrows, rfl⟩ := Grid.cell_some.mp h
  have hrow : y.toNat + 1 ≤ grid.rows := by omega
  calc y.toNat * grid.cols + x.toNat
      < y.toNat * grid.cols + grid.cols := by omega
    _ = (y.toNat + 1) * grid.cols := (Nat.succ_mul _ _).symm
    _ ≤ grid.rows * grid.cols := Nat.mul_le_mul_right _ hrow
    _ = grid.cols * grid.rows := Nat.mul_comm _ _

omit [Field K] [LinearOrder K] [FloorRing K] in
/-- The column and the row of a number. -/
theorem Grid.cell_parts (h : grid.cell x y = some id) :
    ((id % grid.cols : Nat) : Int) = x ∧ ((id / grid.cols : Nat) : Int) = y := by
  obtain ⟨hx, hcols, hy, hrows, rfl⟩ := Grid.cell_some.mp h
  have hlt : x.toNat < grid.cols := by omega
  have hmod : (y.toNat * grid.cols + x.toNat) % grid.cols = x.toNat := by
    rw [Nat.add_comm, Nat.add_mul_mod_self_right, Nat.mod_eq_of_lt hlt]
  have hdiv : (y.toNat * grid.cols + x.toNat) / grid.cols = y.toNat := by
    rw [Nat.add_comm, Nat.add_mul_div_right _ _ (by omega),
      Nat.div_eq_of_lt hlt, Nat.zero_add]
  rw [hmod, hdiv]
  exact ⟨Int.toNat_of_nonneg hx, Int.toNat_of_nonneg hy⟩

omit [Field K] [LinearOrder K] [FloorRing K] in
/-- Every number below the number of cells is the number of one. -/
theorem Grid.cell_of_lt (h : id < grid.cols * grid.rows) :
    grid.cell (id % grid.cols : Nat) (id / grid.cols : Nat) = some id := by
  have hcols : 0 < grid.cols := by
    rcases Nat.eq_zero_or_pos grid.cols with hzero | hpos
    · rw [hzero, Nat.zero_mul] at h
      exact absurd h (Nat.not_lt_zero id)
    · exact hpos
  apply Grid.cell_some.mpr
  have hmod := Nat.mod_lt id hcols
  have hdiv : id / grid.cols < grid.rows := Nat.div_lt_of_lt_mul h
  refine ⟨Int.natCast_nonneg _, Int.ofNat_lt.mpr hmod, Int.natCast_nonneg _,
    Int.ofNat_lt.mpr hdiv, ?_⟩
  rw [Int.toNat_natCast, Int.toNat_natCast, Nat.mul_comm]
  exact (Nat.div_add_mod id grid.cols).symm

omit [Field K] [LinearOrder K] [FloorRing K] in
theorem Grid.mem_neighbours {next : Nat} :
    next ∈ grid.neighbours id ↔
      ∃ dx dy : Int, (dx = 0 ∧ (dy = 1 ∨ dy = -1) ∨
          dy = 0 ∧ (dx = 1 ∨ dx = -1)) ∧
        grid.cell ((id % grid.cols : Nat) + dx) ((id / grid.cols : Nat) + dy) =
          some next := by
  simp only [Grid.neighbours, List.mem_filterMap, List.mem_cons,
    List.not_mem_nil, or_false]
  constructor
  · rintro ⟨cell, rfl | rfl | rfl | rfl, hcell⟩
    · exact ⟨-1, 0, .inr ⟨rfl, .inr rfl⟩, by rwa [add_zero]⟩
    · exact ⟨1, 0, .inr ⟨rfl, .inl rfl⟩, by rwa [add_zero]⟩
    · exact ⟨0, -1, .inl ⟨rfl, .inr rfl⟩, by rwa [add_zero]⟩
    · exact ⟨0, 1, .inl ⟨rfl, .inl rfl⟩, by rwa [add_zero]⟩
  · rintro ⟨dx, dy, ⟨rfl, rfl | rfl⟩ | ⟨rfl, rfl | rfl⟩, hcell⟩
    · rw [add_zero] at hcell
      exact ⟨_, .inr (.inr (.inr rfl)), hcell⟩
    · rw [add_zero] at hcell
      exact ⟨_, .inr (.inr (.inl rfl)), hcell⟩
    · rw [add_zero] at hcell
      exact ⟨_, .inr (.inl rfl), hcell⟩
    · rw [add_zero] at hcell
      exact ⟨_, .inl rfl, hcell⟩

theorem mem_attach {clear : MapPoint K → MapPoint K → Bool} {p : MapPoint K} :
    id ∈ attach grid clear p ↔
      ∃ dx dy : Int, (-1 ≤ dx ∧ dx ≤ 1) ∧ (-1 ≤ dy ∧ dy ≤ 1) ∧
        grid.cell (⌊p.x / grid.step⌋ + dx) (⌊p.y / grid.step⌋ + dy) = some id ∧
        clear p (grid.point id) = true := by
  have hthree (d : Int) : d ∈ [-1, 0, 1] ↔ -1 ≤ d ∧ d ≤ 1 := by
    simp only [List.mem_cons, List.not_mem_nil, or_false]
    omega
  simp only [attach, List.mem_flatMap, List.mem_filterMap,
    Option.filter_eq_some_iff, hthree]
  constructor
  · rintro ⟨dy, hdy, dx, hdx, hcell, hclear⟩
    exact ⟨dx, dy, hdx, hdy, hcell, hclear⟩
  · rintro ⟨dx, dy, hdx, hdy, hcell, hclear⟩
    exact ⟨dy, hdy, dx, hdx, hcell, hclear⟩

/-- A point is attached to no cell twice. -/
theorem attach_nodup (grid : Grid K) (clear : MapPoint K → MapPoint K → Bool)
    (p : MapPoint K) : (attach grid clear p).Nodup := by
  rw [attach, List.nodup_flatMap]
  constructor
  · intro dy _
    apply List.Nodup.filterMap
    · intro dx dx' id hdx hdx'
      rw [Option.mem_def, Option.filter_eq_some_iff] at hdx hdx'
      have := (Grid.cell_parts hdx.1).1
      have := (Grid.cell_parts hdx'.1).1
      omega
    · decide
  · apply List.Pairwise.imp_of_mem _ (show List.Nodup [-1, (0 : Int), 1] by
      decide)
    intro dy dy' _ _ hne
    rw [Function.onFun_apply, List.disjoint_left]
    intro id hid hid'
    obtain ⟨dx, _, hdx⟩ := List.mem_filterMap.mp hid
    obtain ⟨dx', _, hdx'⟩ := List.mem_filterMap.mp hid'
    rw [Option.filter_eq_some_iff] at hdx hdx'
    have := (Grid.cell_parts hdx.1).2
    have := (Grid.cell_parts hdx'.1).2
    exact hne (by omega)

end AiTeam.Office
