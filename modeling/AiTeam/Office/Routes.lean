/-
The chains of clear segments through the cells of the grid, and that `findPath`
returns a shortest one exactly when there is one.
-/
import Mathlib.Data.Rat.Floor
import Mathlib.Tactic.NormNum
import AiTeam.Office.Path

namespace AiTeam.Office

open BreadthFirst (Joined Route plain initial search search_bounded search_ends
  search_exhausted search_found)

variable {K : Type} [Field K] [LinearOrder K] [FloorRing K]

/-! ### Chains of cells -/

def Grid.Has (grid : Grid K) (cell : Int × Int) : Prop :=
  0 ≤ cell.1 ∧ cell.1 < grid.cols ∧ 0 ≤ cell.2 ∧ cell.2 < grid.rows

/-- The 3×3 cells around a point. -/
def Grid.Around (grid : Grid K) (p : MapPoint K) (cell : Int × Int) : Prop :=
  |cell.1 - ⌊p.x / grid.step⌋| ≤ 1 ∧ |cell.2 - ⌊p.y / grid.step⌋| ≤ 1

/-- Two cells that share a side. -/
def Beside (cell other : Int × Int) : Prop :=
  cell.1 = other.1 ∧ |cell.2 - other.2| = 1 ∨
    cell.2 = other.2 ∧ |cell.1 - other.1| = 1

/-- The segments through the points are clear, each in the direction in which
the search asks: the last one from `finish`, unless it is the only one. -/
def Passable (clear : MapPoint K → MapPoint K → Bool)
    (start finish : MapPoint K) (points : List (MapPoint K)) : Prop :=
  (start :: points).IsChain (fun a b => clear a b = true) ∧
    match points.getLast? with
    | none => clear start finish = true
    | some last => clear finish last = true

/-- Cells with clear segments between them, to the first from a point that it
is around, and to the last from another such point. -/
structure Chain (grid : Grid K) (clear : MapPoint K → MapPoint K → Bool)
    (start finish : MapPoint K) (cells : List (Int × Int)) : Prop where
  inside : ∀ cell ∈ cells, grid.Has cell
  first : ∃ cell, cells.head? = some cell ∧ grid.Around start cell
  last : ∃ cell, cells.getLast? = some cell ∧ grid.Around finish cell
  beside : cells.IsChain Beside
  clear : Passable clear start finish
    (cells.map fun cell => grid.center cell.1 cell.2)

/-! ### Cells of numbers -/

/-- The column and the row of a number. -/
def Grid.parts (grid : Grid K) (id : Nat) : Int × Int :=
  ((id % grid.cols : Nat), (id / grid.cols : Nat))

variable {grid : Grid K} {id : Nat} {clear : MapPoint K → MapPoint K → Bool}

omit [Field K] [LinearOrder K] [FloorRing K] in
theorem Grid.cell_iff {x y : Int} :
    grid.cell x y = some id ↔
      id < grid.cols * grid.rows ∧ grid.parts id = (x, y) := by
  constructor
  · intro h
    obtain ⟨hx, hy⟩ := Grid.cell_parts h
    exact ⟨Grid.cell_lt h, Prod.ext hx hy⟩
  · rintro ⟨hlt, hparts⟩
    have hcell := Grid.cell_of_lt hlt
    rw [Grid.parts, Prod.mk.injEq] at hparts
    rwa [hparts.1, hparts.2] at hcell

omit [Field K] [LinearOrder K] [FloorRing K] in
theorem Grid.has_iff {cell : Int × Int} :
    grid.Has cell ↔ ∃ id < grid.cols * grid.rows, grid.parts id = cell := by
  constructor
  · rintro ⟨hx, hcols, hy, hrows⟩
    have hcell := Grid.cell_some.mpr ⟨hx, hcols, hy, hrows, rfl⟩
    exact ⟨_, Grid.cell_iff.mp hcell⟩
  · rintro ⟨id, hlt, rfl⟩
    obtain ⟨hx, hcols, hy, hrows, -⟩ :=
      Grid.cell_some.mp (Grid.cell_of_lt hlt)
    exact ⟨hx, hcols, hy, hrows⟩

omit [Field K] [LinearOrder K] [FloorRing K] in
/-- Cells of the grid have numbers. -/
theorem Grid.exists_numbers {cells : List (Int × Int)}
    (h : ∀ cell ∈ cells, grid.Has cell) :
    ∃ ids : List Nat, (∀ id ∈ ids, id < grid.cols * grid.rows) ∧
      ids.map grid.parts = cells := by
  induction cells with
  | nil => exact ⟨[], fun _ hid => (nomatch hid), rfl⟩
  | cons cell rest ih =>
      obtain ⟨id, hlt, hparts⟩ := Grid.has_iff.mp (h cell List.mem_cons_self)
      obtain ⟨ids, hids, hrest⟩ := ih fun other hother =>
        h other (List.mem_cons_of_mem _ hother)
      refine ⟨id :: ids, ?_, by rw [List.map_cons, hparts, hrest]⟩
      intro other hother
      rcases List.mem_cons.mp hother with rfl | hother
      · exact hlt
      · exact hids other hother

theorem attach_iff {p : MapPoint K} :
    id ∈ attach grid clear p ↔ id < grid.cols * grid.rows ∧
      grid.Around p (grid.parts id) ∧ clear p (grid.point id) = true := by
  simp only [mem_attach, Grid.cell_iff, Grid.Around, abs_le]
  constructor
  · rintro ⟨dx, dy, hdx, hdy, ⟨hlt, hparts⟩, hclear⟩
    rw [hparts]
    refine ⟨hlt, ⟨⟨?_, ?_⟩, ?_, ?_⟩, hclear⟩ <;> dsimp only <;> omega
  · rintro ⟨hlt, ⟨hx, hy⟩, hclear⟩
    refine ⟨(grid.parts id).1 - ⌊p.x / grid.step⌋,
      (grid.parts id).2 - ⌊p.y / grid.step⌋, hx, hy, ⟨hlt, ?_⟩, hclear⟩
    exact Prod.ext (by dsimp only; omega) (by dsimp only; omega)

omit [Field K] [LinearOrder K] [FloorRing K] in
theorem neighbours_iff {next : Nat} :
    next ∈ grid.neighbours id ↔ next < grid.cols * grid.rows ∧
      Beside (grid.parts id) (grid.parts next) := by
  simp only [Grid.mem_neighbours, Grid.cell_iff, Beside,
    abs_eq (zero_le_one' Int)]
  constructor
  · rintro ⟨dx, dy, hmove, hlt, hparts⟩
    rw [hparts]
    refine ⟨hlt, ?_⟩
    rcases hmove with ⟨rfl, rfl | rfl⟩ | ⟨rfl, rfl | rfl⟩ <;>
      simp [Grid.parts]
  · rintro ⟨hlt, hbeside⟩
    refine ⟨(grid.parts next).1 - (grid.parts id).1,
      (grid.parts next).2 - (grid.parts id).2, ?_, hlt, ?_⟩
    · rcases hbeside with ⟨hx, hy⟩ | ⟨hy, hx⟩
      · exact .inl ⟨by omega, by omega⟩
      · exact .inr ⟨by omega, by omega⟩
    · exact Prod.ext (by simp [Grid.parts]) (by simp [Grid.parts])

/-! ### Chains and routes -/

/-- A route of the search from the cells around a point to the cells around
another. -/
abbrev CellRoute (grid : Grid K) (clear : MapPoint K → MapPoint K → Bool)
    (start finish : MapPoint K) : List Nat → Prop :=
  Route (attach grid clear start)
    (fun id => (attach grid clear finish).contains id) grid.neighbours
    fun id next => clear (grid.point id) (grid.point next)

theorem CellRoute.inside {start finish : MapPoint K} {ids : List Nat}
    (h : CellRoute grid clear start finish ids) :
    ∀ id ∈ ids, id < grid.cols * grid.rows := by
  apply List.IsChain.induction (fun id => id < grid.cols * grid.rows) ids
    h.edges
  · intro id next hjoined _
    exact (neighbours_iff.mp hjoined.1).1
  · intro hne
    obtain ⟨id, hid, hhead⟩ := h.start
    rw [List.head?_eq_some_head hne, Option.some_inj] at hhead
    rw [hhead]
    exact (attach_iff.mp hid).1

/-- The chain of the cells of a route is the route with clear segments to its
ends. -/
theorem chain_iff {start finish : MapPoint K} {ids : List Nat}
    (h : ∀ id ∈ ids, id < grid.cols * grid.rows) :
    Chain grid clear start finish (ids.map grid.parts) ↔
      CellRoute grid clear start finish ids := by
  have hpoints : (ids.map grid.parts).map
      (fun cell => grid.center cell.1 cell.2) = ids.map grid.point :=
    List.map_map
  cases hids : ids with
  | nil =>
      constructor
      · rintro ⟨-, ⟨cell, hcell, -⟩, -⟩
        exact nomatch hcell
      · rintro ⟨⟨id, -, hid⟩, -⟩
        exact nomatch hid
  | cons first rest =>
      rw [← hids]
      obtain ⟨last, hlast⟩ : ∃ last, ids.getLast? = some last :=
        ⟨_, List.getLast?_eq_some_getLast (hids ▸ List.cons_ne_nil _ _)⟩
      have hfirst : ids.head? = some first := by
        rw [hids]
        rfl
      have hsegments : Passable clear start finish (ids.map grid.point) ↔
          (clear start (grid.point first) = true ∧
            ids.IsChain fun id next =>
              clear (grid.point id) (grid.point next) = true) ∧
            clear finish (grid.point last) = true := by
        rw [Passable, List.isChain_cons, List.head?_map, List.getLast?_map,
          List.isChain_map, hfirst, hlast]
        simp
      have hfirstlt := h first (List.mem_of_head? hfirst)
      have hlastlt := h last (List.mem_of_getLast? hlast)
      constructor
      · rintro ⟨-, ⟨cell, hcell, haround⟩, ⟨other, hother, haround'⟩, hbeside,
          hclear⟩
        rw [List.head?_map, hfirst] at hcell
        rw [List.getLast?_map, hlast] at hother
        obtain rfl := Option.some.inj hcell
        obtain rfl := Option.some.inj hother
        rw [hpoints] at hclear
        obtain ⟨⟨hstart, hedges⟩, hfinish⟩ := hsegments.mp hclear
        rw [List.isChain_map] at hbeside
        constructor
        case start =>
          exact ⟨first, attach_iff.mpr ⟨hfirstlt, haround, hstart⟩, hfirst⟩
        case goal =>
          refine ⟨last, hlast, List.contains_iff_mem.mpr ?_⟩
          exact attach_iff.mpr ⟨hlastlt, haround', hfinish⟩
        case edges =>
          rw [List.isChain_iff_getElem] at hbeside hedges ⊢
          intro i hi
          have hnext := h _ (List.getElem_mem hi)
          exact ⟨neighbours_iff.mpr ⟨hnext, hbeside i hi⟩, hedges i hi⟩
      · rintro ⟨⟨id, hid, hhead⟩, hedges, ⟨id', hlast', hgoal⟩⟩
        obtain rfl := Option.some.inj (hfirst.symm.trans hhead)
        obtain rfl := Option.some.inj (hlast.symm.trans hlast')
        obtain ⟨-, haround, hstart⟩ := attach_iff.mp hid
        obtain ⟨-, haround', hfinish⟩ :=
          attach_iff.mp (List.contains_iff_mem.mp hgoal)
        constructor
        case inside =>
          intro cell hcell
          obtain ⟨id, hid, rfl⟩ := List.mem_map.mp hcell
          exact Grid.has_iff.mpr ⟨id, h id hid, rfl⟩
        case first => exact ⟨_, by rw [List.head?_map, hfirst]; rfl, haround⟩
        case last => exact ⟨_, by rw [List.getLast?_map, hlast]; rfl, haround'⟩
        case beside =>
          rw [List.isChain_map]
          exact hedges.imp fun _ _ hjoined => (neighbours_iff.mp hjoined.1).2
        case clear =>
          rw [hpoints]
          exact hsegments.mpr ⟨⟨hstart, hedges.imp fun _ _ hjoined =>
            hjoined.2⟩, hfinish⟩

/-! ### What the search finds -/

section Search

variable (map : OfficeMap K) (start finish : MapPoint K) (radius : K)
  (polygons : List (Polygon K)) (turns : Nat)

theorem attach_subset (grid : Grid K) (clear : MapPoint K → MapPoint K → Bool)
    (p : MapPoint K) :
    attach grid clear p ⊆ List.range (grid.cols * grid.rows) :=
  fun _ hid => List.mem_range.mpr (attach_iff.mp hid).1

omit [Field K] [LinearOrder K] [FloorRing K] in
theorem neighbours_subset (grid : Grid K) :
    ∀ id ∈ List.range (grid.cols * grid.rows),
      grid.neighbours id ⊆ List.range (grid.cols * grid.rows) :=
  fun _ _ _ hnext => List.mem_range.mpr (neighbours_iff.mp hnext).1

/-- The queue never holds more than the cells. -/
theorem directCells_bounded :
    (directCells map start finish radius polygons turns).2.2.queue.length ≤
      (gridLayout map).cols * (gridLayout map).rows := by
  calc (directCells map start finish radius polygons turns).2.2.queue.length
      ≤ (List.range ((gridLayout map).cols * (gridLayout map).rows)).length :=
        search_bounded (attach_nodup _ _ start) (attach_subset _ _ start)
          (neighbours_subset _) turns
    _ = (gridLayout map).cols * (gridLayout map).rows := List.length_range

theorem directCells_ends
    (h : (gridLayout map).cols * (gridLayout map).rows < turns) :
    (directCells map start finish radius polygons turns).1 ≠ .running := by
  apply search_ends (attach_nodup _ _ start) (attach_subset _ _ start)
    (neighbours_subset _) turns
  rw [List.length_range]
  exact h

theorem directCells_exhausted
    (h : (directCells map start finish radius polygons turns).1 = .exhausted)
    (cells : List (Int × Int)) :
    ¬ Chain (gridLayout map) (clearSegment map · · radius polygons) start finish
      cells := by
  intro hchain
  obtain ⟨ids, hids, rfl⟩ := Grid.exists_numbers hchain.inside
  have hroute := (chain_iff hids).mp hchain
  exact search_exhausted (attach_nodup _ _ start) (attach_subset _ _ start)
    (neighbours_subset _) turns h ids hroute

/-- The path to a cell that the search finds goes through a chain of cells, and
no chain has fewer. -/
theorem directCells_found
    (h : (directCells map start finish radius polygons turns).1 = .found id) :
    ∃ cells, Chain (gridLayout map) (clearSegment map · · radius polygons) start
        finish cells ∧
      pathTo (gridLayout map) start finish
          (directCells map start finish radius polygons turns).2.2 id =
        start :: (cells.map fun cell =>
          (gridLayout map).center cell.1 cell.2) ++ [finish] ∧
      ∀ others, Chain (gridLayout map) (clearSegment map · · radius polygons)
        start finish others → cells.length ≤ others.length := by
  obtain ⟨hroute, hshortest⟩ := search_found (attach_nodup _ _ start)
    (attach_subset _ _ start) (neighbours_subset _) turns h
  rw [List.length_range] at hroute hshortest
  refine ⟨_, (chain_iff (CellRoute.inside hroute)).mpr hroute, ?_, ?_⟩
  · rw [pathTo, List.map_map, List.map_reverse, List.reverse_append,
      @List.reverse_cons _ finish]
    rfl
  · intro others hothers
    obtain ⟨ids, hids, rfl⟩ := Grid.exists_numbers hothers.inside
    have hle := hshortest ids ((chain_iff hids).mp hothers)
    rw [List.length_map, List.length_map, List.length_reverse]
    exact hle

end Search

/-- The four ends of `findPath`. -/
theorem findPath_cases (map : OfficeMap K) (start finish : MapPoint K)
    (radius : K) (mode : WalkMode) (extra : List (Polygon K)) :
    let polygons := blockers map mode ++ extra
    let clear := fun a b => clearSegment map a b radius polygons
    let path := findPath map start finish radius mode extra
    ((isBlocked map start radius polygons = true ∨
        isBlocked map finish radius polygons = true) ∧ path = none) ∨
    (isBlocked map start radius polygons = false ∧
      isBlocked map finish radius polygons = false ∧
      clear start finish = true ∧ path = some [start, finish]) ∨
    (isBlocked map start radius polygons = false ∧
      isBlocked map finish radius polygons = false ∧
      clear start finish = false ∧ path = none ∧
      ¬ ∃ chain, Chain (gridLayout map) clear start finish chain) ∨
    (isBlocked map start radius polygons = false ∧
      isBlocked map finish radius polygons = false ∧
      clear start finish = false ∧
      ∃ chain, Chain (gridLayout map) clear start finish chain ∧
        path = some (start :: (chain.map fun cell =>
          (gridLayout map).center cell.1 cell.2) ++ [finish]) ∧
        ∀ others, Chain (gridLayout map) clear start finish others →
          chain.length ≤ others.length) := by
  intro polygons clear path
  have hpath : path = _ :=
    searchPath_direct map start finish radius polygons
  by_cases hblocked : (isBlocked map start radius polygons ||
      isBlocked map finish radius polygons) = true
  · rw [if_pos hblocked] at hpath
    exact .inl ⟨(Bool.or_eq_true _ _).mp hblocked, hpath⟩
  rw [if_neg hblocked] at hpath
  obtain ⟨hstart, hfinish⟩ := Bool.or_eq_false_iff.mp
    (Bool.eq_false_iff.mpr hblocked)
  by_cases hclear : clear start finish = true
  · rw [if_pos hclear] at hpath
    exact .inr (.inl ⟨hstart, hfinish, hclear, hpath⟩)
  rw [if_neg hclear] at hpath
  have hunclear := Bool.eq_false_iff.mpr hclear
  cases hend : (directCells map start finish radius polygons
      ((gridLayout map).cols * (gridLayout map).rows + 1)).1 with
  | running =>
      exact absurd hend (directCells_ends map start finish radius polygons _
        (Nat.lt_succ_self _))
  | exhausted =>
      refine .inr (.inr (.inl ⟨hstart, hfinish, hunclear, ?_, ?_⟩))
      · rw [hpath, hend]
      · rintro ⟨chain, hchain⟩
        exact directCells_exhausted map start finish radius polygons _ hend
          chain hchain
  | found id =>
      obtain ⟨chain, hchain, hcells, hfewest⟩ :=
        directCells_found map start finish radius polygons _ hend
      refine .inr (.inr (.inr ⟨hstart, hfinish, hunclear, chain, hchain, ?_,
        hfewest⟩))
      rw [hpath, ← hcells, hend]

/-- The path of `findPath` is clear, each segment as the search asks for it, so
that no symmetry of the check is used, and starts and ends where it was asked to;
there is none exactly when the points or every chain between them are blocked,
and no chain has fewer cells.  The search ends within a turn for each cell and
one more, and its queue never holds more than the cells. -/
theorem findPath_shortest (map : OfficeMap K) (start finish : MapPoint K)
    (radius : K) (mode : WalkMode) (extra : List (Polygon K)) :
    let polygons := blockers map mode ++ extra
    let clear := fun a b => clearSegment map a b radius polygons
    let cells := (gridLayout map).cols * (gridLayout map).rows
    (∀ path, findPath map start finish radius mode extra = some path →
      path.head? = some start ∧ path.getLast? = some finish ∧
        (∃ points, path = start :: points ++ [finish] ∧
          Passable clear start finish points) ∧
        ∀ chain, Chain (gridLayout map) clear start finish chain →
          path.length ≤ chain.length + 2) ∧
    (findPath map start finish radius mode extra = none ↔
      isBlocked map start radius polygons = true ∨
        isBlocked map finish radius polygons = true ∨
        clear start finish = false ∧
          ¬ ∃ chain, Chain (gridLayout map) clear start finish chain) ∧
    (∀ turns, (directCells map start finish radius polygons
      turns).2.2.queue.length ≤ cells) ∧
    ∀ turns, cells < turns →
      (directCells map start finish radius polygons turns).1 ≠ .running := by
  intro polygons clear cells
  refine ⟨?_, ?_, directCells_bounded map start finish radius polygons,
    directCells_ends map start finish radius polygons⟩
  · intro path hpath
    rcases findPath_cases map start finish radius mode extra with
      ⟨-, hnone⟩ | ⟨-, -, hclear, hdirect⟩ | ⟨-, -, -, hnone, -⟩ |
      ⟨-, -, -, chain, hchain, hsome, hfewest⟩
    · rw [hnone] at hpath
      exact nomatch hpath
    · obtain rfl := Option.some.inj (hdirect.symm.trans hpath)
      refine ⟨rfl, rfl, ⟨[], rfl, List.isChain_singleton _, hclear⟩, ?_⟩
      intro chain _
      exact Nat.le_add_left 2 chain.length
    · rw [hnone] at hpath
      exact nomatch hpath
    · obtain rfl := Option.some.inj (hsome.symm.trans hpath)
      refine ⟨rfl, List.getLast?_concat, ⟨_, rfl, hchain.clear⟩, ?_⟩
      intro others hothers
      have hle := hfewest others hothers
      simp only [List.length_append, List.length_cons, List.length_map,
        List.length_nil]
      omega
  · rcases findPath_cases map start finish radius mode extra with
      ⟨hblocked, hnone⟩ | ⟨hstart, hfinish, hclear, hdirect⟩ |
      ⟨hstart, hfinish, hclear, hnone, hchain⟩ |
      ⟨hstart, hfinish, -, chain, hchain, hsome, -⟩
    · exact iff_of_true hnone (or_assoc.mp (.inl hblocked))
    · apply iff_of_false (by rw [hdirect]; exact Option.some_ne_none _)
      rintro (h | h | ⟨h, -⟩)
      · exact Bool.false_ne_true (hstart.symm.trans h)
      · exact Bool.false_ne_true (hfinish.symm.trans h)
      · exact Bool.false_ne_true (h.symm.trans hclear)
    · exact iff_of_true hnone (.inr (.inr ⟨hclear, hchain⟩))
    · apply iff_of_false (by rw [hsome]; exact Option.some_ne_none _)
      rintro (h | h | ⟨-, h⟩)
      · exact Bool.false_ne_true (hstart.symm.trans h)
      · exact Bool.false_ne_true (hfinish.symm.trans h)
      · exact h ⟨chain, hchain⟩

namespace YardWitness

theorem side_pos : (0 : ℚ) < 30 := by norm_num

/-- A yard of nine cells with a wall from its upper border. -/
def yard : OfficeMap ℚ where
  width := 30
  height := 30
  gridSize := 10
  elements := []
  zones := [⟨.walkBlocked, true, [⟨14, 0⟩, ⟨16, 0⟩, ⟨16, 12⟩, ⟨14, 12⟩]⟩]
  width_pos := side_pos
  height_pos := side_pos

def path : List (MapPoint ℚ) := [⟨5, 5⟩, ⟨15, 15⟩, ⟨25, 5⟩]

end YardWitness

open YardWitness in
theorem findPath_shortest_yard :
    findPath yard ⟨5, 5⟩ ⟨25, 5⟩ 1 .employee [] = some path ∧
      path.head? = some ⟨5, 5⟩ ∧ path.getLast? = some ⟨25, 5⟩ ∧
      (∃ points, path = ⟨5, 5⟩ :: points ++ [⟨25, 5⟩] ∧
        Passable
          (fun a b => clearSegment yard a b 1 (blockers yard .employee ++ []))
          ⟨5, 5⟩ ⟨25, 5⟩ points) ∧
      ∀ chain, Chain (gridLayout yard)
        (fun a b => clearSegment yard a b 1 (blockers yard .employee ++ []))
        ⟨5, 5⟩ ⟨25, 5⟩ chain → path.length ≤ chain.length + 2 :=
  have hpath : findPath yard ⟨5, 5⟩ ⟨25, 5⟩ 1 .employee [] = some path := by
    decide +kernel
  ⟨hpath, (findPath_shortest yard ⟨5, 5⟩ ⟨25, 5⟩ 1 .employee []).1 path hpath⟩

end AiTeam.Office
