/-
Points, segments and polygons of an office map over exact coordinates, and the
two checks of a walker of some radius: a point that is blocked, a segment that
is clear.
-/
import Mathlib.Algebra.Order.Field.Basic
import Mathlib.Algebra.Order.Ring.Abs
import Mathlib.Data.List.Rotate
import Mathlib.Tactic.Linarith
import Mathlib.Tactic.Ring

namespace AiTeam.Office

variable {K : Type} [Field K] [LinearOrder K] [IsStrictOrderedRing K]

structure MapPoint (K : Type) where
  x : K
  y : K
deriving DecidableEq

abbrev Polygon (K : Type) := List (MapPoint K)

/-! ### Distances -/

/-- The square of `segmentDistance`. -/
def segmentDistanceSq (p a b : MapPoint K) : K :=
  let dx := b.x - a.x
  let dy := b.y - a.y
  let square := dx * dx + dy * dy
  let t := max 0 (min 1 (((p.x - a.x) * dx + (p.y - a.y) * dy) /
    if square = 0 then 1 else square))
  (p.x - a.x - t * dx) ^ 2 + (p.y - a.y - t * dy) ^ 2

/-- `segmentDistance(p, a, b) < 1e-7`. -/
def touches (p a b : MapPoint K) : Bool :=
  segmentDistanceSq p a b < (1 / 10 ^ 7) ^ 2

/-- `BOX_EPSILON`, above the width that counts as touching. -/
def boxEpsilon : K := 1 / 10 ^ 6

/-- The padding of a radius covers the width that counts as touching. -/
def Covers (radius : K) : Prop :=
  1 / 10 ^ 7 ≤ radius + boxEpsilon

/-- `segmentDistance(p, a, b) <= radius`. -/
def within (radius : K) (p a b : MapPoint K) : Bool :=
  0 ≤ radius && segmentDistanceSq p a b ≤ radius ^ 2

/-! ### Polygons -/

/-- The sides of a polygon, each from a point to the next. -/
def sides (points : Polygon K) : List (MapPoint K × MapPoint K) :=
  points.zip (points.rotate 1)

/-- The sides of a polygon, each from a point to the one before. -/
def sidesBack (points : Polygon K) : List (MapPoint K × MapPoint K) :=
  points.zip (points.rotate (points.length - 1))

/-- The ray to the right of `p` crosses the side. -/
def crosses (p a b : MapPoint K) : Bool :=
  (decide (a.y > p.y) != decide (b.y > p.y)) &&
    decide (p.x < (b.x - a.x) * (p.y - a.y) / (b.y - a.y) + a.x)

/-- The loop of `pointInPolygon`. -/
def insideFrom (p : MapPoint K) :
    List (MapPoint K × MapPoint K) → Bool → Bool
  | [], inside => inside
  | (a, b) :: rest, inside =>
      if touches p a b then true
      else insideFrom p rest (if crosses p a b then !inside else inside)

def pointInPolygon (p : MapPoint K) (points : Polygon K) : Bool :=
  insideFrom p (sidesBack points) false

def cross (a b c : MapPoint K) : K :=
  (b.x - a.x) * (c.y - a.y) - (b.y - a.y) * (c.x - a.x)

def segmentsIntersect (a b c d : MapPoint K) : Bool :=
  (cross a b c * cross a b d < 0 && cross c d a * cross c d b < 0) ||
    (touches a c d || touches b c d || touches c a b || touches d a b)

/-! ### The map -/

inductive WalkMode where
  | employee
  | any
deriving DecidableEq

/-- An element, with the polygons of `elementFootprints`. -/
structure MapElement (K : Type) where
  blocksMovement : Bool
  footprints : List (Polygon K)

inductive ZoneType where
  | walkBlocked
  | employeeNoEntry
  | spawn
deriving DecidableEq

structure MapPolygon (K : Type) where
  type : ZoneType
  enabled : Bool
  points : Polygon K

/-- A map has an area. -/
structure OfficeMap (K : Type) [Field K] [LinearOrder K] where
  width : K
  height : K
  gridSize : K
  elements : List (MapElement K)
  zones : List (MapPolygon K)
  width_pos : 0 < width
  height_pos : 0 < height

/-- A zone that nobody of this mode walks in. -/
def MapPolygon.blocks (mode : WalkMode) (zone : MapPolygon K) : Bool :=
  zone.enabled && (zone.type == .walkBlocked ||
    (mode == .employee && zone.type == .employeeNoEntry))

def blockers (map : OfficeMap K) (mode : WalkMode) : List (Polygon K) :=
  (map.elements.filter (·.blocksMovement)).flatMap (·.footprints) ++
    (map.zones.filter (·.blocks mode)).map (·.points)

def inBounds (map : OfficeMap K) (p : MapPoint K) (radius : K) : Bool :=
  !(p.x < radius || p.y < radius || map.width - radius < p.x ||
    map.height - radius < p.y)

/-- A polygon that holds a point or comes too close to it. -/
def blocksPoint (p : MapPoint K) (radius : K) (polygon : Polygon K) : Bool :=
  pointInPolygon p polygon ||
    (sides polygon).any fun side => within radius p side.1 side.2

def isBlocked (map : OfficeMap K) (p : MapPoint K) (radius : K)
    (polygons : List (Polygon K)) : Bool :=
  !inBounds map p radius || polygons.any (blocksPoint p radius)

/-- A polygon that a segment meets or comes too close to. -/
def blocksSegment (a b : MapPoint K) (radius : K) (polygon : Polygon K) :
    Bool :=
  (sides polygon).any fun side =>
    segmentsIntersect a b side.1 side.2 ||
      (within radius a side.1 side.2 || within radius b side.1 side.2 ||
        within radius side.1 a b || within radius side.2 a b)

def clearSegment (map : OfficeMap K) (a b : MapPoint K) (radius : K)
    (polygons : List (Polygon K)) : Bool :=
  !(isBlocked map a radius polygons || isBlocked map b radius polygons) &&
    !polygons.any (blocksSegment a b radius)

/-! ### Both directions of a segment -/

theorem clamp_sub (u : K) :
    max 0 (min 1 (1 - u)) = 1 - max 0 (min 1 u) := by
  rcases le_total u 0 with hlow | hlow
  · rw [min_eq_left (by linarith), max_eq_right zero_le_one,
      min_eq_right (by linarith), max_eq_left hlow, sub_zero]
  · rcases le_total u 1 with hhigh | hhigh
    · rw [min_eq_right (by linarith), max_eq_right (by linarith),
        min_eq_right hhigh, max_eq_right hlow]
    · rw [min_eq_right (by linarith), max_eq_left (by linarith),
        min_eq_left hhigh, max_eq_right zero_le_one, sub_self]

theorem segmentDistanceSq_comm (p a b : MapPoint K) :
    segmentDistanceSq p a b = segmentDistanceSq p b a := by
  have hsquare : (b.x - a.x) * (b.x - a.x) + (b.y - a.y) * (b.y - a.y) =
      (a.x - b.x) * (a.x - b.x) + (a.y - b.y) * (a.y - b.y) := by
    ring
  rw [segmentDistanceSq, segmentDistanceSq]
  by_cases hzero : (b.x - a.x) * (b.x - a.x) + (b.y - a.y) * (b.y - a.y) = 0
  · have hx : b.x - a.x = 0 := by
      nlinarith [mul_self_nonneg (b.x - a.x), mul_self_nonneg (b.y - a.y)]
    have hy : b.y - a.y = 0 := by
      nlinarith [mul_self_nonneg (b.x - a.x), mul_self_nonneg (b.y - a.y)]
    rw [sub_eq_zero.mp hx, sub_eq_zero.mp hy]
  · have hunit : ((p.x - b.x) * (a.x - b.x) + (p.y - b.y) * (a.y - b.y)) /
        ((a.x - b.x) * (a.x - b.x) + (a.y - b.y) * (a.y - b.y)) =
        1 - ((p.x - a.x) * (b.x - a.x) + (p.y - a.y) * (b.y - a.y)) /
          ((b.x - a.x) * (b.x - a.x) + (b.y - a.y) * (b.y - a.y)) := by
      rw [← hsquare, eq_sub_iff_add_eq, ← add_div, div_eq_one_iff_eq hzero]
      ring
    simp only [if_neg hzero, if_neg (hsquare ▸ hzero), hunit, clamp_sub]
    ring

theorem touches_comm (p a b : MapPoint K) : touches p a b = touches p b a := by
  rw [touches, touches, segmentDistanceSq_comm]

theorem within_comm (radius : K) (p a b : MapPoint K) :
    within radius p a b = within radius p b a := by
  rw [within, within, segmentDistanceSq_comm]

theorem segmentsIntersect_comm (a b c d : MapPoint K) :
    segmentsIntersect a b c d = segmentsIntersect b a c d := by
  have hsides : cross a b c * cross a b d = cross b a c * cross b a d := by
    simp only [cross]
    ring
  have hends : cross c d a * cross c d b = cross c d b * cross c d a :=
    mul_comm _ _
  rw [segmentsIntersect, segmentsIntersect, hsides, hends, touches_comm c a b,
    touches_comm d a b, Bool.or_comm (touches a c d)]

theorem blocksSegment_comm (a b : MapPoint K) (radius : K)
    (polygon : Polygon K) :
    blocksSegment a b radius polygon = blocksSegment b a radius polygon := by
  rw [blocksSegment, blocksSegment]
  congr 1
  funext side
  rw [segmentsIntersect_comm, within_comm radius side.1 a b,
    within_comm radius side.2 a b, Bool.or_comm (within radius a _ _)]

end AiTeam.Office
