/-
`obstacleSet`: polygons with their bounding boxes, and the checks that skip a
polygon whose box, with some padding, is out of reach.  Where the padding
covers the width that counts as touching, no skipped polygon is in the way.
-/
import Mathlib.Tactic.LinearCombination
import AiTeam.Office.Geometry

namespace AiTeam.Office

variable {K : Type} [Field K] [LinearOrder K] [IsStrictOrderedRing K]

/-! ### Boxes -/

structure Box (K : Type) where
  minX : K
  minY : K
  maxX : K
  maxY : K

def Box.at (p : MapPoint K) : Box K :=
  ⟨p.x, p.y, p.x, p.y⟩

def Box.extend (box : Box K) (p : MapPoint K) : Box K :=
  ⟨min box.minX p.x, min box.minY p.y, max box.maxX p.x, max box.maxY p.y⟩

/-- The box of a polygon.  Without points it would be inside out, and nothing
is near it. -/
def boundingBox : Polygon K → Option (Box K)
  | [] => none
  | p :: rest => some (rest.foldl Box.extend (Box.at p))

/-- The polygons of an `ObstacleSet`, each with its box. -/
abbrev ObstacleSet (K : Type) := List (Polygon K × Option (Box K))

def obstacleSet (polygons : List (Polygon K)) : ObstacleSet K :=
  polygons.map fun polygon => (polygon, boundingBox polygon)

/-- A point outside a padded box. -/
def Box.misses (pad : K) (box : Box K) (p : MapPoint K) : Bool :=
  p.x < box.minX - pad || box.maxX + pad < p.x || p.y < box.minY - pad ||
    box.maxY + pad < p.y

/-- A segment whose padded box is apart from a box. -/
def Box.apart (pad : K) (box : Box K) (a b : MapPoint K) : Bool :=
  box.maxX < min a.x b.x - pad || max a.x b.x + pad < box.minX ||
    box.maxY < min a.y b.y - pad || max a.y b.y + pad < box.minY

def pointBlockedBy (set : ObstacleSet K) (p : MapPoint K) (radius : K) : Bool :=
  set.any fun obstacle =>
    !(obstacle.2.all fun box => box.misses (radius + boxEpsilon) p) &&
      blocksPoint p radius obstacle.1

def segmentBlockedBy (set : ObstacleSet K) (a b : MapPoint K) (radius : K) :
    Bool :=
  set.any fun obstacle =>
    !(obstacle.2.all fun box => box.apart (radius + boxEpsilon) a b) &&
      blocksSegment a b radius obstacle.1

/-! ### What is in a box -/

def Box.Holds (box : Box K) (p : MapPoint K) : Prop :=
  (box.minX ≤ p.x ∧ p.x ≤ box.maxX) ∧ box.minY ≤ p.y ∧ p.y ≤ box.maxY

variable {p a b : MapPoint K} {box : Box K} {polygon : Polygon K}
  {pad radius : K} {f : MapPoint K → K}

omit [Field K] [IsStrictOrderedRing K] in
theorem Box.Holds.extend {q : MapPoint K} (h : box.Holds p ∨ p = q) :
    (box.extend q).Holds p := by
  rcases h with ⟨⟨hminX, hmaxX⟩, hminY, hmaxY⟩ | rfl
  · exact ⟨⟨min_le_of_left_le hminX, le_max_of_le_left hmaxX⟩,
      min_le_of_left_le hminY, le_max_of_le_left hmaxY⟩
  · exact ⟨⟨min_le_right _ _, le_max_right _ _⟩, min_le_right _ _,
      le_max_right _ _⟩

omit [Field K] [IsStrictOrderedRing K] in
theorem Box.holds_foldl (points : List (MapPoint K)) :
    ∀ (box : Box K) (p : MapPoint K), box.Holds p ∨ p ∈ points →
      (points.foldl Box.extend box).Holds p := by
  induction points with
  | nil =>
      rintro box p (h | h)
      · exact h
      · exact nomatch h
  | cons q rest ih =>
      rintro box p h
      apply ih
      rcases h with h | h
      · exact .inl (Box.Holds.extend (.inl h))
      · rcases List.mem_cons.mp h with rfl | h
        · exact .inl (Box.Holds.extend (.inr rfl))
        · exact .inr h

omit [Field K] [IsStrictOrderedRing K] in
theorem boundingBox_holds (h : boundingBox polygon = some box) :
    ∀ p ∈ polygon, box.Holds p := by
  cases polygon with
  | nil => exact nomatch h
  | cons q rest =>
      obtain rfl := Option.some.inj h
      intro p hp
      apply Box.holds_foldl
      rcases List.mem_cons.mp hp with rfl | hp
      · exact .inl ⟨⟨le_rfl, le_rfl⟩, le_rfl, le_rfl⟩
      · exact .inr hp

/-! ### Segments that are out of reach -/

/-- Between two values nothing is below both or above both. -/
theorem between_bounds {low high u v t : K} (ht : 0 ≤ t) (ht' : t ≤ 1)
    (hu : low ≤ u ∧ u ≤ high) (hv : low ≤ v ∧ v ≤ high) :
    low ≤ u + t * (v - u) ∧ u + t * (v - u) ≤ high := by
  have hsplit : u + t * (v - u) = (1 - t) * u + t * v := by ring
  have hrest : 0 ≤ 1 - t := sub_nonneg.mpr ht'
  rw [hsplit]
  constructor
  · have hsum := add_le_add (mul_le_mul_of_nonneg_left hu.1 hrest)
      (mul_le_mul_of_nonneg_left hv.1 ht)
    linarith
  · have hsum := add_le_add (mul_le_mul_of_nonneg_left hu.2 hrest)
      (mul_le_mul_of_nonneg_left hv.2 ht)
    linarith

/-- In the coordinate `f`, `p` is more than `pad` to one side of `a` and `b`. -/
def Beyond (f : MapPoint K → K) (pad : K) (p a b : MapPoint K) : Prop :=
  f p + pad < min (f a) (f b) ∨ max (f a) (f b) + pad < f p

theorem Beyond.lt_abs {t : K} (h : Beyond f pad p a b) (ht : 0 ≤ t)
    (ht' : t ≤ 1) : pad < |f p - f a - t * (f b - f a)| := by
  obtain ⟨hlow, hhigh⟩ := between_bounds ht ht'
    ⟨min_le_left (f a) (f b), le_max_left (f a) (f b)⟩
    ⟨min_le_right (f a) (f b), le_max_right (f a) (f b)⟩
  apply lt_max_iff.mpr
  rcases h with h | h
  · right
    linarith
  · left
    linarith

/-- The distance to a segment is at least the distance in each coordinate. -/
theorem Beyond.lt_distance (hf : f = MapPoint.x ∨ f = MapPoint.y)
    (hpad : 0 ≤ pad) (h : Beyond f pad p a b) :
    pad ^ 2 < segmentDistanceSq p a b := by
  let dx := b.x - a.x
  let dy := b.y - a.y
  let t := max 0 (min 1 (((p.x - a.x) * dx + (p.y - a.y) * dy) /
    if dx * dx + dy * dy = 0 then 1 else dx * dx + dy * dy))
  have hdistance : segmentDistanceSq p a b =
      (p.x - a.x - t * dx) ^ 2 + (p.y - a.y - t * dy) ^ 2 := rfl
  rw [hdistance]
  have hlt := h.lt_abs (le_max_left 0 _ : 0 ≤ t)
    (max_le zero_le_one (min_le_left _ _))
  have hsq : pad ^ 2 < (f p - f a - t * (f b - f a)) ^ 2 := by
    rw [← sq_abs (f p - _ - _)]
    exact pow_lt_pow_left₀ hlt hpad two_ne_zero
  rcases hf with rfl | rfl
  · exact lt_of_lt_of_le hsq (le_add_of_nonneg_right (sq_nonneg _))
  · exact lt_of_lt_of_le hsq (le_add_of_nonneg_left (sq_nonneg _))

theorem Covers.pad_pos (h : Covers radius) : 0 < radius + boxEpsilon :=
  lt_of_lt_of_le (by positivity) h

theorem Beyond.untouched (hf : f = MapPoint.x ∨ f = MapPoint.y)
    (hradius : Covers radius) (h : Beyond f (radius + boxEpsilon) p a b) :
    touches p a b = false ∧ within radius p a b = false := by
  have hlt := h.lt_distance hf hradius.pad_pos.le
  constructor
  · apply decide_eq_false
    have hwidth : (1 / 10 ^ 7 : K) ^ 2 ≤ (radius + boxEpsilon) ^ 2 :=
      pow_le_pow_left₀ (by positivity) hradius 2
    exact not_lt.mpr (hwidth.trans hlt.le)
  · rw [within, Bool.and_eq_false_iff, decide_eq_false_iff_not,
      decide_eq_false_iff_not, not_le, not_le]
    rcases lt_or_ge radius 0 with hneg | hnonneg
    · exact .inl hneg
    · right
      have hle : radius ≤ radius + boxEpsilon :=
        le_add_of_nonneg_right (by rw [boxEpsilon]; positivity)
      exact lt_of_le_of_lt (pow_le_pow_left₀ hnonneg hle 2) hlt

/-- In the coordinate `f`, one segment is before the other. -/
def Before (f : MapPoint K → K) (pad : K) (a b c d : MapPoint K) : Prop :=
  max (f a) (f b) + pad < min (f c) (f d)

/-- A crossing would be a point of both segments. -/
theorem Before.not_crossing (hf : f = MapPoint.x ∨ f = MapPoint.y)
    (hpad : 0 ≤ pad) {c d : MapPoint K} (h : Before f pad a b c d) :
    ¬ (cross a b c * cross a b d < 0 ∧ cross c d a * cross c d b < 0) := by
  rintro ⟨hab, hcd⟩
  have hpoint : cross c d a * f b - cross c d b * f a + cross a b c * f d -
      cross a b d * f c = 0 := by
    rcases hf with rfl | rfl <;> simp only [cross] <;> ring
  have hsum : cross c d a - cross c d b + cross a b c - cross a b d = 0 := by
    simp only [cross]
    ring
  have ha : f a ≤ max (f a) (f b) := le_max_left _ _
  have hb : f b ≤ max (f a) (f b) := le_max_right _ _
  have hc : max (f a) (f b) < f c :=
    (le_add_of_nonneg_right hpad).trans_lt (h.trans_le (min_le_left _ _))
  have hd : max (f a) (f b) < f d :=
    (le_add_of_nonneg_right hpad).trans_lt (h.trans_le (min_le_right _ _))
  generalize max (f a) (f b) = high at ha hb hc hd
  have hbalance : cross c d a * (f b - high) - cross c d b * (f a - high) +
      cross a b c * (f d - high) - cross a b d * (f c - high) = 0 := by
    linear_combination hpoint - high * hsum
  rcases mul_neg_iff.mp hcd with ⟨hpos, hneg⟩ | ⟨hneg, hpos⟩
  · rcases mul_neg_iff.mp hab with ⟨hpos', hneg'⟩ | ⟨hneg', hpos'⟩
    · linarith
    · linarith [mul_nonneg hpos.le (sub_nonneg.mpr hb),
        mul_nonneg (neg_nonneg.mpr hneg.le) (sub_nonneg.mpr ha),
        mul_pos (neg_pos.mpr hneg') (sub_pos.mpr hd),
        mul_pos hpos' (sub_pos.mpr hc)]
  · rcases mul_neg_iff.mp hab with ⟨hpos', hneg'⟩ | ⟨hneg', hpos'⟩
    · linarith [mul_nonneg (neg_nonneg.mpr hneg.le) (sub_nonneg.mpr hb),
        mul_nonneg hpos.le (sub_nonneg.mpr ha),
        mul_pos hpos' (sub_pos.mpr hd),
        mul_pos (neg_pos.mpr hneg') (sub_pos.mpr hc)]
    · linarith

/-- A side before or after a segment is not in its way. -/
theorem Before.unblocked (hf : f = MapPoint.x ∨ f = MapPoint.y)
    (hradius : Covers radius) {c d : MapPoint K}
    (h : Before f (radius + boxEpsilon) a b c d ∨
      Before f (radius + boxEpsilon) c d a b) :
    (segmentsIntersect a b c d ||
      (within radius a c d || within radius b c d || within radius c a b ||
        within radius d a b)) = false := by
  have hpad := hradius.pad_pos.le
  have hcrossing : ¬ (cross a b c * cross a b d < 0 ∧
      cross c d a * cross c d b < 0) := by
    rcases h with h | h
    · exact h.not_crossing hf hpad
    · exact fun hboth => h.not_crossing hf hpad hboth.symm
  have hends : Beyond f (radius + boxEpsilon) a c d ∧
      Beyond f (radius + boxEpsilon) b c d ∧
      Beyond f (radius + boxEpsilon) c a b ∧
      Beyond f (radius + boxEpsilon) d a b := by
    rcases h with h | h
    · have hc := h.trans_le (min_le_left (f c) (f d))
      have hd := h.trans_le (min_le_right (f c) (f d))
      refine ⟨.inl ?_, .inl ?_, .inr hc, .inr hd⟩
      · exact (add_le_add_left (le_max_left (f a) (f b)) _).trans_lt h
      · exact (add_le_add_left (le_max_right (f a) (f b)) _).trans_lt h
    · have ha := h.trans_le (min_le_left (f a) (f b))
      have hb := h.trans_le (min_le_right (f a) (f b))
      refine ⟨.inr ha, .inr hb, .inl ?_, .inl ?_⟩
      · exact (add_le_add_left (le_max_left (f c) (f d)) _).trans_lt h
      · exact (add_le_add_left (le_max_right (f c) (f d)) _).trans_lt h
  obtain ⟨ha, hb, hc, hd⟩ := hends
  obtain ⟨hatouch, hawithin⟩ := ha.untouched hf hradius
  obtain ⟨hbtouch, hbwithin⟩ := hb.untouched hf hradius
  obtain ⟨hctouch, hcwithin⟩ := hc.untouched hf hradius
  obtain ⟨hdtouch, hdwithin⟩ := hd.untouched hf hradius
  rw [segmentsIntersect, hatouch, hbtouch, hctouch, hdtouch, hawithin, hbwithin,
    hcwithin, hdwithin, ← Bool.decide_and, decide_eq_false hcrossing]
  rfl

/-! ### Points that are out of reach -/

/-- Whether an odd number of answers is yes. -/
def parity (answers : List Bool) : Bool :=
  answers.foldr xor false

theorem parity_perm {answers others : List Bool} (h : answers.Perm others) :
    parity answers = parity others :=
  h.foldr_eq' (fun x _ y _ z => Bool.xor_left_comm y x z) false

theorem parity_zipWith (answers : List Bool) :
    ∀ others : List Bool, answers.length = others.length →
      parity (List.zipWith xor answers others) =
        (parity answers ^^ parity others) := by
  induction answers with
  | nil =>
      intro others h
      rw [List.eq_nil_of_length_eq_zero h.symm]
      rfl
  | cons answer rest ih =>
      intro others h
      cases others with
      | nil => exact nomatch h
      | cons other others =>
          have hrest := ih others (Nat.succ.inj h)
          simp only [parity, List.zipWith_cons_cons, List.foldr_cons] at hrest ⊢
          rw [hrest, Bool.xor_assoc, Bool.xor_left_comm other, Bool.xor_assoc]

/-- A property changes an even number of times around a cycle. -/
theorem parity_cycle {A : Type} (f : A → Bool) (points : List A) (n : Nat) :
    parity ((points.zip (points.rotate n)).map fun side =>
      f side.1 ^^ f side.2) = false := by
  have hzip : (points.zip (points.rotate n)).map (fun side =>
      f side.1 ^^ f side.2) =
      List.zipWith xor (points.map f) ((points.rotate n).map f) := by
    rw [List.zipWith_map, List.zip, List.map_zipWith]
  rw [hzip, parity_zipWith _ _ (by simp),
    parity_perm ((points.rotate_perm n).map f), Bool.xor_self]

omit [IsStrictOrderedRing K] in
/-- The loop of `pointInPolygon` counts the crossings where no side is
touched. -/
theorem insideFrom_eq :
    ∀ (list : List (MapPoint K × MapPoint K)) (inside : Bool),
      (∀ side ∈ list, touches p side.1 side.2 = false) →
      insideFrom p list inside =
        (inside ^^ parity (list.map fun side => crosses p side.1 side.2)) := by
  intro list
  induction list with
  | nil => exact fun inside _ => (Bool.xor_false inside).symm
  | cons side rest ih =>
      intro inside h
      rw [insideFrom, h side List.mem_cons_self, if_neg Bool.false_ne_true,
        ih _ fun other hother => h other (List.mem_cons_of_mem _ hother)]
      cases hcross : crosses p side.1 side.2 <;> simp [parity, hcross]

/-- Where the ray meets a side that passes its height. -/
theorem crossing_between
    (h : (decide (a.y > p.y) != decide (b.y > p.y)) = true) {low high : K}
    (ha : low ≤ a.x ∧ a.x ≤ high) (hb : low ≤ b.x ∧ b.x ≤ high) :
    low ≤ (b.x - a.x) * (p.y - a.y) / (b.y - a.y) + a.x ∧
      (b.x - a.x) * (p.y - a.y) / (b.y - a.y) + a.x ≤ high := by
  have hmeet : (b.x - a.x) * (p.y - a.y) / (b.y - a.y) + a.x =
      a.x + (p.y - a.y) / (b.y - a.y) * (b.x - a.x) := by
    ring
  have hpart : 0 ≤ (p.y - a.y) / (b.y - a.y) ∧
      (p.y - a.y) / (b.y - a.y) ≤ 1 := by
    rw [bne_iff_ne, ne_eq, decide_eq_decide] at h
    rcases lt_or_ge p.y a.y with habove | hbelow
    · have hb' : b.y ≤ p.y := not_lt.mp fun hlt =>
        h (iff_of_true habove hlt)
      have hneg : b.y - a.y < 0 := sub_neg.mpr (hb'.trans_lt habove)
      refine ⟨div_nonneg_of_nonpos (sub_nonpos.mpr habove.le) hneg.le, ?_⟩
      exact (div_le_one_of_neg hneg).mpr (sub_le_sub_right hb' _)
    · have hb' : p.y < b.y := not_le.mp fun hle =>
        h (iff_of_false (not_lt.mpr hbelow) (not_lt.mpr hle))
      have hpos : 0 < b.y - a.y := sub_pos.mpr (hbelow.trans_lt hb')
      refine ⟨div_nonneg (sub_nonneg.mpr hbelow) hpos.le, ?_⟩
      exact (div_le_one hpos).mpr (sub_le_sub_right hb'.le _)
  rw [hmeet]
  exact between_bounds hpart.1 hpart.2 ha hb

theorem parity_false {answers : List Bool} (h : ∀ a ∈ answers, a = false) :
    parity answers = false := by
  induction answers with
  | nil => rfl
  | cons answer rest ih =>
      rw [parity, List.foldr_cons, h answer List.mem_cons_self,
        Bool.false_xor]
      exact ih fun a ha => h a (List.mem_cons_of_mem _ ha)

omit [Field K] [LinearOrder K] [IsStrictOrderedRing K] in
theorem mem_zip_rotate {points : Polygon K} {n : Nat}
    {side : MapPoint K × MapPoint K}
    (h : side ∈ points.zip (points.rotate n)) :
    side.1 ∈ points ∧ side.2 ∈ points :=
  ⟨(List.of_mem_zip h).1, List.mem_rotate.mp (List.of_mem_zip h).2⟩

theorem Box.misses_cases (h : box.misses pad p = true) :
    p.x + pad < box.minX ∨ box.maxX + pad < p.x ∨ p.y + pad < box.minY ∨
      box.maxY + pad < p.y := by
  simpa only [Box.misses, Bool.or_eq_true, decide_eq_true_eq, or_assoc,
    lt_sub_iff_add_lt] using h

theorem Box.beyond (h : box.misses pad p = true) (ha : box.Holds a)
    (hb : box.Holds b) :
    Beyond MapPoint.x pad p a b ∨ Beyond MapPoint.y pad p a b := by
  rcases Box.misses_cases h with h | h | h | h
  · exact .inl (.inl (h.trans_le (le_min ha.1.1 hb.1.1)))
  · exact .inl (.inr ((add_le_add_left (max_le ha.1.2 hb.1.2) _).trans_lt h))
  · exact .inr (.inl (h.trans_le (le_min ha.2.1 hb.2.1)))
  · exact .inr (.inr ((add_le_add_left (max_le ha.2.2 hb.2.2) _).trans_lt h))

theorem Box.untouched (hradius : Covers radius)
    (h : box.misses (radius + boxEpsilon) p = true) (ha : box.Holds a)
    (hb : box.Holds b) :
    touches p a b = false ∧ within radius p a b = false := by
  rcases Box.beyond h ha hb with h | h
  · exact h.untouched (.inl rfl) hradius
  · exact h.untouched (.inr rfl) hradius

/-- The ray from outside the box crosses no side or, from its left, every side
that passes its height. -/
theorem Box.parity_crosses (hpad : 0 ≤ pad) (h : box.misses pad p = true)
    {points : Polygon K} (hpoints : ∀ q ∈ points, box.Holds q) (n : Nat) :
    parity ((points.zip (points.rotate n)).map fun side =>
      crosses p side.1 side.2) = false := by
  have hnone (hcrosses : ∀ a b, box.Holds a → box.Holds b →
      crosses p a b = false) :
      parity ((points.zip (points.rotate n)).map fun side =>
        crosses p side.1 side.2) = false := by
    apply parity_false
    intro answer hanswer
    obtain ⟨side, hside, rfl⟩ := List.mem_map.mp hanswer
    obtain ⟨hfirst, hsecond⟩ := mem_zip_rotate hside
    exact hcrosses _ _ (hpoints _ hfirst) (hpoints _ hsecond)
  rcases Box.misses_cases h with h | h | h | h
  · rw [← parity_cycle (fun q => decide (q.y > p.y)) points n]
    congr 1
    apply List.map_congr_left
    intro side hside
    obtain ⟨hfirst, hsecond⟩ := mem_zip_rotate hside
    rw [crosses]
    cases hpass : decide (side.1.y > p.y) != decide (side.2.y > p.y) with
    | false => exact hpass.symm
    | true =>
        have hmeet := (crossing_between hpass (hpoints _ hfirst).1
          (hpoints _ hsecond).1).1
        have hright : p.x < box.minX := (le_add_of_nonneg_right hpad).trans_lt h
        rw [decide_eq_true (hright.trans_le hmeet)]
        exact hpass.symm
  · apply hnone
    intro a b ha hb
    cases hcross : crosses p a b with
    | false => rfl
    | true =>
        rw [crosses, Bool.and_eq_true, decide_eq_true_eq] at hcross
        have hmeet := (crossing_between hcross.1 ha.1 hb.1).2
        have hright : box.maxX < p.x := (le_add_of_nonneg_right hpad).trans_lt h
        exact absurd hcross.2 (not_lt.mpr (hmeet.trans hright.le))
  · apply hnone
    intro a b ha hb
    have hbelow : p.y < box.minY := (le_add_of_nonneg_right hpad).trans_lt h
    rw [crosses, decide_eq_true (hbelow.trans_le ha.2.1),
      decide_eq_true (hbelow.trans_le hb.2.1)]
    rfl
  · apply hnone
    intro a b ha hb
    have habove : box.maxY < p.y := (le_add_of_nonneg_right hpad).trans_lt h
    rw [crosses, decide_eq_false (not_lt.mpr (ha.2.2.trans habove.le)),
      decide_eq_false (not_lt.mpr (hb.2.2.trans habove.le))]
    rfl

/-- A point outside the padded box of a polygon is not blocked by it. -/
theorem blocksPoint_misses (hbox : boundingBox polygon = some box)
    (hradius : Covers radius) (h : box.misses (radius + boxEpsilon) p = true) :
    blocksPoint p radius polygon = false := by
  have hpoints := boundingBox_holds hbox
  rw [blocksPoint, Bool.or_eq_false_iff]
  constructor
  · rw [pointInPolygon, insideFrom_eq, sidesBack,
      Box.parity_crosses hradius.pad_pos.le h hpoints]
    · rfl
    · intro side hside
      obtain ⟨hfirst, hsecond⟩ := mem_zip_rotate hside
      exact (Box.untouched hradius h (hpoints _ hfirst) (hpoints _ hsecond)).1
  · rw [List.any_eq_false]
    intro side hside
    obtain ⟨hfirst, hsecond⟩ := mem_zip_rotate hside
    rw [(Box.untouched hradius h (hpoints _ hfirst) (hpoints _ hsecond)).2]
    exact Bool.false_ne_true

/-- A segment whose padded box is apart from the box of a polygon is not blocked
by it. -/
theorem blocksSegment_apart (hbox : boundingBox polygon = some box)
    (hradius : Covers radius) (h : box.apart (radius + boxEpsilon) a b = true) :
    blocksSegment a b radius polygon = false := by
  rw [blocksSegment, List.any_eq_false]
  intro side hside
  obtain ⟨hfirst, hsecond⟩ := mem_zip_rotate hside
  have hc := boundingBox_holds hbox _ hfirst
  have hd := boundingBox_holds hbox _ hsecond
  rw [Bool.not_eq_true]
  have hapart : box.maxX + (radius + boxEpsilon) < min a.x b.x ∨
      max a.x b.x + (radius + boxEpsilon) < box.minX ∨
      box.maxY + (radius + boxEpsilon) < min a.y b.y ∨
      max a.y b.y + (radius + boxEpsilon) < box.minY := by
    simpa only [Box.apart, Bool.or_eq_true, decide_eq_true_eq, or_assoc,
      lt_sub_iff_add_lt] using h
  rcases hapart with h | h | h | h
  · exact Before.unblocked (.inl rfl) hradius
      (.inr ((add_le_add_left (max_le hc.1.2 hd.1.2) _).trans_lt h))
  · exact Before.unblocked (.inl rfl) hradius
      (.inl (h.trans_le (le_min hc.1.1 hd.1.1)))
  · exact Before.unblocked (.inr rfl) hradius
      (.inr ((add_le_add_left (max_le hc.2.2 hd.2.2) _).trans_lt h))
  · exact Before.unblocked (.inr rfl) hradius
      (.inl (h.trans_le (le_min hc.2.1 hd.2.1)))

/-! ### No skipped polygon is in the way -/

omit [Field K] [IsStrictOrderedRing K] in
theorem any_unless_skipped {polygons : List (Polygon K)}
    {skips : Box K → Bool} {blocks : Polygon K → Bool}
    (hnil : blocks [] = false) (h : ∀ polygon box,
      boundingBox polygon = some box → skips box = true →
      blocks polygon = false) :
    ((obstacleSet polygons).any fun obstacle =>
      !(obstacle.2.all skips) && blocks obstacle.1) = polygons.any blocks := by
  rw [obstacleSet, List.any_map]
  congr 1
  funext polygon
  dsimp only [Function.comp_apply]
  cases hbox : boundingBox polygon with
  | none =>
      cases polygon with
      | nil => exact hnil.symm
      | cons p rest => exact nomatch hbox
  | some box =>
      rw [Option.all_some]
      cases hskips : skips box with
      | false => rfl
      | true => exact (h polygon box hbox hskips).symm

theorem pointBlockedBy_eq (polygons : List (Polygon K)) (p : MapPoint K)
    (hradius : Covers radius) :
    pointBlockedBy (obstacleSet polygons) p radius =
      polygons.any (blocksPoint p radius) :=
  any_unless_skipped rfl fun _ _ hbox h => blocksPoint_misses hbox hradius h

theorem segmentBlockedBy_eq (polygons : List (Polygon K)) (a b : MapPoint K)
    (hradius : Covers radius) :
    segmentBlockedBy (obstacleSet polygons) a b radius =
      polygons.any (blocksSegment a b radius) :=
  any_unless_skipped rfl fun _ _ hbox h => blocksSegment_apart hbox hradius h

end AiTeam.Office
