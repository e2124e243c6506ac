/-
Decimals of so many significant digits: a rational is rounded to the nearest
one, or to the even one of two, and a sum is exact as long as the digits
suffice.
-/
import Mathlib.Algebra.BigOperators.Ring.List
import Mathlib.Algebra.Order.BigOperators.Group.List
import Mathlib.Data.Int.Log
import Mathlib.Data.List.Induction
import Mathlib.Data.Rat.Floor

namespace AiTeam.Digits

/-- The nearest integer, and the even one of two. -/
def roundHalfEven (q : ℚ) : ℤ :=
  if q - ⌊q⌋ < 1 / 2 ∨ (q - ⌊q⌋ = 1 / 2 ∧ ⌊q⌋ % 2 = 0) then ⌊q⌋ else ⌊q⌋ + 1

@[simp] theorem roundHalfEven_intCast (n : ℤ) : roundHalfEven n = n := by
  simp [roundHalfEven]

/-- What the last of the digits of a number counts. -/
def unit (digits : Nat) (q : ℚ) : ℚ := 10 ^ (Int.log 10 |q| + 1 - digits)

def roundTo (digits : Nat) (q : ℚ) : ℚ :=
  roundHalfEven (q / unit digits q) * unit digits q

variable {digits places : Nat}

/-- A multiple of the unit is not rounded. -/
theorem roundTo_of_multiple {q : ℚ} {n : ℤ} (h : q = n * unit digits q) :
    roundTo digits q = q := by
  have hunit : unit digits q ≠ 0 := zpow_ne_zero _ (by norm_num)
  rw [roundTo, (div_eq_iff hunit).mpr h, roundHalfEven_intCast, ← h]

theorem roundTo_eq_self {q : ℚ} {n : ℤ} (hmultiple : q * 10 ^ places = n)
    (hlt : |q| * 10 ^ places < 10 ^ digits) : roundTo digits q = q := by
  by_cases hq : q = 0
  · exact roundTo_of_multiple (by rw [hq, Int.cast_zero, zero_mul])
  -- the leading digit stands `m` places before the last one that counts
  have hlog : (10 : ℚ) ^ (Int.log 10 |q| + places) < 10 ^ (digits : ℤ) := by
    rw [zpow_add₀ (by norm_num), zpow_natCast, zpow_natCast]
    have hle := Int.zpow_log_le_self (b := 10) (by norm_num) (abs_pos.mpr hq)
    exact (mul_le_mul_of_nonneg_right hle (by positivity)).trans_lt hlt
  have hplaces := (zpow_lt_zpow_iff_right₀ (by norm_num)).mp hlog
  obtain ⟨m, hm⟩ := Int.eq_ofNat_of_zero_le
    (show 0 ≤ digits - 1 - Int.log 10 |q| - places by omega)
  apply roundTo_of_multiple (n := n * 10 ^ m)
  have hshift : (10 : ℚ) ^ m * unit digits q * 10 ^ places = 1 := by
    rw [unit, ← zpow_natCast, ← zpow_natCast, ← zpow_add₀ (by norm_num),
      ← zpow_add₀ (by norm_num), ← hm]
    convert zpow_zero (10 : ℚ) using 2
    omega
  rw [Int.cast_mul, ← hmultiple, Int.cast_pow, Int.cast_ofNat, mul_assoc,
    mul_assoc]
  rw [mul_comm ((10 : ℚ) ^ places), hshift, mul_one]

/-- The values are multiples of one decimal place, and their sum has no more
than the digits up to it. -/
def Fits (digits : Nat) (values : List ℚ) : Prop :=
  ∃ places : Nat, (∀ value ∈ values, ∃ n : ℤ, value * 10 ^ places = n) ∧
    (values.map fun value => |value| * 10 ^ places).sum < 10 ^ digits

theorem Fits.sublist {values part : List ℚ} (h : Fits digits values)
    (hpart : part.Sublist values) : Fits digits part := by
  obtain ⟨places, hmultiple, hlt⟩ := h
  refine ⟨places, fun value hvalue => hmultiple value (hpart.subset hvalue),
    lt_of_le_of_lt ?_ hlt⟩
  refine (hpart.map _).sum_le_sum fun value hvalue => ?_
  obtain ⟨_, -, rfl⟩ := List.mem_map.mp hvalue
  positivity

theorem Fits.sum {values : List ℚ} (h : Fits digits values) :
    roundTo digits values.sum = values.sum := by
  obtain ⟨places, hmultiple, hlt⟩ := h
  have hinteger : ∃ n : ℤ, values.sum * 10 ^ places = n := by
    clear hlt
    induction values with
    | nil => exact ⟨0, by simp⟩
    | cons value rest ih =>
        obtain ⟨n, hn⟩ := hmultiple value List.mem_cons_self
        obtain ⟨m, hm⟩ := ih fun other hother =>
          hmultiple other (List.mem_cons_of_mem value hother)
        exact ⟨n + m, by rw [List.sum_cons, add_mul, hn, hm, Int.cast_add]⟩
  obtain ⟨n, hn⟩ := hinteger
  refine roundTo_eq_self hn (lt_of_le_of_lt ?_ hlt)
  rw [List.sum_map_mul_right]
  exact mul_le_mul_of_nonneg_right
    (List.le_sum_of_subadditive _ abs_zero.le abs_add_le values) (by positivity)

/-- Adding with rounding at every step. -/
def total (digits : Nat) (values : List ℚ) : ℚ :=
  values.foldl (fun sum value => roundTo digits (sum + value)) 0

theorem total_append (values : List ℚ) (value : ℚ) :
    total digits (values ++ [value]) =
      roundTo digits (total digits values + value) := by
  rw [total, List.foldl_append]
  rfl

theorem Fits.total {values : List ℚ} (h : Fits digits values) :
    total digits values = values.sum := by
  induction values using List.reverseRecOn with
  | nil => rfl
  | append_singleton values value ih =>
      rw [total_append, ih (h.sublist (List.sublist_append_left _ _))]
      simpa using h.sum

end AiTeam.Digits
