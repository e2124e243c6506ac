/-
Base64: three bytes as four digits, and the digits read back.
-/
import Mathlib.Data.List.TakeWhile
import AiTeam.Unicode

namespace AiTeam.Base64

open AiTeam.Unicode

/-- The six bits of each digit. -/
def sextets : Bytes → List Nat
  | [] => []
  | [a] => [a.toNat / 4, a.toNat % 4 * 16]
  | [a, b] => [a.toNat / 4, a.toNat % 4 * 16 + b.toNat / 16, b.toNat % 16 * 4]
  | a :: b :: c :: rest =>
      a.toNat / 4 :: (a.toNat % 4 * 16 + b.toNat / 16) ::
        (b.toNat % 16 * 4 + c.toNat / 64) :: c.toNat % 64 :: sextets rest

/-- A single digit left over stands for no byte. -/
def bytesOf : List Nat → Bytes
  | w :: x :: y :: z :: rest =>
      (w * 4 + x / 16).toUInt8 :: (x % 16 * 16 + y / 4).toUInt8 ::
        (y % 4 * 64 + z).toUInt8 :: bytesOf rest
  | [w, x, y] => [(w * 4 + x / 16).toUInt8, (x % 16 * 16 + y / 4).toUInt8]
  | [w, x] => [(w * 4 + x / 16).toUInt8]
  | _ => []

/-- `A-Z`, `a-z`, `0-9`, `+` and `/`. -/
def digit (d : Nat) : Nat :=
  if d < 26 then 65 + d
  else if d < 52 then 71 + d
  else if d < 62 then d - 4
  else if d = 62 then 43
  else 47

def digitValue (c : Nat) : Option Nat :=
  if 65 ≤ c && c ≤ 90 then some (c - 65)
  else if 97 ≤ c && c ≤ 122 then some (c - 71)
  else if 48 ≤ c && c ≤ 57 then some (c + 4)
  else if c = 43 then some 62
  else if c = 47 then some 63
  else none

def pad : Nat := 61

def padding (bytes : Bytes) : Text :=
  List.replicate ((3 - bytes.length % 3) % 3) pad

def encode (bytes : Bytes) : Text :=
  (sextets bytes).map digit ++ padding bytes

/-- The digits up to the padding; what is no digit is passed over. -/
def decode (text : Text) : Bytes :=
  bytesOf ((text.takeWhile (· != pad)).filterMap digitValue)

/-- `/^[A-Za-z0-9+/]+={0,2}$/`. -/
def isEncoding (text : Text) : Bool :=
  let body := text.takeWhile fun c => (digitValue c).isSome
  let rest := text.drop body.length
  !body.isEmpty && rest.length ≤ 2 && rest.all (· == pad)

/-! ### Round trip -/

theorem sextets_lt (bytes : Bytes) : ∀ d ∈ sextets bytes, d < 64 := by
  induction bytes using sextets.induct with
  | case1 => simp [sextets]
  | case2 a =>
      have ha := a.toNat_lt
      simp only [sextets, List.forall_mem_cons]
      refine ⟨by omega, by omega, by simp⟩
  | case3 a b =>
      have ha := a.toNat_lt
      have hb := b.toNat_lt
      simp only [sextets, List.forall_mem_cons]
      refine ⟨by omega, by omega, by omega, by simp⟩
  | case4 a b c rest ih =>
      have ha := a.toNat_lt
      have hb := b.toNat_lt
      have hc := c.toNat_lt
      simp only [sextets, List.forall_mem_cons]
      exact ⟨by omega, by omega, by omega, by omega, ih⟩

theorem toUInt8_toNat {n : Nat} {a : UInt8} (h : n = a.toNat) :
    n.toUInt8 = a := by
  rw [h]
  exact UInt8.ofNat_toNat

theorem bytesOf_sextets (bytes : Bytes) : bytesOf (sextets bytes) = bytes := by
  induction bytes using sextets.induct with
  | case1 => rfl
  | case2 a =>
      have ha := a.toNat_lt
      rw [sextets, bytesOf, toUInt8_toNat (a := a) (by omega)]
  | case3 a b =>
      have ha := a.toNat_lt
      have hb := b.toNat_lt
      rw [sextets, bytesOf, toUInt8_toNat (a := a) (by omega),
        toUInt8_toNat (a := b) (by omega)]
  | case4 a b c rest ih =>
      have ha := a.toNat_lt
      have hb := b.toNat_lt
      have hc := c.toNat_lt
      rw [sextets, bytesOf, toUInt8_toNat (a := a) (by omega),
        toUInt8_toNat (a := b) (by omega), toUInt8_toNat (a := c) (by omega),
        ih]

theorem digitValue_digit {d : Nat} (h : d < 64) :
    digitValue (digit d) = some d := by
  revert d
  decide

theorem digit_ne_pad {d : Nat} (h : d < 64) : digit d ≠ pad := by
  revert d
  decide

theorem digits_encode (bytes : Bytes) :
    ((encode bytes).takeWhile (· != pad)).filterMap digitValue =
      sextets bytes := by
  have hpadding : (padding bytes).takeWhile (· != pad) = [] := by
    rw [padding]
    cases (3 - bytes.length % 3) % 3 with
    | zero => rfl
    | succ n => simp [List.replicate_succ]
  have hdigits : ∀ c ∈ (sextets bytes).map digit, (c != pad) = true := by
    intro c hc
    obtain ⟨d, hd, rfl⟩ := List.mem_map.mp hc
    exact bne_iff_ne.mpr (digit_ne_pad (sextets_lt bytes d hd))
  rw [encode, List.takeWhile_append_of_pos hdigits, hpadding, List.append_nil,
    List.filterMap_map]
  calc (sextets bytes).filterMap (digitValue ∘ digit)
      = (sextets bytes).filterMap some :=
        List.filterMap_congr fun d hd => digitValue_digit (sextets_lt bytes d hd)
    _ = sextets bytes := List.filterMap_some

theorem decode_encode (bytes : Bytes) : decode (encode bytes) = bytes := by
  rw [decode, digits_encode, bytesOf_sextets]

/-! ### The form of an encoding -/

theorem sextets_length (bytes : Bytes) :
    (sextets bytes).length = (bytes.length * 4 + 2) / 3 := by
  induction bytes using sextets.induct with
  | case1 => rfl
  | case2 a => simp [sextets]
  | case3 a b => simp [sextets]
  | case4 a b c rest ih =>
      simp only [sextets, List.length_cons, ih]
      omega

theorem encode_length (bytes : Bytes) : (encode bytes).length % 4 = 0 := by
  rw [encode, padding, List.length_append, List.length_map,
    List.length_replicate, sextets_length]
  have hmod : bytes.length % 3 = 0 ∨ bytes.length % 3 = 1 ∨
      bytes.length % 3 = 2 := by
    omega
  rcases hmod with hmod | hmod | hmod <;> rw [hmod] <;> omega

theorem isEncoding_encode {bytes : Bytes} (h : bytes ≠ []) :
    isEncoding (encode bytes) = true := by
  have hdigits : ∀ c ∈ (sextets bytes).map digit,
      (digitValue c).isSome = true := by
    intro c hc
    obtain ⟨d, hd, rfl⟩ := List.mem_map.mp hc
    rw [digitValue_digit (sextets_lt bytes d hd)]
    rfl
  have hpadding : (padding bytes).takeWhile (fun c => (digitValue c).isSome) =
      [] := by
    rw [padding]
    cases (3 - bytes.length % 3) % 3 with
    | zero => rfl
    | succ n => simp [List.replicate_succ, pad, digitValue]
  have hbody : (encode bytes).takeWhile (fun c => (digitValue c).isSome) =
      (sextets bytes).map digit := by
    rw [encode, List.takeWhile_append_of_pos hdigits, hpadding,
      List.append_nil]
  have hnonempty : (sextets bytes).map digit ≠ [] := by
    intro hnil
    have hlength := sextets_length bytes
    rw [List.map_eq_nil_iff] at hnil
    rw [hnil] at hlength
    have := List.length_pos_iff.mpr h
    simp only [List.length_nil] at hlength
    omega
  have hdrop : (encode bytes).drop ((sextets bytes).map digit).length =
      padding bytes := List.drop_left
  simp only [isEncoding, hbody, hdrop, Bool.and_eq_true,
    Bool.not_eq_true', List.isEmpty_eq_false_iff, decide_eq_true_eq]
  refine ⟨⟨hnonempty, ?_⟩, ?_⟩
  · rw [padding, List.length_replicate]
    omega
  · rw [padding, List.all_replicate]
    simp

end AiTeam.Base64
