/-
Percent escapes of bytes: what is written for a byte, and reading it back.
-/
import AiTeam.Unicode

namespace AiTeam.Percent

open Unicode (Bytes utf8 decodeUtf8)

def percent : UInt8 := 0x25

def slash : UInt8 := 0x2F

def isDigit (b : UInt8) : Bool := 0x30 ≤ b && b ≤ 0x39

def isAlphabetic (b : UInt8) : Bool :=
  (0x41 ≤ b && b ≤ 0x5A) || (0x61 ≤ b && b ≤ 0x7A)

/-- Letters, digits and `-`, `_`, `.`, `~` stand for themselves. -/
def isUnreserved (b : UInt8) : Bool :=
  isDigit b || isAlphabetic b || [0x2D, 0x5F, 0x2E, 0x7E].contains b

def isHex (b : UInt8) : Bool :=
  isDigit b || (0x41 ≤ b && b ≤ 0x46) || (0x61 ≤ b && b ≤ 0x66)

def hexValue (b : UInt8) : UInt8 :=
  if isDigit b then b - 0x30 else if b ≤ 0x46 then b - 0x37 else b - 0x57

/-- An upper-case digit. -/
def hexDigit (n : UInt8) : UInt8 := if n < 10 then n + 0x30 else n + 0x37

def encodeByte (b : UInt8) : Bytes :=
  if isUnreserved b then [b]
  else [percent, hexDigit (b / 16), hexDigit (b % 16)]

def encode (bytes : Bytes) : Bytes := bytes.flatMap encodeByte

/-- The bytes of a text with escapes; a malformed escape has none. -/
def unescape : Bytes → Option Bytes
  | [] => some []
  | b :: rest =>
      if b = percent then
        match rest with
        | high :: low :: more =>
            if isHex high && isHex low then
              (unescape more).map ((hexValue high * 16 + hexValue low) :: ·)
            else none
        | _ => none
      else (unescape rest).map (b :: ·)

/-- Bytes that are the UTF-8 of a text. -/
def isUtf8 (bytes : Bytes) : Bool := utf8 (decodeUtf8 bytes) == bytes

theorem hexDigit_below : ∀ n < 16, isHex (hexDigit n.toUInt8) = true ∧
    hexValue (hexDigit n.toUInt8) = n.toUInt8 ∧
    isUnreserved (hexDigit n.toUInt8) = true := by decide

theorem hexDigit_small {n : UInt8} (h : n < 16) :
    isHex (hexDigit n) = true ∧ hexValue (hexDigit n) = n ∧
      isUnreserved (hexDigit n) = true := by
  have hn := hexDigit_below n.toNat (UInt8.lt_iff_toNat_lt.mp h)
  rwa [show n.toNat.toUInt8 = n from UInt8.ofNat_toNat] at hn

/-- A byte by its two digits. -/
theorem halves (b : UInt8) :
    b / 16 < 16 ∧ b % 16 < 16 ∧ b / 16 * 16 + b % 16 = b := by
  have hb := UInt8.toNat_lt b
  refine ⟨?_, ?_, ?_⟩
  · rw [UInt8.lt_iff_toNat_lt, UInt8.toNat_div]
    exact Nat.div_lt_of_lt_mul hb
  · rw [UInt8.lt_iff_toNat_lt, UInt8.toNat_mod]
    exact Nat.mod_lt _ (by decide)
  · apply UInt8.toNat_inj.mp
    simp
    omega

theorem hexDigit_spec (b : UInt8) : isHex (hexDigit (b / 16)) = true ∧
    isHex (hexDigit (b % 16)) = true ∧
    hexValue (hexDigit (b / 16)) * 16 + hexValue (hexDigit (b % 16)) = b := by
  obtain ⟨hhigh, hlow, hsum⟩ := halves b
  refine ⟨(hexDigit_small hhigh).1, (hexDigit_small hlow).1, ?_⟩
  rw [(hexDigit_small hhigh).2.1, (hexDigit_small hlow).2.1, hsum]

theorem isUnreserved_percent : isUnreserved percent = false := by decide

theorem unescape_cons {b : UInt8} (h : b ≠ percent) (rest : Bytes) :
    unescape (b :: rest) = (unescape rest).map (b :: ·) := by
  rw [unescape.eq_def]
  exact if_neg h

theorem unescape_encodeByte (b : UInt8) (rest : Bytes) :
    unescape (encodeByte b ++ rest) = (unescape rest).map (b :: ·) := by
  rw [encodeByte]
  by_cases hplain : isUnreserved b = true
  · rw [if_pos hplain]
    apply unescape_cons
    rintro rfl
    exact Bool.false_ne_true (isUnreserved_percent.symm.trans hplain)
  · obtain ⟨hhigh, hlow, hvalue⟩ := hexDigit_spec b
    rw [if_neg hplain]
    simp [unescape, hhigh, hlow, hvalue]

/-- Reading escapes gives back what was written. -/
theorem unescape_encode (bytes rest : Bytes) :
    unescape (encode bytes ++ rest) = (unescape rest).map (bytes ++ ·) := by
  induction bytes with
  | nil => exact Option.map_id'.symm
  | cons b bytes ih =>
      rw [encode, List.flatMap_cons, List.append_assoc, unescape_encodeByte,
        ← encode, ih, Option.map_map]
      rfl

/-- What is written is unreserved or belongs to an escape. -/
theorem mem_encodeByte (b : UInt8) {c : UInt8} (h : c ∈ encodeByte b) :
    isUnreserved c = true ∨ c = percent := by
  obtain ⟨hhigh, hlow, -⟩ := halves b
  rw [encodeByte] at h
  split at h
  · next hplain =>
      obtain rfl := List.mem_singleton.mp h
      exact Or.inl hplain
  · simp only [List.mem_cons, List.not_mem_nil, or_false] at h
    rcases h with rfl | rfl | rfl
    · exact Or.inr rfl
    · exact Or.inl (hexDigit_small hhigh).2.2
    · exact Or.inl (hexDigit_small hlow).2.2

theorem mem_encode {bytes : Bytes} {c : UInt8} (h : c ∈ encode bytes) :
    isUnreserved c = true ∨ c = percent := by
  obtain ⟨b, _, hc⟩ := List.mem_flatMap.mp h
  exact mem_encodeByte b hc

theorem encode_ne_nil {bytes : Bytes} (h : bytes ≠ []) : encode bytes ≠ [] := by
  cases bytes with
  | nil => exact absurd rfl h
  | cons b rest =>
      rw [encode, List.flatMap_cons, encodeByte]
      split <;> simp

/-! ### Paths -/

/-- The names of a path between its slashes. -/
def names (path : Bytes) : List Bytes :=
  (path.splitOn slash).filter (· ≠ [])

def join (names : List Bytes) : Bytes := [slash].intercalate names

/-- `encode_path`: a path with each name escaped, empty ones left out. -/
def encodePath (path : Bytes) : Bytes := join ((names path).map encode)

/-- What can be a name between slashes. -/
def IsName (name : Bytes) : Prop := name ≠ [] ∧ slash ∉ name

theorem names_join {list : List Bytes} (hne : list ≠ [])
    (h : ∀ name ∈ list, IsName name) : names (join list) = list := by
  have hsplit : (join list).splitOn slash = list :=
    List.splitOn_intercalate slash (fun name hname => (h name hname).2) hne
  rw [names, hsplit, List.filter_eq_self]
  exact fun name hname => decide_eq_true (h name hname).1

theorem join_cons_cons (name next : Bytes) (list : List Bytes) :
    join (name :: next :: list) = name ++ slash :: join (next :: list) := by
  simp [join, List.intercalate_cons_cons]

/-- Reading an escaped path gives back the path. -/
theorem unescape_join (list : List Bytes) (rest : Bytes) :
    unescape (join (list.map encode) ++ rest) =
      (unescape rest).map (join list ++ ·) := by
  induction list with
  | nil => exact Option.map_id'.symm
  | cons name list ih =>
      cases list with
      | nil =>
          simp only [List.map_cons, List.map_nil, join, List.intercalate_singleton]
          exact unescape_encode name rest
      | cons next list =>
          rw [List.map_cons, List.map_cons, join_cons_cons, join_cons_cons,
            ← List.map_cons, List.append_assoc, unescape_encode,
            List.cons_append, unescape_cons (by decide), ih, Option.map_map,
            Option.map_map]
          congr 1
          funext bytes
          simp

end AiTeam.Percent
