/-
JSON values of JavaScript and what `JSON.stringify` writes of them.  Whatever
follows it, the text that is written tells the value.
-/
import AiTeam.JsonText

namespace AiTeam.Stringify

open AiTeam.Unicode
open AiTeam.JsonText (escapeUnits hexDigit quoteUnits shortEscape
  unicodeEscape)

/-- The code units of a string. -/
def CodeUnits (text : Text) : Prop := ∀ u ∈ text, u < 0x10000

/-! ### Strings -/

def hexValue (c : Nat) : Nat := if c < 58 then c - 48 else c - 87

/-- The unit that one letter after a backslash stands for. -/
def unescape (c : Nat) : Nat :=
  if c = 0x62 then 0x08
  else if c = 0x74 then 0x09
  else if c = 0x6E then 0x0A
  else if c = 0x66 then 0x0C
  else if c = 0x72 then 0x0D
  else c

/-- The code point that an escaped text starts with, and what follows. -/
def readPoint : Text → Option (Nat × Text)
  | [] => none
  | 0x5C :: 0x75 :: h :: i :: j :: k :: rest =>
      some (hexValue h * 0x1000 + hexValue i * 0x100 + hexValue j * 0x10 +
        hexValue k, rest)
  | 0x5C :: c :: rest => some (unescape c, rest)
  | [u] => some (u, [])
  | u :: v :: rest =>
      if isHigh u then
        some (0x10000 + (u - 0xD800) * 0x400 + (v - 0xDC00), rest)
      else some (u, v :: rest)

theorem hexValue_hexDigit {d : Nat} (h : d < 16) :
    hexValue (hexDigit d) = d := by
  rw [hexDigit, hexValue]
  split <;> split <;> omega

variable {c : Nat} {x y : Text}

theorem readPoint_unicodeEscape (rest : Text) (h : c < 0x10000) :
    readPoint (unicodeEscape c ++ rest) = some (c, rest) := by
  have hdigit : ∀ n, hexValue (hexDigit (n % 16)) = n % 16 := fun n =>
    hexValue_hexDigit (Nat.mod_lt n (by decide))
  have hunit : hexValue (hexDigit (c / 0x1000 % 16)) * 0x1000 +
      hexValue (hexDigit (c / 0x100 % 16)) * 0x100 +
      hexValue (hexDigit (c / 0x10 % 16)) * 0x10 +
      hexValue (hexDigit (c % 16)) = c := by
    rw [hdigit, hdigit, hdigit, hdigit]
    omega
  calc
    readPoint (unicodeEscape c ++ rest) =
        some (hexValue (hexDigit (c / 0x1000 % 16)) * 0x1000 +
          hexValue (hexDigit (c / 0x100 % 16)) * 0x100 +
          hexValue (hexDigit (c / 0x10 % 16)) * 0x10 +
          hexValue (hexDigit (c % 16)), rest) := rfl
    _ = some (c, rest) := by rw [hunit]

theorem readPoint_shortEscape {text : Text} (rest : Text)
    (h : shortEscape c = some text) :
    readPoint (text ++ rest) = some (c, rest) := by
  unfold shortEscape at h
  split_ifs at h with hc hc hc hc hc hc hc <;> cases h <;> subst hc <;> rfl

theorem readPoint_cons {u v : Nat} (rest : Text) (hslash : u ≠ 0x5C) :
    readPoint (u :: v :: rest) =
      if isHigh u then
        some (0x10000 + (u - 0xD800) * 0x400 + (v - 0xDC00), rest)
      else some (u, v :: rest) := by
  simp [readPoint, hslash]

theorem readPoint_plain {u : Nat} (rest : Text) (hslash : u ≠ 0x5C)
    (hhigh : isHigh u = false) : readPoint (u :: rest) = some (u, rest) := by
  cases rest with
  | nil => simp [readPoint]
  | cons v rest =>
      rw [readPoint_cons rest hslash, hhigh]
      rfl

theorem readPoint_pair (rest : Text) (hlow : 0x10000 ≤ c)
    (hbound : c < 0x110000) :
    readPoint (codeUnits c ++ rest) = some (c, rest) := by
  have hhigh : isHigh (0xD800 + (c - 0x10000) / 0x400) = true := by
    rw [isHigh, Bool.and_eq_true, decide_eq_true_eq, decide_eq_true_eq]
    omega
  have hslash : 0xD800 + (c - 0x10000) / 0x400 ≠ 0x5C := by omega
  have hback : 0x10000 + (0xD800 + (c - 0x10000) / 0x400 - 0xD800) * 0x400 +
      (0xDC00 + (c - 0x10000) % 0x400 - 0xDC00) = c := by omega
  rw [codeUnits, if_neg (by omega), List.cons_append, List.cons_append,
    List.nil_append, readPoint_cons rest hslash, if_pos hhigh, hback]

theorem readPoint_escapeUnits (rest : Text) (h : c < 0x110000) :
    readPoint (escapeUnits c ++ rest) = some (c, rest) := by
  rw [escapeUnits]
  cases hshort : shortEscape c with
  | some text => exact readPoint_shortEscape rest hshort
  | none =>
      have hslash : c ≠ 0x5C := by
        rintro rfl
        exact absurd hshort (by decide)
      rw [Option.getD_none]
      split
      · rename_i hescaped
        apply readPoint_unicodeEscape
        simp only [isSurrogate, isHigh, isLow, Bool.or_eq_true,
          Bool.and_eq_true, decide_eq_true_eq] at hescaped
        omega
      · rename_i hescaped
        by_cases hplane : c < 0x10000
        · rw [codeUnits, if_pos hplane]
          apply readPoint_plain rest hslash
          simp only [isSurrogate, Bool.or_eq_true, not_or,
            Bool.not_eq_true] at hescaped
          exact hescaped.2.1
        · exact readPoint_pair rest (by omega) h

/-- No escaped text starts with the mark that ends a string. -/
theorem escapeUnits_ne_mark (h : c < 0x110000) :
    escapeUnits c ++ x ≠ 0x22 :: y := by
  intro heq
  have hread : some (c, x) = some (0x22, y) := by
    calc
      some (c, x) = readPoint (escapeUnits c ++ x) :=
        (readPoint_escapeUnits x h).symm
      _ = readPoint (0x22 :: y) := by rw [heq]
      _ = some (0x22, y) := readPoint_plain y (by decide) (by decide)
  obtain ⟨rfl, rfl⟩ := Prod.mk.inj (Option.some.inj hread)
  exact absurd (List.cons.inj heq).1 (by decide)

theorem escaped_append {s t : Text} (hs : ∀ c ∈ s, c < 0x110000)
    (ht : ∀ c ∈ t, c < 0x110000)
    (h : s.flatMap escapeUnits ++ 0x22 :: x =
      t.flatMap escapeUnits ++ 0x22 :: y) : s = t ∧ x = y := by
  induction s generalizing t with
  | nil =>
      cases t with
      | nil => exact ⟨rfl, (List.cons.inj h).2⟩
      | cons d t =>
          rw [List.flatMap_cons, List.append_assoc] at h
          exact absurd h.symm
            (escapeUnits_ne_mark (ht d List.mem_cons_self))
  | cons c s ih =>
      cases t with
      | nil =>
          rw [List.flatMap_cons, List.append_assoc] at h
          exact absurd h (escapeUnits_ne_mark (hs c List.mem_cons_self))
      | cons d t =>
          have hread := congrArg readPoint h
          rw [List.flatMap_cons, List.flatMap_cons, List.append_assoc,
            List.append_assoc,
            readPoint_escapeUnits _ (hs c List.mem_cons_self),
            readPoint_escapeUnits _ (ht d List.mem_cons_self)] at hread
          obtain ⟨rfl, htail⟩ := Prod.mk.inj (Option.some.inj hread)
          obtain ⟨rfl, rfl⟩ := ih
            (fun c hc => hs c (List.mem_cons_of_mem _ hc))
            (fun c hc => ht c (List.mem_cons_of_mem _ hc)) htail
          exact ⟨rfl, rfl⟩

theorem quoteUnits_append {s t : Text} (hs : CodeUnits s) (ht : CodeUnits t)
    (h : quoteUnits s ++ x = quoteUnits t ++ y) : s = t ∧ x = y := by
  have htail : ∀ s x : Text, (quoteUnits s ++ x).tail =
      (points s).flatMap escapeUnits ++ 0x22 :: x := by
    intro s x
    simp [quoteUnits, lit]
  have hescaped := congrArg List.tail h
  rw [htail, htail] at hescaped
  obtain ⟨hpoints, hrest⟩ :=
    escaped_append (points_lt hs) (points_lt ht) hescaped
  exact ⟨by rw [← utf16_points hs, hpoints, utf16_points ht], hrest⟩

/-! ### Values -/

/-- The units that the text of a finite number is made of. -/
def isNumberUnit (c : Nat) : Bool :=
  (0x30 ≤ c && c ≤ 0x39) || c == 0x2B || c == 0x2D || c == 0x2E || c == 0x65

/-- The finite numbers, the two zeros being one, with the text of each. -/
structure Numbers (N : Type) where
  toText : N → Text
  injective : Function.Injective toText
  nonempty : ∀ n, toText n ≠ []
  units : ∀ n, ∀ c ∈ toText n, isNumberUnit c = true

/-- A value; an object lists its own keys in their order. -/
inductive Value (N : Type) where
  | null
  | bool (value : Bool)
  | num (value : N)
  | str (text : Text)
  | list (items : List (Value N))
  | object (fields : List (Text × Value N))

variable {N : Type}

section All

variable (P : Text → Prop) (Q : List Text → Prop)

mutual

/-- All strings of a value, keys too, and the keys of all its objects. -/
def Value.All : Value N → Prop
  | .null => True
  | .bool _ => True
  | .num _ => True
  | .str text => P text
  | .list items => AllItems items
  | .object fields => Q (fields.map Prod.fst) ∧ AllFields fields

def AllItems : List (Value N) → Prop
  | [] => True
  | item :: rest => item.All ∧ AllItems rest

def AllFields : List (Text × Value N) → Prop
  | [] => True
  | (key, value) :: rest => (P key ∧ value.All) ∧ AllFields rest

end

end All

variable {v w : Value N}

section Writing

variable (toText : N → Text)

mutual

/-- `JSON.stringify(value)`. -/
def stringify : Value N → Text
  | .null => lit "null"
  | .bool true => lit "true"
  | .bool false => lit "false"
  | .num value => toText value
  | .str text => quoteUnits text
  | .list [] => lit "[]"
  | .list (item :: rest) => 0x5B :: (stringify item ++ writeItems rest)
  | .object [] => lit "\x7b\x7d"
  | .object ((key, value) :: rest) =>
      0x7B :: (quoteUnits key ++ 0x3A :: (stringify value ++ writeFields rest))

/-- The items after the first, to the end of the list. -/
def writeItems : List (Value N) → Text
  | [] => lit "]"
  | item :: rest => 0x2C :: (stringify item ++ writeItems rest)

def writeFields : List (Text × Value N) → Text
  | [] => lit "\x7d"
  | (key, value) :: rest =>
      0x2C :: (quoteUnits key ++ 0x3A :: (stringify value ++ writeFields rest))

end

/-! ### What is written tells the value -/

variable (numbers : Numbers N)

/-- No number goes on with this text. -/
def Stops (text : Text) : Prop := ∀ c ∈ text.head?, isNumberUnit c = false

theorem toText_append {m n : N} (hx : Stops x) (hy : Stops y)
    (h : numbers.toText m ++ x = numbers.toText n ++ y) : m = n ∧ x = y := by
  have htake : ∀ {n : N} {x : Text}, Stops x →
      (numbers.toText n ++ x).takeWhile isNumberUnit = numbers.toText n := by
    intro n x hx
    have hrest : x.takeWhile isNumberUnit = [] := by
      cases x with
      | nil => rfl
      | cons c x => rw [List.takeWhile_cons, hx c rfl]; rfl
    rw [List.takeWhile_append_of_pos (numbers.units n), hrest,
      List.append_nil]
  have hsame : numbers.toText m = numbers.toText n := by
    calc
      numbers.toText m = (numbers.toText m ++ x).takeWhile isNumberUnit :=
        (htake hx).symm
      _ = (numbers.toText n ++ y).takeWhile isNumberUnit := by rw [h]
      _ = numbers.toText n := htake hy
  refine ⟨numbers.injective hsame, ?_⟩
  rw [hsame] at h
  exact List.append_cancel_left h

/-- The unit a text starts with; all that start a number are one. -/
def opening (c : Nat) : Nat := if isNumberUnit c then 0x30 else c

def Value.opening : Value N → Nat
  | .null => 0x6E
  | .bool true => 0x74
  | .bool false => 0x66
  | .num _ => 0x30
  | .str _ => 0x22
  | .list _ => 0x5B
  | .object _ => 0x7B

theorem stringify_opening (value : Value N) (x : Text) :
    ((stringify numbers.toText value ++ x).head?).map opening =
      some value.opening := by
  cases value with
  | null => rfl
  | bool value => cases value <;> rfl
  | num value =>
      cases htext : numbers.toText value with
      | nil => exact absurd htext (numbers.nonempty value)
      | cons c text =>
          have hc := numbers.units value c (htext ▸ List.mem_cons_self)
          rw [stringify, htext, List.cons_append, List.head?_cons,
            Option.map_some, opening, hc]
          rfl
  | str text => rfl
  | list items => cases items <;> rfl
  | object fields => cases fields <;> rfl

/-- The values of one kind; of `true` and `false`, each is its own. -/
def Value.like : Value N → Value N → Prop
  | .null, .null => True
  | .bool a, .bool b => a = b
  | .num _, .num _ => True
  | .str _, .str _ => True
  | .list _, .list _ => True
  | .object _, .object _ => True
  | _, _ => False

theorem like_of_opening (h : v.opening = w.opening) : v.like w := by
  rcases v with _ | (_ | _) | _ | _ | _ | _ <;>
    rcases w with _ | (_ | _) | _ | _ | _ | _ <;>
    simp [Value.opening, Value.like] at h ⊢

theorem like_of_stringify
    (h : stringify numbers.toText v ++ x = stringify numbers.toText w ++ y) :
    v.like w := by
  have hopening := stringify_opening numbers v x
  rw [h, stringify_opening] at hopening
  exact like_of_opening (Option.some.inj hopening).symm

theorem stringify_ne {value : Value N} (hc : opening c ≠ value.opening) :
    stringify numbers.toText value ++ x ≠ c :: y := by
  intro h
  have hopening := stringify_opening numbers value x
  rw [h, List.head?_cons, Option.map_some] at hopening
  exact hc (Option.some.inj hopening)

theorem stops_cons (h : isNumberUnit c = false) : Stops (c :: x) := by
  intro d hd
  obtain rfl : c = d := Option.some.inj hd
  exact h

theorem stops_writeItems (items : List (Value N)) (x : Text) :
    Stops (writeItems toText items ++ x) := by
  cases items <;> exact stops_cons (by decide)

theorem stops_writeFields (fields : List (Text × Value N)) (x : Text) :
    Stops (writeFields toText fields ++ x) := by
  cases fields <;> exact stops_cons (by decide)

theorem writeItems_cons (item : Value N) (rest : List (Value N)) (x : Text) :
    writeItems toText (item :: rest) ++ x =
      0x2C :: (stringify toText item ++ (writeItems toText rest ++ x)) := by
  rw [writeItems, List.cons_append, List.append_assoc]

theorem writeFields_cons (key : Text) (value : Value N)
    (rest : List (Text × Value N)) (x : Text) :
    writeFields toText ((key, value) :: rest) ++ x =
      0x2C :: (quoteUnits key ++ 0x3A :: (stringify toText value ++
        (writeFields toText rest ++ x))) := by
  simp only [writeFields, List.cons_append, List.append_assoc]

/-- After its first unit a list is written as items after others are. -/
theorem stringify_list (item : Value N) (rest : List (Value N)) (x : Text) :
    0x2C :: (stringify toText (.list (item :: rest)) ++ x).tail =
      writeItems toText (item :: rest) ++ x := rfl

theorem list_ne_nil (item : Value N) (rest : List (Value N)) (x y : Text) :
    stringify numbers.toText (.list (item :: rest)) ++ x ≠
      stringify numbers.toText (.list []) ++ y := by
  have hclose : opening 0x5D ≠ item.opening := by
    rcases item with _ | (_ | _) | _ | _ | _ | _ <;>
      exact Nat.ne_of_beq_eq_false rfl
  intro h
  have htail := congrArg (0x2C :: List.tail ·) h
  simp only [stringify_list, writeItems_cons] at htail
  exact stringify_ne numbers hclose (List.cons.inj htail).2

theorem object_ne_nil (field : Text × Value N)
    (rest : List (Text × Value N)) (x y : Text) :
    stringify numbers.toText (.object (field :: rest)) ++ x ≠
      stringify numbers.toText (.object []) ++ y := by
  intro h
  exact absurd (List.cons.inj (List.cons.inj h).2).1 (by decide)

variable {numbers} {Q : List Text → Prop}

mutual

theorem stringify_append : ∀ (v w : Value N) {x y : Text}, v.All CodeUnits Q →
    w.All CodeUnits Q → Stops x → Stops y →
    stringify numbers.toText v ++ x = stringify numbers.toText w ++ y →
    v = w ∧ x = y
  | .null, w, x, y, _, _, _, _, h => by
      have hlike := like_of_stringify numbers h
      cases w with
      | null => exact ⟨rfl, List.append_cancel_left h⟩
      | _ => exact hlike.elim
  | .bool a, w, x, y, _, _, _, _, h => by
      have hlike := like_of_stringify numbers h
      cases w with
      | bool b =>
          obtain rfl : a = b := hlike
          exact ⟨rfl, List.append_cancel_left h⟩
      | _ => exact hlike.elim
  | .num m, w, x, y, _, _, hx, hy, h => by
      have hlike := like_of_stringify numbers h
      cases w with
      | num n =>
          obtain ⟨rfl, rfl⟩ := toText_append numbers hx hy h
          exact ⟨rfl, rfl⟩
      | _ => exact hlike.elim
  | .str s, w, x, y, hv, hw, _, _, h => by
      have hlike := like_of_stringify numbers h
      cases w with
      | str t =>
          obtain ⟨rfl, rfl⟩ := quoteUnits_append hv hw h
          exact ⟨rfl, rfl⟩
      | _ => exact hlike.elim
  | .list items, w, x, y, hv, hw, _, _, h => by
      have hlike := like_of_stringify numbers h
      rcases w with _ | _ | _ | _ | others | _
      case list =>
        have hrest := @writeItems_append items others x y hv hw
        rcases items with _ | ⟨item, rest⟩ <;>
          rcases others with _ | ⟨other, more⟩
        · exact ⟨rfl, List.append_cancel_left h⟩
        · exact absurd h.symm (list_ne_nil numbers other more y x)
        · exact absurd h (list_ne_nil numbers item rest x y)
        · have htail := congrArg (0x2C :: List.tail ·) h
          obtain ⟨hitems, hxy⟩ := hrest htail
          exact ⟨congrArg Value.list hitems, hxy⟩
      all_goals exact hlike.elim
  | .object fields, w, x, y, hv, hw, _, _, h => by
      have hlike := like_of_stringify numbers h
      rcases w with _ | _ | _ | _ | _ | others
      case object =>
        have hrest := @writeFields_append fields others x y hv.2 hw.2
        rcases fields with _ | ⟨field, rest⟩ <;>
          rcases others with _ | ⟨other, more⟩
        · exact ⟨rfl, List.append_cancel_left h⟩
        · exact absurd h.symm (object_ne_nil numbers other more y x)
        · exact absurd h (object_ne_nil numbers field rest x y)
        · have htail := congrArg (0x2C :: List.tail ·) h
          obtain ⟨hfields, hxy⟩ := hrest htail
          exact ⟨congrArg Value.object hfields, hxy⟩
      all_goals exact hlike.elim

theorem writeItems_append : ∀ (items others : List (Value N)) {x y : Text},
    AllItems CodeUnits Q items → AllItems CodeUnits Q others →
    writeItems numbers.toText items ++ x =
      writeItems numbers.toText others ++ y →
    items = others ∧ x = y
  | [], [], _, _, _, _, h => ⟨rfl, List.append_cancel_left h⟩
  | [], _ :: _, _, _, _, _, h => absurd (List.cons.inj h).1 (by decide)
  | _ :: _, [], _, _, _, _, h => absurd (List.cons.inj h).1 (by decide)
  | item :: rest, other :: more, x, y, hv, hw, h => by
      rw [writeItems_cons, writeItems_cons] at h
      obtain ⟨rfl, hmore⟩ := stringify_append item other hv.1 hw.1
        (stops_writeItems numbers.toText rest x)
        (stops_writeItems numbers.toText more y)
        (List.cons.inj h).2
      obtain ⟨rfl, rfl⟩ := writeItems_append rest more hv.2 hw.2 hmore
      exact ⟨rfl, rfl⟩

theorem writeFields_append : ∀ (fields others : List (Text × Value N))
    {x y : Text}, AllFields CodeUnits Q fields → AllFields CodeUnits Q others →
    writeFields numbers.toText fields ++ x =
      writeFields numbers.toText others ++ y →
    fields = others ∧ x = y
  | [], [], _, _, _, _, h => ⟨rfl, List.append_cancel_left h⟩
  | [], (_, _) :: _, _, _, _, _, h => absurd (List.cons.inj h).1 (by decide)
  | (_, _) :: _, [], _, _, _, _, h => absurd (List.cons.inj h).1 (by decide)
  | (key, value) :: rest, (name, other) :: more, x, y, hv, hw, h => by
      rw [writeFields_cons, writeFields_cons] at h
      obtain ⟨rfl, hvalue⟩ :=
        quoteUnits_append hv.1.1 hw.1.1 (List.cons.inj h).2
      obtain ⟨rfl, hmore⟩ := stringify_append value other hv.1.2 hw.1.2
        (stops_writeFields numbers.toText rest x)
        (stops_writeFields numbers.toText more y)
        (List.cons.inj hvalue).2
      obtain ⟨rfl, rfl⟩ := writeFields_append rest more hv.2 hw.2 hmore
      exact ⟨rfl, rfl⟩

end

theorem stringify_injective (hv : v.All CodeUnits Q) (hw : w.All CodeUnits Q)
    (h : stringify numbers.toText v = stringify numbers.toText w) : v = w := by
  have hnil : Stops [] := fun _ hc => nomatch hc
  exact (stringify_append v w hv hw hnil hnil (congrArg (· ++ []) h)).1

end Writing

end AiTeam.Stringify
