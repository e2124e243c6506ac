/-
JSON values made of texts, lists and objects, and their canonical texts: names
in order, no blanks, and what has to be escaped as Python's and JavaScript's
own writers escape it.
-/
import Mathlib.Data.List.Sort
import AiTeam.Unicode

namespace AiTeam.JsonText

open AiTeam.Unicode

inductive Json where
  | str (text : Text)
  | list (items : List Json)
  | object (fields : List (Text × Json))

/-- The order of the names: code point by code point, or unit by unit. -/
def nameLe (a b : Text × Json) : Prop := textLe a.1 b.1 = true

instance : DecidableRel nameLe := fun a b =>
  inferInstanceAs (Decidable (textLe a.1 b.1 = true))

mutual

/-- The value with the names of every object in order. -/
def sortKeys : Json → Json
  | .str text => .str text
  | .list items => .list (sortItems items)
  | .object fields => .object ((sortFields fields).insertionSort nameLe)

def sortItems : List Json → List Json
  | [] => []
  | item :: rest => sortKeys item :: sortItems rest

def sortFields : List (Text × Json) → List (Text × Json)
  | [] => []
  | (name, value) :: rest => (name, sortKeys value) :: sortFields rest

end

mutual

/-- The text of a value, its strings written by `quote`. -/
def write (quote : Text → Text) : Json → Text
  | .str text => quote text
  | .list items =>
      lit "[" ++ (lit ",").intercalate (writeItems quote items) ++ lit "]"
  | .object fields =>
      lit "\x7b" ++ (lit ",").intercalate (writeFields quote fields) ++ lit "\x7d"

def writeItems (quote : Text → Text) : List Json → List Text
  | [] => []
  | item :: rest => write quote item :: writeItems quote rest

def writeFields (quote : Text → Text) : List (Text × Json) → List Text
  | [] => []
  | (name, value) :: rest =>
      (quote name ++ lit ":" ++ write quote value) :: writeFields quote rest

end

/-! ### The strings -/

/-- The escapes of one letter. -/
def shortEscape (c : Nat) : Option Text :=
  if c = 0x22 then some (lit "\\\"")
  else if c = 0x5C then some (lit "\\\\")
  else if c = 0x08 then some (lit "\\b")
  else if c = 0x09 then some (lit "\\t")
  else if c = 0x0A then some (lit "\\n")
  else if c = 0x0C then some (lit "\\f")
  else if c = 0x0D then some (lit "\\r")
  else none

def hexDigit (d : Nat) : Nat := if d < 10 then 48 + d else 87 + d

/-- `\uXXXX`. -/
def unicodeEscape (c : Nat) : Text :=
  lit "\\u" ++ [hexDigit (c / 0x1000 % 16), hexDigit (c / 0x100 % 16),
    hexDigit (c / 0x10 % 16), hexDigit (c % 16)]

/-- `ensure_ascii=False`. -/
def escape (c : Nat) : Text :=
  (shortEscape c).getD (if c < 0x20 then unicodeEscape c else [c])

def quote (text : Text) : Text := lit "\"" ++ text.flatMap escape ++ lit "\""

/-- `JSON.stringify` escapes a surrogate without its half too. -/
def escapeUnits (c : Nat) : Text :=
  (shortEscape c).getD
    (if c < 0x20 || isSurrogate c then unicodeEscape c else codeUnits c)

def quoteUnits (text : Text) : Text :=
  lit "\"" ++ (points text).flatMap escapeUnits ++ lit "\""

/-- `json.dumps(value, ensure_ascii=False, sort_keys=True,
separators=(",", ":"))`. -/
def dumps (value : Json) : Text := write quote (sortKeys value)

/-- `JSON.stringify` of the value with its names in order. -/
def stringify (value : Json) : Text := write quoteUnits (sortKeys value)

/-! ### What the escapes are made of -/

variable {c : Nat} {text : Text}

theorem shortEscape_plain (h : shortEscape c = some text) :
    ∀ d ∈ text, isPlain d = true := by
  unfold shortEscape at h
  split_ifs at h <;> cases h <;> decide

theorem hexDigit_lt {d : Nat} (h : d < 16) : hexDigit d < 0x80 := by
  rw [hexDigit]
  split <;> omega

theorem isPlain_of_lt (h : c < 0x80) : isPlain c = true := by
  rw [isPlain, isSurrogate, isHigh, isLow]
  have hhigh : ¬ 0xD800 ≤ c := by omega
  have hlow : ¬ 0xDC00 ≤ c := by omega
  simp [hhigh, hlow]
  omega

theorem unicodeEscape_plain (c : Nat) :
    ∀ d ∈ unicodeEscape c, isPlain d = true := by
  intro d hd
  rw [unicodeEscape, List.mem_append] at hd
  rcases hd with hd | hd
  · revert d
    decide
  · have hdigit : ∀ n, isPlain (hexDigit (n % 16)) = true := fun n =>
      isPlain_of_lt (hexDigit_lt (Nat.mod_lt n (by decide)))
    simp only [List.mem_cons, List.not_mem_nil, or_false] at hd
    rcases hd with rfl | rfl | rfl | rfl <;> exact hdigit _

theorem scalar_of_plain (h : isPlain c = true) : isScalar c = true := by
  rw [isPlain, Bool.and_eq_true, decide_eq_true_eq] at h
  rw [isScalar, Bool.and_eq_true, decide_eq_true_eq]
  exact ⟨by omega, h.2⟩

/-- The two writers escape a scalar value alike. -/
theorem escapeUnits_eq (h : isScalar c = true) :
    escapeUnits c = utf16 (escape c) := by
  have hsurrogate : isSurrogate c = false := by
    rw [isScalar, Bool.and_eq_true, Bool.not_eq_true'] at h
    exact h.2
  rw [escapeUnits, escape, hsurrogate, Bool.or_false]
  cases hshort : shortEscape c with
  | some text => exact (utf16_plain (shortEscape_plain hshort)).symm
  | none =>
      by_cases hcontrol : c < 0x20
      · simp only [hcontrol, decide_true, if_true, Option.getD_none]
        exact (utf16_plain (unicodeEscape_plain c)).symm
      · simp [hcontrol]

/-- What JavaScript writes of a string whose surrogates all have their half. -/
theorem quoteUnits_points (h : ∀ c ∈ points text, isScalar c = true) :
    quoteUnits text = utf16 (quote (points text)) := by
  have hmark : utf16 (lit "\"") = lit "\"" := by decide
  have hescape : (points text).flatMap escapeUnits =
      (points text).flatMap fun c => utf16 (escape c) :=
    List.flatMap_congr fun c hc => escapeUnits_eq (h c hc)
  rw [quoteUnits, quote, utf16_append, utf16_append, hmark, utf16_flatMap,
    hescape]

theorem shortEscape_scalar (h : shortEscape c = some text) :
    isScalar c = true := by
  unfold shortEscape at h
  split_ifs at h <;> subst_vars <;> decide

/-- An escaped text is Unicode exactly when the text is. -/
theorem escape_scalar (c : Nat) :
    (∀ d ∈ escape c, isScalar d = true) ↔ isScalar c = true := by
  rw [escape]
  cases hshort : shortEscape c with
  | some text =>
      have hc := shortEscape_scalar hshort
      exact ⟨fun _ => hc, fun _ d hd =>
        scalar_of_plain (shortEscape_plain hshort d hd)⟩
  | none =>
      by_cases hcontrol : c < 0x20
      · have hc : isScalar c = true :=
          scalar_of_plain (isPlain_of_lt (by omega))
        simp only [hcontrol, if_true, Option.getD_none]
        exact ⟨fun _ => hc, fun _ d hd =>
          scalar_of_plain (unicodeEscape_plain c d hd)⟩
      · simp [hcontrol]

theorem quote_scalar (text : Text) :
    (∀ d ∈ quote text, isScalar d = true) ↔
      ∀ c ∈ text, isScalar c = true := by
  have hmark : ∀ d ∈ lit "\"", isScalar d = true := by decide
  constructor
  · intro h c hc
    rw [← escape_scalar c]
    intro d hd
    apply h
    exact List.mem_append_left _
      (List.mem_append_right _ (List.mem_flatMap.mpr ⟨c, hc, hd⟩))
  · intro h d hd
    rw [quote, List.mem_append, List.mem_append, List.mem_flatMap] at hd
    rcases hd with (hd | ⟨c, hc, hd⟩) | hd
    · exact hmark d hd
    · exact (escape_scalar c).mpr (h c hc) d hd
    · exact hmark d hd

/-! ### All texts of a value -/

mutual

/-- Every name satisfies `Q` and every string `P`. -/
def All (Q P : Text → Prop) : Json → Prop
  | .str text => P text
  | .list items => AllItems Q P items
  | .object fields => AllFields Q P fields

def AllItems (Q P : Text → Prop) : List Json → Prop
  | [] => True
  | item :: rest => All Q P item ∧ AllItems Q P rest

def AllFields (Q P : Text → Prop) : List (Text × Json) → Prop
  | [] => True
  | (name, value) :: rest => Q name ∧ All Q P value ∧ AllFields Q P rest

end

mutual

/-- Every text read by `f`. -/
def mapText (f : Text → Text) : Json → Json
  | .str text => .str (f text)
  | .list items => .list (mapItems f items)
  | .object fields => .object (mapFields f fields)

def mapItems (f : Text → Text) : List Json → List Json
  | [] => []
  | item :: rest => mapText f item :: mapItems f rest

def mapFields (f : Text → Text) : List (Text × Json) → List (Text × Json)
  | [] => []
  | (name, value) :: rest => (f name, mapText f value) :: mapFields f rest

end

section

variable {Q P : Text → Prop}

theorem allFields_iff {fields : List (Text × Json)} :
    AllFields Q P fields ↔ ∀ field ∈ fields, Q field.1 ∧ All Q P field.2 := by
  induction fields with
  | nil => simp [AllFields]
  | cons field rest ih => simp [AllFields, ih, and_assoc]

mutual

/-- Sorting keeps the texts. -/
theorem all_sortKeys : ∀ value : Json,
    All Q P (sortKeys value) ↔ All Q P value
  | .str text => by rw [sortKeys]
  | .list items => by
      rw [sortKeys, All, All]
      exact all_sortItems items
  | .object fields => by
      rw [sortKeys, All, All, ← all_sortFields fields, allFields_iff,
        allFields_iff]
      simp only [List.mem_insertionSort]

theorem all_sortItems : ∀ items : List Json,
    AllItems Q P (sortItems items) ↔ AllItems Q P items
  | [] => by rw [sortItems]
  | item :: rest => by
      rw [sortItems, AllItems, AllItems, all_sortKeys item,
        all_sortItems rest]

theorem all_sortFields : ∀ fields : List (Text × Json),
    AllFields Q P (sortFields fields) ↔ AllFields Q P fields
  | [] => by rw [sortFields]
  | (name, value) :: rest => by
      rw [sortFields, AllFields, AllFields, all_sortKeys value,
        all_sortFields rest]

end

end

section

variable {f : Text → Text} {P : Text → Prop}

theorem mapFields_eq_map (fields : List (Text × Json)) :
    mapFields f fields =
      fields.map fun field => (f field.1, mapText f field.2) := by
  induction fields with
  | nil => rfl
  | cons field rest ih => rw [mapFields, ih, List.map_cons]

mutual

/-- Reading the texts and sorting the names commute when the names stay. -/
theorem sortKeys_mapText : ∀ value : Json, All (fun name => f name = name) P value →
    sortKeys (mapText f value) = mapText f (sortKeys value)
  | .str text, _ => by rw [mapText, sortKeys, sortKeys, mapText]
  | .list items, h => by
      rw [mapText, sortKeys, sortKeys, mapText, sortItems_mapItems items h]
  | .object fields, h => by
      have hall := allFields_iff.mp ((all_sortFields fields).mpr h)
      rw [mapText, sortKeys, sortKeys, mapText, sortFields_mapFields fields h,
        mapFields_eq_map, mapFields_eq_map]
      congr 1
      symm
      apply List.map_insertionSort
      intro a ha b hb
      rw [nameLe, nameLe, (hall a ha).1, (hall b hb).1]

theorem sortItems_mapItems : ∀ items : List Json,
    AllItems (fun name => f name = name) P items →
    sortItems (mapItems f items) = mapItems f (sortItems items)
  | [], _ => rfl
  | item :: rest, h => by
      rw [mapItems, sortItems, sortItems, mapItems,
        sortKeys_mapText item h.1, sortItems_mapItems rest h.2]

theorem sortFields_mapFields : ∀ fields : List (Text × Json),
    AllFields (fun name => f name = name) P fields →
    sortFields (mapFields f fields) = mapFields f (sortFields fields)
  | [], _ => rfl
  | (name, value) :: rest, h => by
      rw [mapFields, sortFields, sortFields, mapFields,
        sortKeys_mapText value h.2.1, sortFields_mapFields rest h.2.2]

end

end

/-! ### The two writers agree -/

/-- A text of scalar values. -/
def Scalar (text : Text) : Prop := ∀ c ∈ text, isScalar c = true

def Plain (text : Text) : Prop := ∀ c ∈ text, isPlain c = true

theorem Plain.scalar (h : Plain text) : Scalar text :=
  fun c hc => scalar_of_plain (h c hc)

theorem utf16_intercalate (separator : Text) (texts : List Text) :
    utf16 (separator.intercalate texts) =
      (utf16 separator).intercalate (texts.map utf16) := by
  induction texts with
  | nil => rfl
  | cons text rest ih =>
      cases rest with
      | nil => simp
      | cons next rest =>
          rw [List.intercalate_cons_cons, utf16_append, utf16_append, ih]
          simp [List.intercalate_cons_cons]

/-- The code points of a string are scalar values. -/
def Readable (text : Text) : Prop := Scalar (points text)

theorem Plain.points (h : Plain text) : points text = text :=
  points_plain h

mutual

theorem write_points : ∀ value : Json, All Plain Readable value →
    write quoteUnits value = utf16 (write quote (mapText points value))
  | .str text, h => by
      rw [mapText, write, write]
      exact quoteUnits_points h
  | .list items, h => by
      rw [mapText, write, write, writeItems_points items h, utf16_append,
        utf16_append, utf16_intercalate]
      rfl
  | .object fields, h => by
      rw [mapText, write, write, writeFields_points fields h, utf16_append,
        utf16_append, utf16_intercalate]
      rfl

theorem writeItems_points : ∀ items : List Json,
    AllItems Plain Readable items →
    writeItems quoteUnits items =
      (writeItems quote (mapItems points items)).map utf16
  | [], _ => rfl
  | item :: rest, h => by
      rw [mapItems, writeItems, writeItems, write_points item h.1,
        writeItems_points rest h.2, List.map_cons]

theorem writeFields_points : ∀ fields : List (Text × Json),
    AllFields Plain Readable fields →
    writeFields quoteUnits fields =
      (writeFields quote (mapFields points fields)).map utf16
  | [], _ => rfl
  | (name, value) :: rest, h => by
      have hname : Scalar (points name) := h.1.points.symm ▸ h.1.scalar
      rw [mapFields, writeFields, writeFields, write_points value h.2.1,
        quoteUnits_points hname, writeFields_points rest h.2.2, List.map_cons,
        utf16_append, utf16_append]
      rfl

end

theorem mem_intercalate {separator : Text} {texts : List Text}
    (hseparator : Scalar separator) :
    Scalar (separator.intercalate texts) ↔ ∀ text ∈ texts, Scalar text := by
  induction texts with
  | nil => simp [Scalar]
  | cons text rest ih =>
      cases rest with
      | nil => simp
      | cons next rest =>
          rw [List.intercalate_cons_cons, List.forall_mem_cons, ← ih]
          simp only [Scalar, List.mem_append] at hseparator ⊢
          grind

theorem scalar_append {a b : Text} :
    Scalar (a ++ b) ↔ Scalar a ∧ Scalar b := by
  simp only [Scalar, List.forall_mem_append]

mutual

/-- The text written is Unicode exactly when the texts of the value are. -/
theorem write_scalar : ∀ value : Json,
    Scalar (write quote value) ↔ All Scalar Scalar value
  | .str text => by
      rw [write, All]
      exact quote_scalar text
  | .list items => by
      have hopen : Scalar (lit "[") := by unfold Scalar; decide
      have hclose : Scalar (lit "]") := by unfold Scalar; decide
      have hcomma : Scalar (lit ",") := by unfold Scalar; decide
      rw [write, All, scalar_append, scalar_append, mem_intercalate hcomma,
        writeItems_scalar items]
      tauto
  | .object fields => by
      have hopen : Scalar (lit "\x7b") := by unfold Scalar; decide
      have hclose : Scalar (lit "\x7d") := by unfold Scalar; decide
      have hcomma : Scalar (lit ",") := by unfold Scalar; decide
      rw [write, All, scalar_append, scalar_append, mem_intercalate hcomma,
        writeFields_scalar fields]
      tauto

theorem writeItems_scalar : ∀ items : List Json,
    (∀ text ∈ writeItems quote items, Scalar text) ↔
      AllItems Scalar Scalar items
  | [] => by simp [writeItems, AllItems]
  | item :: rest => by
      rw [writeItems, AllItems, List.forall_mem_cons, write_scalar item,
        writeItems_scalar rest]

theorem writeFields_scalar : ∀ fields : List (Text × Json),
    (∀ text ∈ writeFields quote fields, Scalar text) ↔
      AllFields Scalar Scalar fields
  | [] => by simp [writeFields, AllFields]
  | (name, value) :: rest => by
      have hcolon : Scalar (lit ":") := by unfold Scalar; decide
      rw [writeFields, AllFields, List.forall_mem_cons, scalar_append,
        scalar_append, write_scalar value, writeFields_scalar rest]
      have hquote : Scalar (quote name) ↔ Scalar name := quote_scalar name
      tauto

end

mutual

theorem All.mono {Q Q' P P' : Text → Prop} (hQ : ∀ t, Q t → Q' t)
    (hP : ∀ t, P t → P' t) : ∀ value : Json, All Q P value → All Q' P' value
  | .str text, h => hP text h
  | .list items, h => AllItems.mono hQ hP items h
  | .object fields, h => AllFields.mono hQ hP fields h

theorem AllItems.mono {Q Q' P P' : Text → Prop} (hQ : ∀ t, Q t → Q' t)
    (hP : ∀ t, P t → P' t) : ∀ items : List Json,
    AllItems Q P items → AllItems Q' P' items
  | [], _ => trivial
  | item :: rest, h => ⟨All.mono hQ hP item h.1, AllItems.mono hQ hP rest h.2⟩

theorem AllFields.mono {Q Q' P P' : Text → Prop} (hQ : ∀ t, Q t → Q' t)
    (hP : ∀ t, P t → P' t) : ∀ fields : List (Text × Json),
    AllFields Q P fields → AllFields Q' P' fields
  | [], _ => trivial
  | (name, value) :: rest, h =>
      ⟨hQ name h.1, All.mono hQ hP value h.2.1,
        AllFields.mono hQ hP rest h.2.2⟩

end

mutual

/-- The texts of the value read by `f`. -/
theorem all_mapText {Q P Q' P' : Text → Prop} {f : Text → Text}
    (hQ : ∀ t, Q t → Q' (f t)) (hP : ∀ t, P t → P' (f t)) :
    ∀ value : Json, All Q P value → All Q' P' (mapText f value)
  | .str text, h => hP text h
  | .list items, h => allItems_mapItems hQ hP items h
  | .object fields, h => allFields_mapFields hQ hP fields h

theorem allItems_mapItems {Q P Q' P' : Text → Prop} {f : Text → Text}
    (hQ : ∀ t, Q t → Q' (f t)) (hP : ∀ t, P t → P' (f t)) :
    ∀ items : List Json, AllItems Q P items → AllItems Q' P' (mapItems f items)
  | [], _ => trivial
  | item :: rest, h =>
      ⟨all_mapText hQ hP item h.1, allItems_mapItems hQ hP rest h.2⟩

theorem allFields_mapFields {Q P Q' P' : Text → Prop} {f : Text → Text}
    (hQ : ∀ t, Q t → Q' (f t)) (hP : ∀ t, P t → P' (f t)) :
    ∀ fields : List (Text × Json), AllFields Q P fields →
      AllFields Q' P' (mapFields f fields)
  | [], _ => trivial
  | (name, value) :: rest, h =>
      ⟨hQ name h.1, all_mapText hQ hP value h.2.1,
        allFields_mapFields hQ hP rest h.2.2⟩

end

/-- Both writers give the same bytes for a value read as code points. -/
theorem write_bytes {value : Json} (h : All Plain Readable value) :
    bufferFrom (write quoteUnits value) =
        utf8 (write quote (mapText points value)) ∧
      encode (write quote (mapText points value)) =
        some (utf8 (write quote (mapText points value))) := by
  have hscalar : Scalar (write quote (mapText points value)) := by
    apply (write_scalar _).mpr
    have hnames : ∀ name, Plain name → Scalar (points name) := fun name hname =>
      hname.points.symm ▸ hname.scalar
    exact all_mapText (f := points) hnames (fun text htext => htext) value h
  rw [write_points value h, bufferFrom_utf16 hscalar]
  exact ⟨rfl, encode_eq_some.mpr ⟨hscalar, rfl⟩⟩

/-- The canonical texts have the same bytes. -/
theorem canonical_bytes {value : Json} (h : All Plain Readable value) :
    bufferFrom (stringify value) = utf8 (dumps (mapText points value)) ∧
      encode (dumps (mapText points value)) =
        some (utf8 (dumps (mapText points value))) := by
  have hnames : All (fun name => points name = name) Readable value :=
    All.mono (fun _ hname => hname.points) (fun _ htext => htext) value h
  have hsorted : All Plain Readable (sortKeys value) := (all_sortKeys value).mpr h
  rw [stringify, dumps, sortKeys_mapText value hnames]
  exact write_bytes hsorted

end AiTeam.JsonText
