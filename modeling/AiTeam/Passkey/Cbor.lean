/-
The CBOR reader of the ceremonies, the data items of RFC 8949 that it is for,
and the items it takes.
-/
import AiTeam.Passkey.Ceremony
import AiTeam.Percent
import AiTeam.Reading

namespace AiTeam.Passkey.Cbor

open Reading
open Unicode (utf8 decodeUtf8 isScalar)
open Percent (isUtf8)

/-- What hashes. -/
inductive Atom where
  | int (n : Int)
  | bytes (b : Bytes)
  | str (text : Unicode.Text)
  | bool (b : Bool)
  | none
deriving DecidableEq

/-- A value of the reader; only an atom can be a key. -/
inductive Value where
  | atom (a : Atom)
  | list (items : List Value)
  | dict (entries : List (Atom × Value))

/-- `True` and `False` are 1 and 0 to `==`. -/
def Atom.plain : Atom → Atom
  | .bool b => .int (if b then 1 else 0)
  | a => a

/-- `==` of keys. -/
def same (a b : Atom) : Bool := a.plain == b.plain

/-- `entries[key] = value`: an equal key stays and gets the value. -/
def assign (entries : List (Atom × Value)) (key : Atom) (value : Value) :
    List (Atom × Value) :=
  match entries with
  | [] => [(key, value)]
  | entry :: rest =>
      if same entry.1 key then (entry.1, value) :: rest
      else entry :: assign rest key value

/-- What is raised. -/
inductive Failure where
  | ceremony (message : String)
  | unicodeDecode
  | typeError
  | recursion
deriving DecidableEq

/-- A `CeremonyError`. -/
def IsUser (failure : Failure) : Prop := ∃ message, failure = .ceremony message

/-- `_Cbor.read` -/
def read (n : Nat) : Reader UInt8 Failure Bytes :=
  Reading.read n (.ceremony "Malformed CBOR data")

/-- `_Cbor._val` -/
def val (addl : Nat) : Reader UInt8 Failure Nat :=
  if addl < 24 then pure addl
  else if addl = 24 then fromBytes <$> read 1
  else if addl = 25 then fromBytes <$> read 2
  else if addl = 26 then fromBytes <$> read 4
  else if addl = 27 then fromBytes <$> read 8
  else throw (.ceremony "Indefinite CBOR values are not supported")

/-- The first lines of `_Cbor.item`. -/
def head : Reader UInt8 Failure (Nat × Nat) := do
  let initial ← fromBytes <$> read 1
  let n ← val (initial % 32)
  pure (initial / 32, n)

/-- A key that does not hash fails. -/
def stored (key value : Value) : Reader UInt8 Failure (Atom × Value) :=
  match key with
  | .atom a => pure (a, value)
  | _ => throw .typeError

/-- A key, its value, and only then the hash of the key. -/
def entry (item : Reader UInt8 Failure Value) :
    Reader UInt8 Failure (Atom × Value) := do
  let key ← item
  let value ← item
  stored key value

def dictOf (entries : List (Atom × Value)) : List (Atom × Value) :=
  entries.foldl (fun dict e => assign dict e.1 e.2) []

/-- `_Cbor.item` behind its head. -/
def body (item : Reader UInt8 Failure Value) (major n : Nat) :
    Reader UInt8 Failure Value :=
  match major with
  | 0 => pure (.atom (.int n))
  | 1 => pure (.atom (.int (-1 - n)))
  | 2 => do
      let b ← read n
      pure (.atom (.bytes b))
  | 3 => do
      let b ← read n
      if isUtf8 b then pure (.atom (.str (decodeUtf8 b)))
      else throw .unicodeDecode
  | 4 => do
      let items ← times n item
      pure (.list items)
  | 5 => do
      let entries ← times n (entry item)
      pure (.dict (dictOf entries))
  | 7 =>
      if n = 20 then pure (.atom (.bool false))
      else if n = 21 then pure (.atom (.bool true))
      else if n = 22 then pure (.atom .none)
      else throw (.ceremony "Unsupported CBOR data")
  | _ => throw (.ceremony "Unsupported CBOR data")

/-- `_Cbor.item`.  The recursion limit leaves room for so many items, one
inside the other. -/
def item : Nat → Reader UInt8 Failure Value
  | 0 => throw .recursion
  | room + 1 => do
      let initial ← head
      body (item room) initial.1 initial.2

/-- `_cbor_loads` -/
def cborLoads (room : Nat) (data : Bytes) : Except Failure Value :=
  match item room data with
  | .error error => .error error
  | .ok (value, rest) =>
      if rest ≠ [] then .error (.ceremony "Trailing CBOR data") else .ok value

/-! ### The data items -/

/-- The additional information of a head, its argument and the bytes that
hold it. -/
inductive Argument : Nat → Nat → Bytes → Prop
  | short (n : Nat) : n < 24 → Argument n n []
  | long (info width : Nat) (argument : Bytes) :
      (info, width) ∈ [(24, 1), (25, 2), (26, 4), (27, 8)] →
      argument.length = width → Argument info (fromBytes argument) argument

/-- The head of an item: its major type and its argument. -/
inductive Head (major n : Nat) : Bytes → Prop
  | mk (initial : UInt8) (info : Nat) (argument : Bytes) :
      info < 32 → initial.toNat = 32 * major + info →
      Argument info n argument → Head major n (initial :: argument)

/-- The bytes are one well-formed item of the subset, and this is its value:
RFC 8949, with definite lengths, `false`, `true` and `null` in the one form
they have, and no two equal keys. -/
inductive Denotes : Bytes → Value → Prop
  | unsigned {n : Nat} {front : Bytes} :
      Head 0 n front → Denotes front (.atom (.int n))
  | negative {n : Nat} {front : Bytes} :
      Head 1 n front → Denotes front (.atom (.int (-1 - n)))
  | bytes {front : Bytes} (b : Bytes) :
      Head 2 b.length front → Denotes (front ++ b) (.atom (.bytes b))
  | text {front : Bytes} (text : Unicode.Text) :
      (∀ c ∈ text, isScalar c = true) → Head 3 (utf8 text).length front →
      Denotes (front ++ utf8 text) (.atom (.str text))
  | array {front : Bytes} (items : List (Bytes × Value)) :
      Head 4 items.length front →
      (∀ item ∈ items, Denotes item.1 item.2) →
      Denotes (front ++ items.flatMap Prod.fst) (.list (items.map Prod.snd))
  | map {front : Bytes} (entries : List ((Bytes × Atom) × (Bytes × Value))) :
      Head 5 entries.length front →
      (∀ entry ∈ entries, Denotes entry.1.1 (.atom entry.1.2)) →
      (∀ entry ∈ entries, Denotes entry.2.1 entry.2.2) →
      entries.Pairwise (fun one other => same one.1.2 other.1.2 = false) →
      Denotes (front ++ entries.flatMap fun entry => entry.1.1 ++ entry.2.1)
        (.dict (entries.map fun entry => (entry.1.2, entry.2.2)))
  | no : Denotes [0xF4] (.atom (.bool false))
  | yes : Denotes [0xF5] (.atom (.bool true))
  | null : Denotes [0xF6] (.atom .none)

/-! ### The items it takes -/

section

variable (G : Grammar UInt8 Value) (B : Bytes → Prop)

def Entry : Grammar UInt8 (Atom × Value) := fun data result =>
  ∃ key value, data = key ++ value ∧ G key (.atom result.1) ∧ G value result.2

/-- Behind a head.  Keys may repeat, and a simple value may have any form. -/
inductive Body : Nat → Nat → Bytes → Value → Prop
  | unsigned (n : Nat) : Body 0 n [] (.atom (.int n))
  | negative (n : Nat) : Body 1 n [] (.atom (.int (-1 - n)))
  | bytes (b : Bytes) : Body 2 b.length b (.atom (.bytes b))
  | text (b : Bytes) : isUtf8 b = true →
      Body 3 b.length b (.atom (.str (decodeUtf8 b)))
  | array (items : List (Bytes × Value)) : Many G items →
      Body 4 items.length (taken items) (.list (items.map Prod.snd))
  | map (entries : List (Bytes × (Atom × Value))) : Many (Entry G) entries →
      Body 5 entries.length (taken entries)
        (.dict (dictOf (entries.map Prod.snd)))
  | no : Body 7 20 [] (.atom (.bool false))
  | yes : Body 7 21 [] (.atom (.bool true))
  | null : Body 7 22 [] (.atom .none)

/-- Behind a head the data ends, or goes on with what is not supported. -/
inductive Stuck : Nat → Nat → Bytes → Prop
  | string (major n : Nat) (data : Bytes) : major = 2 ∨ major = 3 →
      data.length < n → Stuck major n data
  | array (n : Nat) (data : Bytes) : Broken n G B data → Stuck 4 n data
  | map (n : Nat) (data : Bytes) :
      Broken n (Entry G) (fun data => B data ∨ Behind G (fun _ => B) data)
        data → Stuck 5 n data
  | tag (major n : Nat) (data : Bytes) : 5 < major → major ≠ 7 →
      Stuck major n data
  | simple (n : Nat) (data : Bytes) : n ≠ 20 → n ≠ 21 → n ≠ 22 →
      Stuck 7 n data

end

/-- An item that nests at most `room` deep, with valid texts and keys that
hash. -/
def Taken : Nat → Grammar UInt8 Value
  | 0 => fun _ _ => False
  | room + 1 => fun data value => ∃ front back major n, data = front ++ back ∧
      Head major n front ∧ Body (Taken room) major n back value

/-- The data ends inside an item, or an item of it is not supported, and
all the items complete before that are `Taken`. -/
def Unfinished : Nat → Bytes → Prop
  | 0 => fun _ => False
  | room + 1 => fun data =>
      (∀ front rest major n, data = front ++ rest → ¬ Head major n front) ∨
      ∃ front rest major n, data = front ++ rest ∧ Head major n front ∧
        Stuck (Taken room) (Unfinished room) major n rest

/-! ### Heads -/

theorem read_takes (n : Nat) :
    Takes (read n) fun front result => front = result ∧ result.length = n :=
  takes_read n _

theorem read_refuses (n : Nat) :
    Refuses IsUser (read n) fun data => data.length < n :=
  refuses_read n ⟨_, rfl⟩

variable {data : Bytes} {n info major room more : Nat} {error : Failure}
  {G H : Grammar UInt8 Value} {value : Value}

theorem read_error (h : read n data = .error error) : IsUser error := by
  rw [read, Reading.read] at h
  split at h
  · cases h
    exact ⟨_, rfl⟩
  · cases h

theorem long_info {width : Nat}
    (hmem : (info, width) ∈ [(24, 1), (25, 2), (26, 4), (27, 8)]) :
    24 ≤ info ∧ info < 28 := by
  simp only [List.mem_cons, Prod.mk.injEq, List.not_mem_nil, or_false] at hmem
  omega

theorem argument_long_iff {width : Nat} {bytes : Bytes}
    (hmem : (info, width) ∈ [(24, 1), (25, 2), (26, 4), (27, 8)]) :
    (∃ b : Bytes, (bytes = b ∧ b.length = width) ∧ n = fromBytes b) ↔
      Argument info n bytes := by
  constructor
  · rintro ⟨b, ⟨rfl, hlength⟩, rfl⟩
    exact .long info width bytes hmem hlength
  · intro h
    cases h with
    | short hshort => exact absurd (long_info hmem).1 (Nat.not_le.mpr hshort)
    | long other _ hother hlength =>
        have hwidth : ∀ p ∈ [(24, 1), (25, 2), (26, 4), (27, 8)],
            ∀ q ∈ [(24, 1), (25, 2), (26, 4), (27, 8)], p.1 = q.1 →
              p.2 = q.2 := by
          decide
        have heq : other = width := hwidth _ hother _ hmem rfl
        exact ⟨bytes, ⟨rfl, hlength.trans heq⟩, rfl⟩

theorem val_takes (info : Nat) :
    Takes (val info) fun bytes n => Argument info n bytes := by
  rw [val]
  by_cases hshort : info < 24
  · rw [if_pos hshort]
    apply (takes_pure info).congr
    intro bytes n
    constructor
    · rintro ⟨rfl, rfl⟩
      exact .short n hshort
    · intro h
      cases h with
      | short => exact ⟨rfl, rfl⟩
      | long width _ hmem =>
          exact absurd (long_info hmem).1 (Nat.not_le.mpr hshort)
  rw [if_neg hshort]
  split
  · subst info
    exact ((read_takes 1).map fromBytes).congr fun bytes n =>
      argument_long_iff (by decide)
  split
  · subst info
    exact ((read_takes 2).map fromBytes).congr fun bytes n =>
      argument_long_iff (by decide)
  split
  · subst info
    exact ((read_takes 4).map fromBytes).congr fun bytes n =>
      argument_long_iff (by decide)
  split
  · subst info
    exact ((read_takes 8).map fromBytes).congr fun bytes n =>
      argument_long_iff (by decide)
  · apply (takes_throw _).congr
    intro bytes n
    apply iff_of_false id
    intro h
    cases h with
    | short => omega
    | long width _ hmem =>
        have hinfo := long_info hmem
        omega

theorem map_error {α β : Type} {f : α → β} {reader : Reader UInt8 Failure α}
    (h : (f <$> reader) data = .error error) : reader data = .error error := by
  rw [← bind_pure_comp, bind_error] at h
  rcases h with h | ⟨middle, left, -, h⟩
  · exact h
  · exact nomatch h

theorem val_error (h : val info data = .error error) : IsUser error := by
  rw [val] at h
  split at h
  · exact nomatch h
  iterate 4
    split at h
    · exact read_error (map_error h)
  cases h
  exact ⟨_, rfl⟩

theorem fromBytes_singleton (b : UInt8) : fromBytes [b] = b.toNat := by
  rw [fromBytes, List.foldl_cons, List.foldl_nil, Nat.zero_mul, Nat.zero_add]

theorem head_takes : Takes head fun front r => Head r.1 r.2 front := by
  apply (((read_takes 1).map fromBytes).bind fun initial =>
    (val_takes (initial % 32)).bind fun n => takes_pure _).congr
  intro front r
  constructor
  · rintro ⟨_, _, _, rfl, ⟨first, ⟨rfl, hlength⟩, rfl⟩, argument, _, n, rfl,
      hargument, rfl, rfl⟩
    obtain ⟨b, rfl⟩ := List.length_eq_one_iff.mp hlength
    rw [fromBytes_singleton] at hargument ⊢
    rw [List.append_nil]
    exact .mk b _ argument (Nat.mod_lt _ (by decide))
      (Nat.div_add_mod b.toNat 32).symm hargument
  · rintro ⟨b, info, argument, hinfo, hb, hargument⟩
    have hmajor : b.toNat / 32 = r.1 := by omega
    have hrest : b.toNat % 32 = info := by omega
    refine ⟨[b], argument, fromBytes [b], rfl, ⟨[b], ⟨rfl, rfl⟩, rfl⟩,
      argument, [], r.2, (List.append_nil _).symm, ?_, rfl, ?_⟩
    · rwa [fromBytes_singleton, hrest]
    · rw [fromBytes_singleton, hmajor]

theorem head_error (h : head data = .error error) : IsUser error := by
  rcases bind_error.mp h with h | ⟨initial, left, -, h⟩
  · exact read_error (map_error h)
  · rcases bind_error.mp h with h | ⟨n, rest, -, h⟩
    · exact val_error h
    · exact nomatch h

theorem head_refuses : Refuses IsUser head
    fun data => ∀ front rest (r : Nat × Nat), data = front ++ rest →
      ¬ Head r.1 r.2 front :=
  head_takes.refuses fun _ _ => head_error

/-! ### Items -/

section

variable {inner : Reader UInt8 Failure Value} {G : Grammar UInt8 Value}
  {B : Bytes → Prop}

theorem stored_takes (key value : Value) :
    Takes (stored key value) fun front result =>
      front = [] ∧ key = .atom result.1 ∧ value = result.2 := by
  cases key with
  | atom a =>
      apply (takes_pure (a, value)).congr
      rintro front ⟨b, other⟩
      rw [Prod.mk.injEq, Value.atom.injEq]
      exact and_congr_right' (and_congr eq_comm eq_comm)
  | list items =>
      apply (takes_throw Failure.typeError).congr
      exact fun front result => iff_of_false id fun h => nomatch h.2.1
  | dict entries =>
      apply (takes_throw Failure.typeError).congr
      exact fun front result => iff_of_false id fun h => nomatch h.2.1

theorem stored_refuses (key value : Value) :
    Refuses IsUser (stored key value)
      fun _ => False := by
  have hthrow : Refuses IsUser
      (throw .typeError : Reader UInt8 Failure (Atom × Value))
      fun _ => False :=
    (refuses_throw _ _).congr fun _ => iff_of_false (fun h => nomatch h) id
  cases key with
  | atom a => exact refuses_pure _ (a, value)
  | list items => exact hthrow
  | dict entries => exact hthrow

theorem entry_takes (h : Takes inner G) : Takes (entry inner) (Entry G) := by
  apply (h.bind fun key => h.bind fun value => stored_takes key value).congr
  rintro front ⟨a, other⟩
  constructor
  · rintro ⟨key, _, _, rfl, hG, value, _, _, rfl, hG', rfl, rfl, rfl⟩
    exact ⟨key, value, by rw [List.append_nil], hG, hG'⟩
  · rintro ⟨key, value, rfl, hG, hG'⟩
    exact ⟨key, value, _, rfl, hG, value, [], other,
      (List.append_nil value).symm, hG', rfl, rfl, rfl⟩

theorem entry_refuses (h : Takes inner G)
    (hrefuses : Refuses IsUser inner B) :
    Refuses IsUser (entry inner)
      fun data => B data ∨ Behind G (fun _ => B) data := by
  apply (Refuses.bind h hrefuses fun key =>
    Refuses.bind h hrefuses fun value => stored_refuses key value).congr
  intro data
  constructor
  · rintro (hB | ⟨front, rest, key, rfl, hG, hB | ⟨_, _, _, -, -, hfalse⟩⟩)
    · exact .inl hB
    · exact .inr ⟨front, rest, key, rfl, hG, hB⟩
    · exact hfalse.elim
  · rintro (hB | ⟨front, rest, key, rfl, hG, hB⟩)
    · exact .inl hB
    · exact .inr ⟨front, rest, key, rfl, hG, .inl hB⟩

theorem body_takes (h : Takes inner G) :
    ∀ major n, Takes (body inner major n) (Body G major n)
  | 0, n => by
      apply (takes_pure _).congr
      intro front value
      constructor
      · rintro ⟨rfl, rfl⟩
        exact .unsigned n
      · rintro ⟨⟩
        exact ⟨rfl, rfl⟩
  | 1, n => by
      apply (takes_pure _).congr
      intro front value
      constructor
      · rintro ⟨rfl, rfl⟩
        exact .negative n
      · rintro ⟨⟩
        exact ⟨rfl, rfl⟩
  | 2, n => by
      apply ((read_takes n).bind fun b => takes_pure _).congr
      intro front value
      constructor
      · rintro ⟨b, _, _, rfl, ⟨rfl, rfl⟩, rfl, rfl⟩
        rw [List.append_nil]
        exact .bytes b
      · rintro ⟨⟩
        exact ⟨front, [], front, (List.append_nil front).symm, ⟨rfl, rfl⟩, rfl,
          rfl⟩
  | 3, n => by
      have htext : ∀ b, Takes (if isUtf8 b then
          pure (.atom (.str (decodeUtf8 b))) else throw .unicodeDecode :
            Reader UInt8 Failure Value)
          fun front value => isUtf8 b = true ∧ front = [] ∧
            value = .atom (.str (decodeUtf8 b)) := by
        intro b
        split
        · next hvalid =>
          exact (takes_pure _).congr fun front value =>
            (and_iff_right hvalid).symm
        · next hinvalid =>
          exact (takes_throw _).congr fun front value =>
            iff_of_false id fun h => hinvalid h.1
      apply ((read_takes n).bind htext).congr
      intro front value
      constructor
      · rintro ⟨b, _, _, rfl, ⟨rfl, rfl⟩, hvalid, rfl, rfl⟩
        rw [List.append_nil]
        exact .text b hvalid
      · intro hbody
        cases hbody with
        | text _ hvalid =>
            exact ⟨front, [], front, (List.append_nil front).symm, ⟨rfl, rfl⟩,
              hvalid, rfl, rfl⟩
  | 4, n => by
      apply ((takes_times h n).bind fun items => takes_pure _).congr
      intro front value
      constructor
      · rintro ⟨_, _, _, rfl, ⟨parts, rfl, hparts, rfl, rfl⟩, rfl, rfl⟩
        rw [List.append_nil]
        exact .array parts hparts
      · intro hbody
        cases hbody with
        | array parts hparts =>
            exact ⟨taken parts, [], _, (List.append_nil _).symm,
              ⟨parts, rfl, hparts, rfl, rfl⟩, rfl, rfl⟩
  | 5, n => by
      apply ((takes_times (entry_takes h) n).bind fun entries =>
        takes_pure _).congr
      intro front value
      constructor
      · rintro ⟨_, _, _, rfl, ⟨parts, rfl, hparts, rfl, rfl⟩, rfl, rfl⟩
        rw [List.append_nil]
        exact .map parts hparts
      · intro hbody
        cases hbody with
        | map parts hparts =>
            exact ⟨taken parts, [], _, (List.append_nil _).symm,
              ⟨parts, rfl, hparts, rfl, rfl⟩, rfl, rfl⟩
  | 6, n => by
      apply (takes_throw _).congr
      exact fun front value => iff_of_false id fun h => nomatch h
  | 7, n => by
      rw [body]
      split
      · subst n
        apply (takes_pure _).congr
        intro front value
        constructor
        · rintro ⟨rfl, rfl⟩
          exact .no
        · rintro ⟨⟩
          exact ⟨rfl, rfl⟩
      split
      · subst n
        apply (takes_pure _).congr
        intro front value
        constructor
        · rintro ⟨rfl, rfl⟩
          exact .yes
        · rintro ⟨⟩
          exact ⟨rfl, rfl⟩
      split
      · subst n
        apply (takes_pure _).congr
        intro front value
        constructor
        · rintro ⟨rfl, rfl⟩
          exact .null
        · rintro ⟨⟩
          exact ⟨rfl, rfl⟩
      · apply (takes_throw _).congr
        intro front value
        apply iff_of_false id
        rintro ⟨⟩ <;> contradiction
  | major + 8, n => by
      apply (takes_throw _).congr
      exact fun front value => iff_of_false id fun h => nomatch h

theorem body_refuses (h : Takes inner G)
    (hrefuses : Refuses IsUser inner B) :
    ∀ major n, Refuses IsUser
      (body inner major n) (Stuck G B major n)
  | 0, n => by
      apply (refuses_pure _ _).congr
      intro data
      apply iff_of_false id
      rintro (⟨_, _, _, hmajor, -⟩ | _ | _ | ⟨_, _, _, hmajor, -⟩ | _) <;> omega
  | 1, n => by
      apply (refuses_pure _ _).congr
      intro data
      apply iff_of_false id
      rintro (⟨_, _, _, hmajor, -⟩ | _ | _ | ⟨_, _, _, hmajor, -⟩ | _) <;> omega
  | 2, n => by
      apply (Refuses.bind (read_takes n) (read_refuses n) fun b =>
        refuses_pure _ _).congr
      intro data
      constructor
      · rintro (hshort | ⟨_, _, _, -, -, hfalse⟩)
        · exact .string 2 n data (.inl rfl) hshort
        · exact hfalse.elim
      · rintro (⟨_, _, _, -, hshort⟩ | _ | _ | ⟨_, _, _, hmajor, -⟩ | _)
        · exact .inl hshort
        · omega
  | 3, n => by
      have htext : ∀ b, Refuses IsUser
          (if isUtf8 b then pure (.atom (.str (decodeUtf8 b)))
            else throw .unicodeDecode : Reader UInt8 Failure Value)
          fun _ => False := by
        intro b
        split
        · exact refuses_pure _ _
        · exact (refuses_throw _ _).congr fun _ =>
            iff_of_false (fun h => nomatch h) id
      apply (Refuses.bind (read_takes n) (read_refuses n) htext).congr
      intro data
      constructor
      · rintro (hshort | ⟨_, _, _, -, -, hfalse⟩)
        · exact .string 3 n data (.inr rfl) hshort
        · exact hfalse.elim
      · rintro (⟨_, _, _, -, hshort⟩ | _ | _ | ⟨_, _, _, hmajor, -⟩ | _)
        · exact .inl hshort
        · omega
  | 4, n => by
      apply (Refuses.bind (takes_times h n) (refuses_times h hrefuses n)
        fun items => refuses_pure _ _).congr
      intro data
      constructor
      · rintro (hbroken | ⟨_, _, _, -, -, hfalse⟩)
        · exact .array n data hbroken
        · exact hfalse.elim
      · rintro (⟨_, _, _, hmajor, -⟩ | ⟨_, _, hbroken⟩ | _ |
          ⟨_, _, _, hmajor, -⟩ | _)
        · omega
        · exact .inl hbroken
        · omega
  | 5, n => by
      apply (Refuses.bind (takes_times (entry_takes h) n)
        (refuses_times (entry_takes h) (entry_refuses h hrefuses) n)
        fun entries => refuses_pure _ _).congr
      intro data
      constructor
      · rintro (hbroken | ⟨_, _, _, -, -, hfalse⟩)
        · exact .map n data hbroken
        · exact hfalse.elim
      · rintro (⟨_, _, _, hmajor, -⟩ | _ | ⟨_, _, hbroken⟩ |
          ⟨_, _, _, hmajor, -⟩ | _)
        · omega
        · exact .inl hbroken
        · omega
  | 6, n => by
      apply (refuses_throw _ _).congr
      exact fun data => iff_of_true ⟨_, rfl⟩
        (.tag 6 n data (Nat.lt_succ_self 5) (by decide))
  | 7, n => by
      have hknown : ∀ (value : Value) (m : Nat), m = 20 ∨ m = 21 ∨ m = 22 →
          Refuses IsUser
            (pure value : Reader UInt8 Failure Value) (Stuck G B 7 m) := by
        intro value m hm
        apply (refuses_pure _ value).congr
        intro data
        apply iff_of_false id
        rintro (⟨_, _, _, hmajor, -⟩ | _ | _ | ⟨_, _, _, -, hmajor⟩ |
          ⟨_, _, hno, hyes, hnull⟩) <;> omega
      rw [body]
      split
      · exact hknown _ n (.inl ‹_›)
      split
      · exact hknown _ n (.inr (.inl ‹_›))
      split
      · exact hknown _ n (.inr (.inr ‹_›))
      · apply (refuses_throw _ _).congr
        exact fun data => iff_of_true ⟨_, rfl⟩ (.simple n data ‹_› ‹_› ‹_›)
  | major + 8, n => by
      apply (refuses_throw _ _).congr
      exact fun data => iff_of_true ⟨_, rfl⟩
        (.tag (major + 8) n data (by omega) (by omega))

end

theorem item_takes (room : Nat) : Takes (item room) (Taken room) := by
  induction room with
  | zero => exact takes_throw _
  | succ room ih =>
      apply (head_takes.bind fun r => body_takes ih r.1 r.2).congr
      intro data value
      constructor
      · rintro ⟨front, back, r, hdata, hhead, hbody⟩
        exact ⟨front, back, r.1, r.2, hdata, hhead, hbody⟩
      · rintro ⟨front, back, major, n, hdata, hhead, hbody⟩
        exact ⟨front, back, (major, n), hdata, hhead, hbody⟩

theorem item_refuses (room : Nat) :
    Refuses IsUser (item room)
      (Unfinished room) := by
  induction room with
  | zero =>
      exact (refuses_throw _ _).congr fun _ =>
        iff_of_false (fun h => nomatch h) id
  | succ room ih =>
      apply (Refuses.bind head_takes head_refuses fun r =>
        body_refuses (item_takes room) ih r.1 r.2).congr
      intro data
      constructor
      · rintro (hcut | ⟨front, rest, r, hdata, hhead, hstuck⟩)
        · exact .inl fun front rest major n => hcut front rest (major, n)
        · exact .inr ⟨front, rest, r.1, r.2, hdata, hhead, hstuck⟩
      · rintro (hcut | ⟨front, rest, major, n, hdata, hhead, hstuck⟩)
        · exact .inl fun front rest r => hcut front rest r.1 r.2
        · exact .inr ⟨front, rest, (major, n), hdata, hhead, hstuck⟩

/-! ### Depth -/

theorem Entry.mono (h : ∀ data value, G data value → H data value)
    {result : Atom × Value} : Entry G data result → Entry H data result := by
  rintro ⟨key, value, hdata, hkey, hvalue⟩
  exact ⟨key, value, hdata, h _ _ hkey, h _ _ hvalue⟩

theorem Body.mono (h : ∀ data value, G data value → H data value)
    (hbody : Body G major n data value) : Body H major n data value := by
  cases hbody with
  | unsigned => exact .unsigned n
  | negative => exact .negative n
  | bytes => exact .bytes data
  | text _ hvalid => exact .text data hvalid
  | array items hitems =>
      exact .array items fun item hitem => h _ _ (hitems item hitem)
  | map entries hentries =>
      exact .map entries fun entry hentry => (hentries entry hentry).mono h
  | no => exact .no
  | yes => exact .yes
  | null => exact .null

theorem Taken.succ : ∀ {data : Bytes} {value : Value},
    Taken room data value → Taken (room + 1) data value := by
  induction room with
  | zero => exact fun h => h.elim
  | succ room ih =>
      rintro data value ⟨front, back, major, n, hdata, hhead, hbody⟩
      exact ⟨front, back, major, n, hdata, hhead, hbody.mono fun _ _ => ih⟩

theorem Taken.mono (hle : room ≤ more) (h : Taken room data value) :
    Taken more data value := by
  induction hle with
  | refl => exact h
  | step _ ih => exact ih.succ

theorem Stuck.mono {B C : Bytes → Prop}
    (h : ∀ data value, G data value → H data value)
    (hB : ∀ data, B data → C data) (hstuck : Stuck G B major n data) :
    Stuck H C major n data := by
  cases hstuck with
  | string _ _ _ hmajor hshort => exact .string major n data hmajor hshort
  | array _ _ hbroken =>
      obtain ⟨parts, rest, hlength, hparts, hdata, hrest⟩ := hbroken
      exact .array n data ⟨parts, rest, hlength,
        fun part hpart => h _ _ (hparts part hpart), hdata, hB _ hrest⟩
  | map _ _ hbroken =>
      obtain ⟨parts, rest, hlength, hparts, hdata, hrest⟩ := hbroken
      apply Stuck.map n data
      refine ⟨parts, rest, hlength,
        fun part hpart => (hparts part hpart).mono h, hdata, ?_⟩
      rcases hrest with hrest | ⟨key, left, value, hsplit, hkey, hleft⟩
      · exact .inl (hB _ hrest)
      · exact .inr ⟨key, left, value, hsplit, h _ _ hkey, hB _ hleft⟩
  | tag _ _ _ hlow hother => exact .tag major n data hlow hother
  | simple _ _ hno hyes hnull => exact .simple n data hno hyes hnull

theorem Unfinished.succ : ∀ {data : Bytes},
    Unfinished room data → Unfinished (room + 1) data := by
  induction room with
  | zero => exact fun h => h.elim
  | succ room ih =>
      rintro data (hcut | ⟨front, rest, major, n, hdata, hhead, hstuck⟩)
      · exact .inl hcut
      · exact .inr ⟨front, rest, major, n, hdata, hhead,
          hstuck.mono (fun _ _ => Taken.succ) fun _ => ih⟩

theorem Unfinished.mono (hle : room ≤ more) (h : Unfinished room data) :
    Unfinished more data := by
  induction hle with
  | refl => exact h
  | step _ ih => exact ih.succ

/-! ### The subset -/

theorem assign_fresh {entries : List (Atom × Value)} {key : Atom}
    (h : ∀ entry ∈ entries, same entry.1 key = false) (value : Value) :
    assign entries key value = entries ++ [(key, value)] := by
  induction entries with
  | nil => rfl
  | cons entry rest ih =>
      obtain ⟨hentry, hrest⟩ := List.forall_mem_cons.mp h
      rw [assign, hentry, if_neg Bool.false_ne_true, ih hrest, List.cons_append]

theorem dictOf_distinct {entries : List (Atom × Value)}
    (h : entries.Pairwise fun one other => same one.1 other.1 = false) :
    dictOf entries = entries := by
  have hfold : ∀ before : List (Atom × Value),
      (before ++ entries).Pairwise (fun one other =>
        same one.1 other.1 = false) →
      entries.foldl (fun dict e => assign dict e.1 e.2) before =
        before ++ entries := by
    clear h
    induction entries with
    | nil => exact fun before _ => (List.append_nil before).symm
    | cons entry rest ih =>
        intro before hbefore
        have hfresh : ∀ e ∈ before, same e.1 entry.1 = false := fun e he =>
          (List.pairwise_append.mp hbefore).2.2 e he entry List.mem_cons_self
        rw [List.foldl_cons, assign_fresh hfresh, ih, List.append_assoc,
          List.singleton_append]
        rwa [List.append_assoc, List.singleton_append]
  exact hfold [] h

/-- A bound for each is a bound for all. -/
theorem exists_common {α : Type} {P : Nat → α → Prop}
    (hmono : ∀ {n m a}, n ≤ m → P n a → P m a) {items : List α}
    (h : ∀ a ∈ items, ∃ n, P n a) : ∃ n, ∀ a ∈ items, P n a := by
  induction items with
  | nil => exact ⟨0, List.forall_mem_nil _⟩
  | cons a items ih =>
      obtain ⟨⟨n, ha⟩, hitems⟩ := List.forall_mem_cons.mp h
      obtain ⟨m, hall⟩ := ih hitems
      exact ⟨max n m, List.forall_mem_cons.mpr ⟨hmono (Nat.le_max_left n m) ha,
        fun b hb => hmono (Nat.le_max_right n m) (hall b hb)⟩⟩

theorem isUtf8_utf8 {text : Unicode.Text}
    (h : ∀ c ∈ text, isScalar c = true) : isUtf8 (utf8 text) = true := by
  rw [isUtf8, Unicode.decodeUtf8_utf8 h, BEq.rfl]

/-- A head of its own. -/
theorem taken_head {front : Bytes} (hhead : Head major n front)
    (hbody : Body (Taken 0) major n [] value) : Taken 1 front value :=
  ⟨front, [], major, n, (List.append_nil front).symm, hhead, hbody⟩

/-- An item of the subset is taken, given the room. -/
theorem Denotes.taken (h : Denotes data value) :
    ∃ room, Taken room data value := by
  induction h with
  | @unsigned n front hhead => exact ⟨1, taken_head hhead (.unsigned n)⟩
  | @negative n front hhead => exact ⟨1, taken_head hhead (.negative n)⟩
  | bytes b hhead => exact ⟨1, _, b, 2, _, rfl, hhead, .bytes b⟩
  | text text hscalar hhead =>
      have hbody : Body (Taken 0) 3 (utf8 text).length (utf8 text)
          (.atom (.str text)) := by
        have h := Body.text (G := Taken 0) (utf8 text) (isUtf8_utf8 hscalar)
        rwa [Unicode.decodeUtf8_utf8 hscalar] at h
      exact ⟨1, _, utf8 text, 3, _, rfl, hhead, hbody⟩
  | array items hhead _ ih =>
      obtain ⟨room, hitems⟩ := exists_common
        (P := fun room (item : Bytes × Value) => Taken room item.1 item.2)
        (fun hle h => h.mono hle) ih
      exact ⟨room + 1, _, _, 4, _, rfl, hhead, .array items hitems⟩
  | map entries hhead _ _ hdistinct ihkeys ihvalues =>
      obtain ⟨keyRoom, hkeys⟩ := exists_common
        (P := fun room (e : (Bytes × Atom) × (Bytes × Value)) =>
          Taken room e.1.1 (.atom e.1.2)) (fun hle h => h.mono hle) ihkeys
      obtain ⟨room, hvalues⟩ := exists_common
        (P := fun room (e : (Bytes × Atom) × (Bytes × Value)) =>
          Taken room e.2.1 e.2.2) (fun hle h => h.mono hle) ihvalues
      let parts : List (Bytes × (Atom × Value)) :=
        entries.map fun e => (e.1.1 ++ e.2.1, (e.1.2, e.2.2))
      have hparts : Many (Entry (Taken (max keyRoom room))) parts := by
        intro part hpart
        obtain ⟨e, he, rfl⟩ := List.mem_map.mp hpart
        exact ⟨e.1.1, e.2.1, rfl, (hkeys e he).mono (Nat.le_max_left _ _),
          (hvalues e he).mono (Nat.le_max_right _ _)⟩
      have hbody := Body.map parts hparts
      have hresults : parts.map Prod.snd = entries.map fun e =>
          (e.1.2, e.2.2) := List.map_map
      have hpairwise : (entries.map fun e => (e.1.2, e.2.2)).Pairwise
          fun one other => same one.1 other.1 = false :=
        List.pairwise_map.mpr hdistinct
      rw [hresults, dictOf_distinct hpairwise, List.length_map] at hbody
      have htaken : Reading.taken parts =
          entries.flatMap fun e => e.1.1 ++ e.2.1 := List.flatMap_map ..
      rw [htaken] at hbody
      exact ⟨max keyRoom room + 1, _, _, 5, _, rfl, hhead, hbody⟩
  | no =>
      exact ⟨1, taken_head (.mk 0xF4 20 [] (by decide) rfl
        (.short 20 (by decide))) .no⟩
  | yes =>
      exact ⟨1, taken_head (.mk 0xF5 21 [] (by decide) rfl
        (.short 21 (by decide))) .yes⟩
  | null =>
      exact ⟨1, taken_head (.mk 0xF6 22 [] (by decide) rfl
        (.short 22 (by decide))) .null⟩

theorem item_run (h : Taken room data value) (rest : Bytes) :
    item room (data ++ rest) = .ok (value, rest) :=
  (item_takes room).run h rest

/-- No data starts with two items. -/
theorem taken_unique {one other rest left : Bytes} {v w : Value}
    (hone : Taken room one v) (hother : Taken more other w)
    (hdata : one ++ rest = other ++ left) : v = w ∧ rest = left := by
  have hv := item_run (hone.mono (Nat.le_max_left room more)) rest
  have hw := item_run (hother.mono (Nat.le_max_right room more)) left
  rw [hdata, hw] at hv
  cases hv
  exact ⟨rfl, rfl⟩

theorem not_unfinished {rest : Bytes} (h : Taken room data value) :
    ¬ Unfinished more (data ++ rest) := by
  intro hunfinished
  obtain ⟨failure, herror, -⟩ := (item_refuses (max room more) _).mpr
    (hunfinished.mono (Nat.le_max_right room more))
  rw [item_run (h.mono (Nat.le_max_left room more)) rest] at herror
  exact nomatch herror

/-- Given the room, an item is decoded to its value, and in front of anything
it is read to its end and no further. -/
theorem cborLoads_denotes {data : Bytes} {value : Value}
    (h : Denotes data value) :
    ∃ room, ∀ more, room ≤ more → cborLoads more data = .ok value ∧
      ∀ rest, item more (data ++ rest) = .ok (value, rest) := by
  obtain ⟨room, htaken⟩ := h.taken
  refine ⟨room, fun more hle => ?_⟩
  have hitem := item_run (htaken.mono hle)
  refine ⟨?_, hitem⟩
  have hloads := hitem []
  rw [List.append_nil] at hloads
  rw [cborLoads, hloads]
  rfl

namespace NestedWitness

open AiTeam.Unicode (lit)

theorem head_one (initial argument : UInt8)
    (hinitial : initial.toNat = 32 * major + 24)
    (hargument : fromBytes [argument] = n) : Head major n [initial, argument] :=
  .mk initial 24 [argument] (by decide) hinitial
    (hargument ▸ .long 24 1 [argument] (by decide) rfl)

/-- An array of one null, and before it a five, each head with its argument in
a byte of its own. -/
theorem pair : Denotes [0x98, 2, 0x18, 5, 0x98, 1, 0xF6]
    (.list [.atom (.int 5), .list [.atom .none]]) := by
  refine .array [([0x18, 5], .atom (.int 5)),
    ([0x98, 1, 0xF6], .list [.atom .none])] (head_one 0x98 2 rfl rfl) ?_
  intro member hmember
  rcases List.mem_pair.mp hmember with rfl | rfl
  · exact .unsigned (head_one 0x18 5 rfl rfl)
  · refine .array [([0xF6], .atom .none)] (head_one 0x98 1 rfl rfl) ?_
    intro member hmember
    rw [List.mem_singleton.mp hmember]
    exact .null

theorem key : Denotes [0x78, 1, 0x61] (.atom (.str (lit "a"))) :=
  .text (lit "a") (by decide) (head_one 0x78 1 rfl rfl)

end NestedWitness

open NestedWitness in
/-- A map from a text to an array with an array in it. -/
theorem cborLoads_denotes_nested : ∃ room, ∀ more, room ≤ more →
    cborLoads more [0xB8, 1, 0x78, 1, 0x61, 0x98, 2, 0x18, 5, 0x98, 1, 0xF6] =
        .ok (.dict [(.str (Unicode.lit "a"),
          .list [.atom (.int 5), .list [.atom .none]])]) ∧
      ∀ rest, item more ([0xB8, 1, 0x78, 1, 0x61, 0x98, 2, 0x18, 5, 0x98, 1,
          0xF6] ++ rest) = .ok (.dict [(.str (Unicode.lit "a"),
            .list [.atom (.int 5), .list [.atom .none]])], rest) := by
  refine cborLoads_denotes (.map [(([0x78, 1, 0x61], .str (Unicode.lit "a")),
    [0x98, 2, 0x18, 5, 0x98, 1, 0xF6], _)] (head_one 0xB8 1 rfl rfl) ?_ ?_
    (List.pairwise_singleton _ _))
  · intro entry hentry
    rw [List.mem_singleton.mp hentry]
    exact key
  · intro entry hentry
    rw [List.mem_singleton.mp hentry]
    exact pair

/-- The reader returns a value just when the data is an item of the subset with
that value, and answers data that is no such item with a ceremony error. -/
def AcceptsSubset (room : Nat) (data : Bytes) : Prop :=
  (∀ value, cborLoads room data = .ok value ↔ Denotes data value) ∧
    ((∀ value, ¬ Denotes data value) →
      ∃ message, cborLoads room data = .error (.ceremony message))

/-- An item of the subset that nests within the room, data that ends or
leaves the subset with every item complete so far `Taken`, or such an item and
something behind it. -/
def Readable (room : Nat) (data : Bytes) : Prop :=
  ((∃ value, Denotes data value) ∧ ∃ value, Taken room data value) ∨
    Unfinished room data ∨
    ∃ front rest value, data = front ++ rest ∧ rest ≠ [] ∧
      Taken room front value

/-- The reader accepts just the subset where the data is readable. -/
theorem cborLoads_subset (room : Nat) (data : Bytes) :
    AcceptsSubset room data ↔ Readable room data := by
  constructor
  · rintro ⟨hvalues, herrors⟩
    cases hitem : item room data with
    | ok pair =>
        obtain ⟨value, rest⟩ := pair
        obtain ⟨front, rfl, htaken⟩ := (item_takes room _ _ _).mp hitem
        by_cases hrest : rest = []
        · subst hrest
          rw [List.append_nil] at hitem hvalues ⊢
          have hloads : cborLoads room front = .ok value := by
            rw [cborLoads, hitem]
            rfl
          exact .inl ⟨⟨value, (hvalues value).mp hloads⟩, value, htaken⟩
        · exact .inr (.inr ⟨front, rest, value, rfl, hrest, htaken⟩)
    | error failure =>
        have hloads : cborLoads room data = .error failure := by
          rw [cborLoads, hitem]
        have hnone : ∀ value, ¬ Denotes data value := by
          intro value hvalue
          rw [← hvalues value, hloads] at hvalue
          exact nomatch hvalue
        obtain ⟨message, hmessage⟩ := herrors hnone
        have huser : IsUser failure := by
          rw [hloads] at hmessage
          exact ⟨message, Except.error.inj hmessage⟩
        exact .inr (.inl ((item_refuses room data).mp ⟨failure, hitem, huser⟩))
  · rintro (⟨⟨value, hvalue⟩, other, hother⟩ | hunfinished |
      ⟨front, rest, value, rfl, hrest, htaken⟩)
    · have hloads : cborLoads room data = .ok other := by
        have hitem := item_run hother []
        rw [List.append_nil] at hitem
        rw [cborLoads, hitem]
        rfl
      have hunique : ∀ w, Denotes data w → other = w := by
        intro w hw
        obtain ⟨more, hmore⟩ := hw.taken
        have hsame : data ++ [] = data ++ [] := rfl
        exact (taken_unique hother hmore hsame).1
      constructor
      · intro w
        rw [hloads, Except.ok.injEq]
        constructor
        · rintro rfl
          rwa [hunique value hvalue]
        · exact hunique w
      · exact fun hnone => absurd hvalue (hnone value)
    · obtain ⟨failure, hitem, message, rfl⟩ :=
        (item_refuses room data).mpr hunfinished
      have hloads : cborLoads room data = .error (.ceremony message) := by
        rw [cborLoads, hitem]
      have hnone : ∀ value, ¬ Denotes data value := by
        intro value hvalue
        obtain ⟨more, hmore⟩ := hvalue.taken
        rw [← List.append_nil data] at hunfinished
        exact not_unfinished hmore hunfinished
      constructor
      · intro value
        rw [hloads]
        exact iff_of_false (fun h => nomatch h) (hnone value)
      · exact fun _ => ⟨message, hloads⟩
    · have hloads : cborLoads room (front ++ rest) =
          .error (.ceremony "Trailing CBOR data") := by
        rw [cborLoads, item_run htaken rest]
        exact if_pos hrest
      have hnone : ∀ value, ¬ Denotes (front ++ rest) value := by
        intro w hw
        obtain ⟨more, hmore⟩ := hw.taken
        exact hrest (taken_unique htaken hmore
          (List.append_nil (front ++ rest)).symm).2
      constructor
      · intro value
        rw [hloads]
        exact iff_of_false (fun h => nomatch h) (hnone value)
      · exact fun _ => ⟨_, hloads⟩

/-- A simple value in its longer form, and a key that is there twice. -/
example : cborLoads 1 [0xF8, 0x14] = .ok (.atom (.bool false)) ∧
    cborLoads 2 [0xA2, 0x01, 0x02, 0xF5, 0x03] =
      .ok (.dict [(.int 1, .atom (.int 3))]) := ⟨rfl, rfl⟩

/-- A text that is not UTF-8 is not refused as the user's. -/
theorem cborLoads_invalid :
    ¬ ∀ room data, AcceptsSubset room data := by
  intro h
  obtain ⟨hvalues, herrors⟩ := h 1 [0x61, 0xFF]
  have hloads : cborLoads 1 [0x61, 0xFF] = .error .unicodeDecode :=
    rfl
  have hnone : ∀ value, ¬ Denotes [0x61, 0xFF] value := by
    intro value hvalue
    rw [← hvalues value, hloads] at hvalue
    exact nomatch hvalue
  obtain ⟨message, hmessage⟩ := herrors hnone
  rw [hloads] at hmessage
  exact nomatch hmessage

end AiTeam.Passkey.Cbor
