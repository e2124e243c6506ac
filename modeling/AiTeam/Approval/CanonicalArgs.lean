/-
`canonicalArgsHmac` of `approval-service.ts`: the arguments of a tool call with
the keys of every object in order, as the text that is hashed.  An approval is
good for the arguments that have its hash.
-/
import Mathlib.Data.List.Sort
import Mathlib.Data.List.Nodup
import Mathlib.Data.List.Pairwise
import AiTeam.Frames
import AiTeam.Stringify

namespace AiTeam.CanonicalArgs

open AiTeam.Unicode (Text lit)
open AiTeam.Stringify

/-- `a.localeCompare(b)`, a consistent comparison of strings.  It is 0 for
different strings that are canonically equivalent. -/
structure Collation where
  compare : Text → Text → Int
  swap : ∀ a b, compare b a < 0 ↔ 0 < compare a b
  trans : ∀ a b c, compare a b ≤ 0 → compare b c ≤ 0 → compare a c ≤ 0

variable {N : Type}

/-! ### Objects -/

def indexValue (key : Text) : Nat :=
  key.foldl (fun n c => n * 10 + (c - 0x30)) 0

/-- The key is an array index. -/
def isIndex (key : Text) : Bool :=
  key == (Nat.toDigits 10 (indexValue key)).map Char.toNat &&
    indexValue key < 4294967295

/-- Different keys, in the order an object lists them: indices in ascending
order, then the others as they were added. -/
def OwnKeys (keys : List Text) : Prop :=
  keys.Nodup ∧ keys.Pairwise fun key next =>
    isIndex next = true → isIndex key = true ∧ indexValue key < indexValue next

instance : DecidablePred OwnKeys := fun keys =>
  inferInstanceAs (Decidable (keys.Nodup ∧ keys.Pairwise fun key next =>
    isIndex next = true →
      isIndex key = true ∧ indexValue key < indexValue next))

/-- A JSON value as the host holds it. -/
def JsonValue (N : Type) : Type :=
  { value : Value N // value.All CodeUnits OwnKeys }

abbrev Fields (N : Type) := List (Text × Value N)

def keys (fields : Fields N) : List Text := fields.map Prod.fst

def indexLe (a b : Text × Value N) : Prop := indexValue a.1 ≤ indexValue b.1

instance : DecidableRel (@indexLe N) := fun a b =>
  inferInstanceAs (Decidable (indexValue a.1 ≤ indexValue b.1))

/-- `Object.fromEntries` of entries with different keys. -/
def fromEntries (entries : Fields N) : Fields N :=
  (entries.filter (isIndex ·.1)).insertionSort indexLe ++
    entries.filter (!isIndex ·.1)

section Canonical

variable (collation : Collation)

def keyLe (a b : Text × Value N) : Prop := collation.compare a.1 b.1 ≤ 0

instance : DecidableRel (@keyLe N collation) := fun a b =>
  inferInstanceAs (Decidable (collation.compare a.1 b.1 ≤ 0))

mutual

/-- The sort looks at the keys only, so the values may be replaced before. -/
def canonicalize : Value N → Value N
  | .null => .null
  | .bool value => .bool value
  | .num value => .num value
  | .str text => .str text
  | .list items => .list (canonicalizeItems items)
  | .object fields =>
      .object (fromEntries
        ((canonicalizeFields fields).insertionSort (keyLe collation)))

def canonicalizeItems : List (Value N) → List (Value N)
  | [] => []
  | item :: rest => canonicalize item :: canonicalizeItems rest

def canonicalizeFields : Fields N → Fields N
  | [] => []
  | (key, value) :: rest => (key, canonicalize value) :: canonicalizeFields rest

end

/-- What `canonicalArgsHmac` hashes. -/
def canonicalArgs (numbers : Numbers N) (value : JsonValue N) : Text :=
  stringify numbers.toText (canonicalize collation value.1)

end Canonical

mutual

/-- The same JSON value, in whatever order objects list their keys. -/
def Same : Value N → Value N → Prop
  | .null, .null => True
  | .bool a, .bool b => a = b
  | .num a, .num b => a = b
  | .str a, .str b => a = b
  | .list items, .list others => SameItems items others
  | .object fields, .object others => SameFields fields others
  | _, _ => False

def SameItems : List (Value N) → List (Value N) → Prop
  | [], [] => True
  | item :: rest, other :: others => Same item other ∧ SameItems rest others
  | _, _ => False

def SameFields : Fields N → Fields N → Prop
  | [], others => others = []
  | (key, value) :: rest, others =>
      ∃ other, (key, other) ∈ others ∧ Same value other ∧
        SameFields rest (others.filter (·.1 ≠ key))

end

/-- Of the keys that are not indices, no two compare equal. -/
def Apart (collation : Collation) (keys : List Text) : Prop :=
  keys.Pairwise fun key next =>
    isIndex key = false → isIndex next = false →
      collation.compare key next ≠ 0

/-- In all objects of the value the keys compare as different ones. -/
def KeysApart (collation : Collation) (value : JsonValue N) : Prop :=
  value.1.All (fun _ => True) (Apart collation)

/-! ### The order of the fields -/

variable {a b key : Text} {fields : Fields N}

theorem Collation.tie (collation : Collation) (hab : collation.compare a b ≤ 0)
    (hba : collation.compare b a ≤ 0) : collation.compare a b = 0 := by
  have hswap := collation.swap b a
  omega

theorem Collation.tie_symm (collation : Collation)
    (h : collation.compare a b = 0) : collation.compare b a = 0 := by
  have hswap := collation.swap a b
  have hback := collation.swap b a
  omega

theorem Apart.of_mem {collation : Collation} {keys : List Text}
    (h : Apart collation keys) {other : Text} (hkey : key ∈ keys)
    (hother : other ∈ keys) (hne : key ≠ other) (hki : isIndex key = false)
    (hoi : isIndex other = false) : collation.compare key other ≠ 0 := by
  have hsymm : Std.Symm fun key next : Text =>
      isIndex key = false → isIndex next = false →
        collation.compare key next ≠ 0 :=
    ⟨fun a b hab hb ha htie => hab ha hb (collation.tie_symm htie)⟩
  exact List.Pairwise.forall h hkey hother hne hki hoi

instance (collation : Collation) : Std.Total (@keyLe N collation) where
  total a b := by
    have hswap := collation.swap a.1 b.1
    simp only [keyLe]
    omega

instance (collation : Collation) : IsTrans _ (@keyLe N collation) where
  trans a b c := collation.trans a.1 b.1 c.1

instance : Std.Total (@indexLe N) where
  total a b := le_total (indexValue a.1) (indexValue b.1)

instance : IsTrans _ (@indexLe N) where
  trans _ _ _ := le_trans (α := Nat)

theorem isIndex_inj (ha : isIndex a = true) (hb : isIndex b = true)
    (h : indexValue a = indexValue b) : a = b := by
  simp only [isIndex, Bool.and_eq_true, beq_iff_eq] at ha hb
  rw [ha.1, hb.1, h]

theorem fromEntries_perm (entries : Fields N) :
    (fromEntries entries).Perm entries :=
  ((List.perm_insertionSort indexLe _).append_right _).trans
    (List.filter_append_perm _ entries)

section Order

variable (collation : Collation)

/-- The fields of an object as `canonicalize` puts them. -/
def ordered (fields : Fields N) : Fields N :=
  fromEntries (fields.insertionSort (keyLe collation))

theorem ordered_perm (fields : Fields N) :
    (ordered collation fields).Perm fields :=
  (fromEntries_perm _).trans (List.perm_insertionSort _ fields)

theorem eq_of_key (h : (keys fields).Nodup) {p q : Text × Value N}
    (hp : p ∈ fields) (hq : q ∈ fields) (hkey : p.1 = q.1) : p = q :=
  List.inj_on_of_nodup_map h hp hq hkey

variable {collation}

/-- The order of fields whose keys do not tie is their own. -/
theorem ordered_eq_of_perm {others : Fields N} (hperm : fields.Perm others)
    (hnodup : (keys fields).Nodup) (hapart : Apart collation (keys fields)) :
    ordered collation fields = ordered collation others := by
  have hsorted := ((List.perm_insertionSort (keyLe collation) fields).trans
    hperm).trans (List.perm_insertionSort (keyLe collation) others).symm
  have hmem : ∀ {p : Text × Value N} {test : Text × Value N → Bool},
      p ∈ (fields.insertionSort (keyLe collation)).filter test →
        p ∈ fields ∧ test p = true := by
    intro p test hp
    rw [List.mem_filter, List.mem_insertionSort] at hp
    exact hp
  have hindex := hsorted.filter (isIndex ·.1)
  have hother := hsorted.filter (!isIndex ·.1)
  rw [ordered, ordered, fromEntries, fromEntries]
  congr 1
  · apply List.Perm.eq_of_pairwise _
      (List.pairwise_insertionSort indexLe _)
      (List.pairwise_insertionSort indexLe _)
      (((List.perm_insertionSort _ _).trans hindex).trans
        (List.perm_insertionSort _ _).symm)
    intro p q hp hq hpq hqp
    rw [List.mem_insertionSort] at hp hq
    obtain ⟨hpf, hpi⟩ := hmem hp
    obtain ⟨hqf, hqi⟩ := hmem (hindex.mem_iff.mpr hq)
    exact eq_of_key hnodup hpf hqf
      (isIndex_inj hpi hqi (le_antisymm hpq hqp))
  · apply List.Perm.eq_of_pairwise _
      ((List.pairwise_insertionSort (keyLe collation) _).filter _)
      ((List.pairwise_insertionSort (keyLe collation) _).filter _) hother
    intro p q hp hq hpq hqp
    obtain ⟨hpf, hpi⟩ := hmem hp
    obtain ⟨hqf, hqi⟩ := hmem (hother.mem_iff.mpr hq)
    rw [Bool.not_eq_true'] at hpi hqi
    by_contra hne
    have hkeys : p.1 ≠ q.1 := fun h => hne (eq_of_key hnodup hpf hqf h)
    exact hapart.of_mem (List.mem_map_of_mem hpf) (List.mem_map_of_mem hqf)
      hkeys hpi hqi (collation.tie hpq hqp)

end Order

/-! ### Equal texts -/

section Fields

variable (collation : Collation)

theorem canonicalizeFields_eq (fields : Fields N) :
    canonicalizeFields collation fields =
      fields.map fun field => (field.1, canonicalize collation field.2) := by
  induction fields with
  | nil => rfl
  | cons field rest ih => rw [canonicalizeFields, ih, List.map_cons]

theorem keys_canonicalizeFields (fields : Fields N) :
    keys (canonicalizeFields collation fields) = keys fields := by
  rw [canonicalizeFields_eq, keys, List.map_map]
  rfl

theorem canonicalizeFields_filter (fields : Fields N) (key : Text) :
    canonicalizeFields collation (fields.filter (·.1 ≠ key)) =
      (canonicalizeFields collation fields).filter (·.1 ≠ key) := by
  rw [canonicalizeFields_eq, canonicalizeFields_eq, List.filter_map]
  rfl

end Fields

theorem filter_key (h : key ∉ keys fields) :
    fields.filter (·.1 ≠ key) = fields := by
  apply List.filter_eq_self.mpr
  intro field hfield
  have hne : field.1 ≠ key := by
    rintro rfl
    exact h (List.mem_map_of_mem hfield)
  exact decide_eq_true hne

variable {collation : Collation}

mutual

theorem same_of_canonicalize : ∀ (a b : Value N), a.All CodeUnits OwnKeys →
    canonicalize collation a = canonicalize collation b → Same a b
  | .null, b, _, h => by cases b <;> simp_all [canonicalize, Same]
  | .bool _, b, _, h => by cases b <;> simp_all [canonicalize, Same]
  | .num _, b, _, h => by cases b <;> simp_all [canonicalize, Same]
  | .str _, b, _, h => by cases b <;> simp_all [canonicalize, Same]
  | .list items, b, ha, h => by
      cases b with
      | list others =>
          exact sameItems_of_canonicalize items others ha
            (Value.list.inj h)
      | _ => cases h
  | .object fields, b, ha, h => by
      cases b with
      | object others =>
          have hordered :
              ordered collation (canonicalizeFields collation fields) =
                ordered collation (canonicalizeFields collation others) :=
            Value.object.inj h
          have hperm := (ordered_perm collation
            (canonicalizeFields collation fields)).symm
          rw [hordered] at hperm
          exact sameFields_of_canonicalize fields others ha.1.1 ha.2
            (hperm.trans (ordered_perm collation _))
      | _ => cases h

theorem sameItems_of_canonicalize : ∀ (items others : List (Value N)),
    AllItems CodeUnits OwnKeys items → canonicalizeItems collation items =
      canonicalizeItems collation others → SameItems items others
  | [], [], _, _ => trivial
  | [], _ :: _, _, h => nomatch h
  | _ :: _, [], _, h => nomatch h
  | item :: rest, other :: others, ha, h =>
      ⟨same_of_canonicalize item other ha.1 (List.cons.inj h).1,
        sameItems_of_canonicalize rest others ha.2 (List.cons.inj h).2⟩

theorem sameFields_of_canonicalize : ∀ (fields others : Fields N),
    (keys fields).Nodup → AllFields CodeUnits OwnKeys fields →
    (canonicalizeFields collation fields).Perm
      (canonicalizeFields collation others) → SameFields fields others
  | [], others, _, _, h => by
      cases others with
      | nil => rfl
      | cons => exact absurd h.length_eq (Nat.ne_of_beq_eq_false rfl)
  | (key, value) :: rest, others, hnodup, ha, h => by
      obtain ⟨hkey, hrest⟩ := List.nodup_cons.mp hnodup
      have hmem := h.mem_iff.mp (List.mem_cons_self)
      rw [canonicalizeFields_eq] at hmem
      obtain ⟨⟨name, other⟩, hother, heq⟩ := List.mem_map.mp hmem
      obtain ⟨rfl, hvalue⟩ := Prod.mk.inj heq
      refine ⟨other, hother, same_of_canonicalize value other ha.1.2
        hvalue.symm, sameFields_of_canonicalize rest _ hrest ha.2 ?_⟩
      have hfilter := h.filter (·.1 ≠ name)
      rw [canonicalizeFields_filter]
      rw [canonicalizeFields, List.filter_cons_of_neg (by simp),
        filter_key (by rwa [keys_canonicalizeFields])] at hfilter
      exact hfilter

end

/-! ### Equal values -/

/-- A field of an object, put before the others. -/
theorem perm_cons_filter {value : Value N} (hnodup : (keys fields).Nodup)
    (h : (key, value) ∈ fields) :
    fields.Perm ((key, value) :: fields.filter (·.1 ≠ key)) := by
  induction fields with
  | nil => cases h
  | cons field rest ih =>
      obtain ⟨hkey, hrest⟩ := List.nodup_cons.mp hnodup
      rcases List.mem_cons.mp h with rfl | h
      · rw [List.filter_cons_of_neg (by simp), filter_key hkey]
      · have hne : field.1 ≠ key := by
          rintro rfl
          exact hkey (List.mem_map.mpr ⟨_, h, rfl⟩)
        rw [List.filter_cons_of_pos (by simpa using hne)]
        exact ((ih hrest h).cons field).trans (List.Perm.swap _ _ _)

theorem allFields_iff {P : Text → Prop} {Q : List Text → Prop} :
    AllFields P Q fields ↔
      ∀ field ∈ fields, P field.1 ∧ field.2.All P Q := by
  induction fields with
  | nil => simp [AllFields]
  | cons field rest ih => simp [AllFields, ih]

mutual

theorem canonicalize_of_same : ∀ (a b : Value N), a.All CodeUnits OwnKeys →
    b.All CodeUnits OwnKeys → a.All (fun _ => True) (Apart collation) →
    Same a b → canonicalize collation a = canonicalize collation b
  | .null, b, _, _, _, h => by cases b <;> simp_all [Same]
  | .bool _, b, _, _, _, h => by cases b <;> simp_all [Same]
  | .num _, b, _, _, _, h => by cases b <;> simp_all [Same]
  | .str _, b, _, _, _, h => by cases b <;> simp_all [Same]
  | .list items, b, ha, hb, hapart, h => by
      cases b with
      | list others =>
          exact congrArg Value.list
            (canonicalizeItems_of_same items others ha hb hapart h)
      | _ => exact h.elim
  | .object fields, b, ha, hb, hapart, h => by
      cases b with
      | object others =>
          have hperm := canonicalizeFields_of_same fields others hb.1.1 ha.2
            hb.2 hapart.2 h
          apply congrArg Value.object
          apply ordered_eq_of_perm hperm
          · rw [keys_canonicalizeFields]
            exact ha.1.1
          · rw [keys_canonicalizeFields]
            exact hapart.1
      | _ => exact h.elim

theorem canonicalizeItems_of_same : ∀ (items others : List (Value N)),
    AllItems CodeUnits OwnKeys items → AllItems CodeUnits OwnKeys others →
    AllItems (fun _ => True) (Apart collation) items →
    SameItems items others →
    canonicalizeItems collation items = canonicalizeItems collation others
  | [], [], _, _, _, _ => rfl
  | [], _ :: _, _, _, _, h => h.elim
  | _ :: _, [], _, _, _, h => h.elim
  | item :: rest, other :: others, ha, hb, hapart, h => by
      rw [canonicalizeItems, canonicalizeItems,
        canonicalize_of_same item other ha.1 hb.1 hapart.1 h.1,
        canonicalizeItems_of_same rest others ha.2 hb.2 hapart.2 h.2]

theorem canonicalizeFields_of_same : ∀ (fields others : Fields N),
    (keys others).Nodup → AllFields CodeUnits OwnKeys fields →
    AllFields CodeUnits OwnKeys others →
    AllFields (fun _ => True) (Apart collation) fields →
    SameFields fields others →
    (canonicalizeFields collation fields).Perm
      (canonicalizeFields collation others)
  | [], others, _, _, _, _, h => by
      obtain rfl : others = [] := h
      exact List.Perm.refl _
  | (key, value) :: rest, others, hnodup, ha, hb, hapart, h => by
      obtain ⟨other, hother, hsame, hrest⟩ := h
      have hvalue := canonicalize_of_same value other ha.1.2
        (allFields_iff.mp hb _ hother).2 hapart.1.2 hsame
      have hfilter : AllFields CodeUnits OwnKeys (others.filter (·.1 ≠ key)) :=
        allFields_iff.mpr fun field hfield =>
          allFields_iff.mp hb field (List.mem_of_mem_filter hfield)
      have hfields := canonicalizeFields_of_same rest _
        (hnodup.sublist (List.filter_sublist.map _)) ha.2 hfilter hapart.2
        hrest
      have hothers : (canonicalizeFields collation others).Perm
          ((key, canonicalize collation other) ::
            canonicalizeFields collation (others.filter (·.1 ≠ key))) := by
        rw [canonicalizeFields_eq, canonicalizeFields_eq]
        exact (perm_cons_filter hnodup hother).map _
      rw [canonicalizeFields, hvalue]
      exact (hfields.cons _).trans hothers.symm

end

/-! ### Keys that tie -/

/-- The fields with the added ones in the other order. -/
def turn (fields : Fields N) : Fields N :=
  fields.filter (isIndex ·.1) ++ (fields.filter (!isIndex ·.1)).reverse

mutual

/-- The value with the added keys of all objects in the other order. -/
def turned : Value N → Value N
  | .null => .null
  | .bool value => .bool value
  | .num value => .num value
  | .str text => .str text
  | .list items => .list (turnedItems items)
  | .object fields => .object (turn (turnedFields fields))

def turnedItems : List (Value N) → List (Value N)
  | [] => []
  | item :: rest => turned item :: turnedItems rest

def turnedFields : Fields N → Fields N
  | [] => []
  | (key, value) :: rest => (key, turned value) :: turnedFields rest

end

theorem turnedFields_eq (fields : Fields N) :
    turnedFields fields =
      fields.map fun field => (field.1, turned field.2) := by
  induction fields with
  | nil => rfl
  | cons field rest ih => rw [turnedFields, ih, List.map_cons]

theorem keys_turnedFields (fields : Fields N) :
    keys (turnedFields fields) = keys fields := by
  rw [turnedFields_eq, keys, List.map_map]
  rfl

theorem turn_perm (fields : Fields N) : (turn fields).Perm fields :=
  ((List.reverse_perm _).append_left _).trans
    (List.filter_append_perm _ fields)

theorem ownKeys_turn (h : OwnKeys (keys fields)) :
    OwnKeys (keys (turn fields)) := by
  have hnot : ∀ {field : Text × Value N},
      field ∈ (fields.filter (!isIndex ·.1)).reverse →
        ¬isIndex field.1 = true := by
    intro field hfield
    rw [List.mem_reverse, List.mem_filter, Bool.not_eq_true'] at hfield
    exact Bool.eq_false_iff.mp hfield.2
  constructor
  · exact ((turn_perm fields).map Prod.fst).nodup_iff.mpr h.1
  · rw [keys, List.pairwise_map, turn, List.pairwise_append]
    refine ⟨(List.pairwise_map.mp h.2).filter _, ?_, ?_⟩
    · apply List.pairwise_of_forall_mem_list
      intro p _ q hq hindex
      exact absurd hindex (hnot hq)
    · intro p _ q hq hindex
      exact absurd hindex (hnot hq)

mutual

theorem all_turned : ∀ a : Value N, a.All CodeUnits OwnKeys →
    (turned a).All CodeUnits OwnKeys
  | .null, _ => trivial
  | .bool _, _ => trivial
  | .num _, _ => trivial
  | .str _, ha => ha
  | .list items, ha => allItems_turned items ha
  | .object fields, ha => by
      have hfields := allFields_turned fields ha.2
      constructor
      · apply ownKeys_turn
        rw [keys_turnedFields]
        exact ha.1
      · apply allFields_iff.mpr
        intro field hfield
        exact allFields_iff.mp hfields field
          ((turn_perm _).mem_iff.mp hfield)

theorem allItems_turned : ∀ items : List (Value N),
    AllItems CodeUnits OwnKeys items →
    AllItems CodeUnits OwnKeys (turnedItems items)
  | [], _ => trivial
  | item :: rest, ha => ⟨all_turned item ha.1, allItems_turned rest ha.2⟩

theorem allFields_turned : ∀ fields : Fields N,
    AllFields CodeUnits OwnKeys fields →
    AllFields CodeUnits OwnKeys (turnedFields fields)
  | [], _ => trivial
  | (_, value) :: rest, ha =>
      ⟨⟨ha.1.1, all_turned value ha.1.2⟩, allFields_turned rest ha.2⟩

end

mutual

theorem same_turned : ∀ a : Value N, a.All CodeUnits OwnKeys → Same a (turned a)
  | .null, _ => trivial
  | .bool _, _ => rfl
  | .num _, _ => rfl
  | .str _, _ => rfl
  | .list items, ha => sameItems_turned items ha
  | .object fields, ha =>
      sameFields_turned fields _ ha.1.1 ha.2 (turn_perm _).symm

theorem sameItems_turned : ∀ items : List (Value N),
    AllItems CodeUnits OwnKeys items → SameItems items (turnedItems items)
  | [], _ => trivial
  | item :: rest, ha => ⟨same_turned item ha.1, sameItems_turned rest ha.2⟩

theorem sameFields_turned : ∀ (fields others : Fields N),
    (keys fields).Nodup → AllFields CodeUnits OwnKeys fields →
    (turnedFields fields).Perm others → SameFields fields others
  | [], others, _, _, h => List.nil_perm.mp h
  | (key, value) :: rest, others, hnodup, ha, h => by
      obtain ⟨hkey, hrest⟩ := List.nodup_cons.mp hnodup
      refine ⟨turned value, h.mem_iff.mp List.mem_cons_self,
        same_turned value ha.1.2, sameFields_turned rest _ hrest ha.2 ?_⟩
      have hfilter := h.filter (·.1 ≠ key)
      rw [turnedFields, List.filter_cons_of_neg (by simp),
        filter_key (by rwa [keys_turnedFields])] at hfilter
      exact hfilter

end

/-- Of different elements only one stands before the other. -/
theorem not_both_orders {α : Type} {a b : α} {l : List α} (h : l.Nodup)
    (hab : [a, b].Sublist l) : ¬[b, a].Sublist l := by
  induction l with
  | nil => exact fun hba => nomatch hba
  | cons c l ih =>
      obtain ⟨hc, hl⟩ := List.nodup_cons.mp h
      intro hba
      rcases List.sublist_cons_iff.mp hab with hlater | ⟨r, heq, hr⟩
      · rcases List.sublist_cons_iff.mp hba with hother | ⟨r, heq, hr⟩
        · exact ih hl hlater hother
        · rw [← (List.cons.inj heq).1] at hc
          exact hc (hlater.subset (by simp))
      · obtain ⟨rfl, rfl⟩ := List.cons.inj heq
        rcases List.sublist_cons_iff.mp hba with hother | ⟨s, heq, -⟩
        · exact hc (hother.subset (by simp))
        · rw [(List.cons.inj heq).1] at hr
          exact hc (hr.subset (by simp))

/-- Fields that tie stay in their order. -/
theorem ordered_stable {p q : Text × Value N} (h : [p, q].Sublist fields)
    (hp : isIndex p.1 = false) (hq : isIndex q.1 = false)
    (htie : collation.compare p.1 q.1 = 0) :
    [p.1, q.1].Sublist
      (keys (ordered collation (canonicalizeFields collation fields))) := by
  have hmap := h.map fun field => (field.1, canonicalize collation field.2)
  rw [← canonicalizeFields_eq collation fields] at hmap
  have hsorted : [(p.1, canonicalize collation p.2),
      (q.1, canonicalize collation q.2)].Sublist
      ((canonicalizeFields collation fields).insertionSort
        (keyLe collation)) :=
    List.pair_sublist_insertionSort (le_of_eq htie) hmap
  have hfilter := hsorted.filter (!isIndex ·.1)
  have hboth : [(p.1, canonicalize collation p.2),
      (q.1, canonicalize collation q.2)].filter (!isIndex ·.1) =
        [(p.1, canonicalize collation p.2),
          (q.1, canonicalize collation q.2)] := by simp [hp, hq]
  rw [hboth] at hfilter
  exact (hfilter.trans (List.sublist_append_right _ _)).map Prod.fst

/-- Turning the keys round shows where two of them tie. -/
theorem apart_of_ordered (h : OwnKeys (keys fields))
    (hordered : ordered collation (canonicalizeFields collation
      (turn (turnedFields fields))) =
        ordered collation (canonicalizeFields collation fields)) :
    Apart collation (keys fields) := by
  rw [Apart, keys, List.pairwise_map, List.pairwise_iff_forall_sublist]
  intro p q hpq hp hq htie
  have hforward : [p.1, q.1].Sublist
      (keys (ordered collation (canonicalizeFields collation fields))) :=
    ordered_stable hpq hp hq htie
  have hback : [q.1, p.1].Sublist
      (keys (ordered collation (canonicalizeFields collation fields))) := by
    have hfilter := ((hpq.map fun field =>
      (field.1, turned field.2)).filter (!isIndex ·.1)).reverse
    have hboth : ([(p.1, turned p.2), (q.1, turned q.2)].filter
        (!isIndex ·.1)).reverse = [(q.1, turned q.2), (p.1, turned p.2)] := by
      simp [hp, hq]
    rw [List.map_cons, List.map_singleton, hboth, ← turnedFields_eq] at hfilter
    have hturn := hfilter.trans (List.sublist_append_right
      ((turnedFields fields).filter (isIndex ·.1)) _)
    rw [← hordered]
    exact ordered_stable (p := (q.1, turned q.2)) (q := (p.1, turned p.2))
      hturn hq hp (collation.tie_symm htie)
  have hnodup : (keys (ordered collation
      (canonicalizeFields collation fields))).Nodup := by
    have hperm := (ordered_perm collation
      (canonicalizeFields collation fields)).map Prod.fst
    apply hperm.nodup_iff.mpr
    rw [← keys, keys_canonicalizeFields]
    exact h.1
  exact not_both_orders hnodup hforward hback

theorem canonicalize_turned_of_mem (h : OwnKeys (keys fields))
    (hordered : ordered collation (canonicalizeFields collation
      (turn (turnedFields fields))) =
        ordered collation (canonicalizeFields collation fields))
    {field : Text × Value N} (hfield : field ∈ fields) :
    canonicalize collation (turned field.2) =
      canonicalize collation field.2 := by
  have hturned : (field.1, turned field.2) ∈ turn (turnedFields fields) := by
    apply (turn_perm _).mem_iff.mpr
    rw [turnedFields_eq]
    exact List.mem_map.mpr ⟨field, hfield, rfl⟩
  have hmem : (field.1, canonicalize collation (turned field.2)) ∈
      canonicalizeFields collation fields := by
    apply (ordered_perm collation _).mem_iff.mp
    rw [← hordered]
    apply (ordered_perm collation _).mem_iff.mpr
    rw [canonicalizeFields_eq]
    exact List.mem_map.mpr ⟨_, hturned, rfl⟩
  rw [canonicalizeFields_eq] at hmem
  obtain ⟨other, hother, heq⟩ := List.mem_map.mp hmem
  obtain ⟨hkey, hvalue⟩ := Prod.mk.inj heq
  rw [← hvalue, eq_of_key h.1 hother hfield hkey]

mutual

theorem apart_of_turned : ∀ a : Value N, a.All CodeUnits OwnKeys →
    canonicalize collation (turned a) = canonicalize collation a →
    a.All (fun _ => True) (Apart collation)
  | .null, _, _ => trivial
  | .bool _, _, _ => trivial
  | .num _, _, _ => trivial
  | .str _, _, _ => trivial
  | .list items, ha, h =>
      apartItems_of_turned items ha (Value.list.inj h)
  | .object fields, ha, h =>
      ⟨apart_of_ordered ha.1 (Value.object.inj h),
        apartFields_of_turned fields ha.2 fun _ hfield =>
          canonicalize_turned_of_mem ha.1 (Value.object.inj h) hfield⟩

theorem apartItems_of_turned : ∀ items : List (Value N),
    AllItems CodeUnits OwnKeys items →
    canonicalizeItems collation (turnedItems items) =
      canonicalizeItems collation items →
    AllItems (fun _ => True) (Apart collation) items
  | [], _, _ => trivial
  | item :: rest, ha, h =>
      ⟨apart_of_turned item ha.1 (List.cons.inj h).1,
        apartItems_of_turned rest ha.2 (List.cons.inj h).2⟩

theorem apartFields_of_turned : ∀ fields : Fields N,
    AllFields CodeUnits OwnKeys fields →
    (∀ field ∈ fields, canonicalize collation (turned field.2) =
      canonicalize collation field.2) →
    AllFields (fun _ => True) (Apart collation) fields
  | [], _, _ => trivial
  | (_, value) :: rest, ha, h =>
      ⟨⟨trivial, apart_of_turned value ha.1.2 (h _ List.mem_cons_self)⟩,
        apartFields_of_turned rest ha.2 fun field hfield =>
          h field (List.mem_cons_of_mem _ hfield)⟩

end

mutual

theorem all_canonicalize : ∀ a : Value N, a.All CodeUnits OwnKeys →
    (canonicalize collation a).All CodeUnits fun _ => True
  | .null, _ => trivial
  | .bool _, _ => trivial
  | .num _, _ => trivial
  | .str _, ha => ha
  | .list items, ha => allItems_canonicalize items ha
  | .object fields, ha => by
      have hfields := allFields_canonicalize fields ha.2
      refine ⟨trivial, allFields_iff.mpr fun field hfield => ?_⟩
      exact allFields_iff.mp hfields field
        ((ordered_perm collation _).mem_iff.mp hfield)

theorem allItems_canonicalize : ∀ items : List (Value N),
    AllItems CodeUnits OwnKeys items →
    AllItems CodeUnits (fun _ => True) (canonicalizeItems collation items)
  | [], _ => trivial
  | item :: rest, ha =>
      ⟨all_canonicalize item ha.1, allItems_canonicalize rest ha.2⟩

theorem allFields_canonicalize : ∀ fields : Fields N,
    AllFields CodeUnits OwnKeys fields →
    AllFields CodeUnits (fun _ => True) (canonicalizeFields collation fields)
  | [], _ => trivial
  | (_, value) :: rest, ha =>
      ⟨⟨ha.1.1, all_canonicalize value ha.1.2⟩,
        allFields_canonicalize rest ha.2⟩

end

theorem canonicalize_of_canonicalArgs {numbers : Numbers N}
    {a b : JsonValue N}
    (h : canonicalArgs collation numbers a =
      canonicalArgs collation numbers b) :
    canonicalize collation a.1 = canonicalize collation b.1 :=
  stringify_injective (all_canonicalize a.1 a.2) (all_canonicalize b.1 b.2) h

/-- The hashed text of a value is that of the values equal to it up to the
order of keys, and of no others, where the keys of its objects compare as
different ones; keys that tie keep the order they were sent in. -/
theorem canonicalArgs_exact (collation : Collation) (numbers : Numbers N)
    (a : JsonValue N) :
    (∀ b : JsonValue N,
      canonicalArgs collation numbers a = canonicalArgs collation numbers b ↔
        Same a.1 b.1) ↔ KeysApart collation a := by
  constructor
  · intro h
    have hturned := (h ⟨turned a.1, all_turned a.1 a.2⟩).mpr
      (same_turned a.1 a.2)
    exact apart_of_turned a.1 a.2 (canonicalize_of_canonicalArgs hturned).symm
  · intro h b
    constructor
    · intro htext
      exact same_of_canonicalize a.1 b.1 a.2
        (canonicalize_of_canonicalArgs htext)
    · intro hsame
      rw [canonicalArgs, canonicalArgs,
        canonicalize_of_same a.1 b.1 a.2 b.2 h hsame]

/-! ### One letter written in two ways -/

namespace AccentWitness

def lexical : Text → Text → Int
  | [], [] => 0
  | [], _ :: _ => -1
  | _ :: _, [] => 1
  | a :: as, b :: bs =>
      if a < b then -1 else if b < a then 1 else lexical as bs

theorem lexical_swap (a b : Text) : lexical b a < 0 ↔ 0 < lexical a b := by
  induction a generalizing b with
  | nil => cases b <;> simp [lexical]
  | cons c a ih =>
      cases b with
      | nil => simp [lexical]
      | cons d b =>
          rw [lexical, lexical]
          rcases Nat.lt_trichotomy c d with h | rfl | h
          · simp [h, Nat.lt_asymm h]
          · simpa using ih b
          · simp [h, Nat.lt_asymm h]

theorem lexical_trans (a b c : Text) (hab : lexical a b ≤ 0)
    (hbc : lexical b c ≤ 0) : lexical a c ≤ 0 := by
  induction a generalizing b c with
  | nil => cases c <;> simp [lexical]
  | cons x a ih =>
      cases b with
      | nil => simp [lexical] at hab
      | cons y b =>
          cases c with
          | nil => simp [lexical] at hbc
          | cons z c =>
              have hrest := ih b c
              grind [lexical]

/-- `e` with a combining acute accent is one letter. -/
def compose : Text → Text
  | 0x65 :: 0x301 :: rest => 0xE9 :: compose rest
  | c :: rest => c :: compose rest
  | [] => []

def accents : Collation where
  compare a b := lexical (compose a) (compose b)
  swap _ _ := lexical_swap _ _
  trans _ _ _ := lexical_trans _ _ _

theorem digit_isNumberUnit {n : Nat} {c : Char} (h : c ∈ Nat.toDigits 10 n) :
    isNumberUnit c.toNat = true := by
  have hdigit := Nat.isDigit_of_mem_toDigits (by decide) (by decide) h
  simp only [Char.isDigit, Bool.and_eq_true, decide_eq_true_eq,
    UInt32.le_iff_toNat_le] at hdigit
  rw [isNumberUnit]
  simp only [Char.toNat]
  grind

def decimals : Numbers Nat where
  toText n := (Nat.toDigits 10 n).map Char.toNat
  injective _ _ h := Frames.toDigits_injective
    ((List.map_inj_right fun _ _ => Char.toNat_inj.mp).mp h)
  nonempty n := by simp
  units n c hc := by
    obtain ⟨digit, hdigit, rfl⟩ := List.mem_map.mp hc
    exact digit_isNumberUnit hdigit

def first : JsonValue Nat :=
  ⟨.object [([0xE9], .num 1), ([0x65, 0x301], .num 2)], by
    refine ⟨by decide, ?_⟩
    simp [AllFields, Value.All, CodeUnits]⟩

def second : JsonValue Nat :=
  ⟨.object [([0x65, 0x301], .num 2), ([0xE9], .num 1)], by
    refine ⟨by decide, ?_⟩
    simp [AllFields, Value.All, CodeUnits]⟩

end AccentWitness

open AccentWitness in
theorem canonicalArgs_keeps_order_of_ties :
    ¬ ∀ a b : JsonValue Nat,
      canonicalArgs accents decimals a = canonicalArgs accents decimals b ↔
        Same a.1 b.1 := by
  intro h
  have hsame : Same first.1 second.1 :=
    ⟨.num 1, by simp, rfl, .num 2, by simp, rfl, rfl⟩
  have htext := (h first second).mpr hsame
  revert htext
  decide

end AiTeam.CanonicalArgs
