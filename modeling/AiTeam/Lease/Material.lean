/-
`materialKey` and the owner scopes that `clearOwner` is called with.
-/
import Mathlib.Data.List.Infix
import AiTeam.Frames
import AiTeam.Lease.Cache
import AiTeam.Scope
import AiTeam.Unicode

namespace AiTeam.Lease

open Unicode

/-- `encodeScope` on the code units of any strings. -/
def encodeScopeUnits (parts : List Text) : Text :=
  (lit "|").intercalate (parts.map fun part =>
    lit (toString part.length) ++ lit ":" ++ part)

inductive MaterialKind where
  | runtime
  | hindsight
deriving DecidableEq

def MaterialKind.name : MaterialKind → String
  | .runtime => "runtime"
  | .hindsight => "hindsight"

/-- `SessionAuthorization`, with what the key reads of its caller, of its
snapshot and of its manager client. -/
structure SessionAuthorization where
  tenantId : Option String
  userId : Option String
  callerId : String
  managerOrigin : Option String
  employeeId : String
  snapshotVersion : String
  /-- `policy.model`, where it is a string. -/
  model : Option String
  /-- `policy.provider_ref`, where it is a string. -/
  providerRef : Option String
deriving DecidableEq

/-- Whose material it is: the parts that `clearRuntimeMaterials` encodes. -/
structure Owner where
  kind : MaterialKind
  tenantId : String
  memberId : String
deriving DecidableEq

def Owner.parts (owner : Owner) : List String :=
  [owner.kind.name, owner.tenantId, owner.memberId]

def Owner.scope (owner : Owner) : String := encodeScope owner.parts

def materialOwner (kind : MaterialKind)
    (authorization : SessionAuthorization) : Owner where
  kind
  tenantId := authorization.tenantId.getD ""
  memberId := authorization.userId.getD authorization.callerId

def materialKey (kind : MaterialKind) (authorization : SessionAuthorization) :
    String :=
  encodeScope [kind.name, authorization.tenantId.getD "",
    authorization.userId.getD authorization.callerId,
    authorization.managerOrigin.getD "manager-origin-unknown",
    authorization.employeeId, authorization.snapshotVersion,
    authorization.model.getD "", authorization.providerRef.getD ""]

/-! ### The encoding -/

theorem toNat_injective : Function.Injective Char.toNat :=
  fun _ _ => Char.toNat_inj.mp

theorem lit_toString (n : Nat) :
    lit (toString n) = (Nat.toDigits 10 n).map Char.toNat := by
  rw [lit, Nat.toString_eq_ofList_toDigits, String.toList_ofList]

theorem encodeScopeUnits_eq (parts : List Text) :
    encodeScopeUnits parts = Frames.frames Char.toNat parts := by
  have hframe : (fun part : Text =>
      lit (toString part.length) ++ lit ":" ++ part) =
      Frames.frame Char.toNat := by
    funext part
    rw [lit_toString, List.append_assoc]
    rfl
  rw [encodeScopeUnits, hframe]
  rfl

theorem encodeScopeUnits_injective :
    Function.Injective encodeScopeUnits := by
  intro a b h
  rw [encodeScopeUnits_eq, encodeScopeUnits_eq] at h
  exact Frames.frames_injective toNat_injective h

theorem encodeScopeUnits_begins {first : Text} {t u : List Text} :
    encodeScopeUnits (first :: t) ++ lit "|" <+: encodeScopeUnits u ↔
      ∃ part rest, u = first :: t ++ part :: rest := by
  rw [encodeScopeUnits_eq, encodeScopeUnits_eq]
  exact Frames.frames_begins toNat_injective

/-- The code units of a string. -/
def units (s : String) : Text := utf16 (lit s)

theorem units_append (a b : String) : units (a ++ b) = units a ++ units b := by
  simp [units, lit]

theorem units_injective : Function.Injective units := by
  have hscalar : ∀ s : String, ∀ c ∈ lit s, isScalar c = true := by
    intro s c hc
    obtain ⟨char, -, rfl⟩ := List.mem_map.mp hc
    have hvalid := char.valid
    simp only [UInt32.isValidChar, Nat.isValidChar] at hvalid
    simp only [isScalar, isSurrogate, isHigh, isLow, Char.toNat]
    grind
  intro a b h
  have hlit : lit a = lit b := by
    calc
      lit a = points (units a) := (points_utf16 (hscalar a)).symm
      _ = points (units b) := by rw [h]
      _ = lit b := points_utf16 (hscalar b)
  exact String.toList_injective
    ((List.map_inj_right fun _ _ heq => toNat_injective heq).mp hlit)

theorem units_length (s : String) : (units s).length = utf16Length s := by
  rw [units, lit, utf16, utf16Length, List.flatMap_map, List.length_flatMap]
  congr 1
  apply List.map_congr_left
  intro c _
  have hval : c.val < 0x10000 ↔ c.toNat < 0x10000 := UInt32.lt_iff_toNat_lt
  by_cases hplane : c.toNat < 0x10000
  · rw [if_pos (hval.mpr hplane), codeUnits, if_pos hplane]
    rfl
  · rw [if_neg fun h => hplane (hval.mp h), codeUnits, if_neg hplane]
    rfl

theorem units_plain {s : String} (h : ∀ c ∈ lit s, isPlain c = true) :
    units s = lit s := utf16_plain h

theorem units_toString (n : Nat) : units (toString n) = lit (toString n) := by
  apply units_plain
  intro c hc
  rw [lit_toString] at hc
  obtain ⟨digit, hdigit, rfl⟩ := List.mem_map.mp hc
  have h := Nat.isDigit_of_mem_toDigits (by decide) (by decide) hdigit
  simp only [Char.isDigit, Bool.and_eq_true, decide_eq_true_eq,
    UInt32.le_iff_toNat_le] at h
  simp only [isPlain, isSurrogate, isHigh, isLow, Char.toNat]
  grind

theorem encodeScope_append (part first : String) (parts more : List String) :
    encodeScope (part :: parts ++ first :: more) =
      encodeScope (part :: parts) ++ "|" ++ encodeScope (first :: more) := by
  induction parts generalizing part with
  | nil => simp [encodeScope, String.append_assoc]
  | cons next parts ih =>
      have hnext := ih next
      simp only [encodeScope, List.cons_append, List.map_cons,
        String.intercalate_cons_cons] at hnext ⊢
      rw [hnext]
      simp only [String.append_assoc]

/-- The model's `encodeScope` is the one on code units. -/
theorem units_encodeScope (parts : List String) :
    units (encodeScope parts) = encodeScopeUnits (parts.map units) := by
  have hframe : ∀ part : String,
      units (toString (utf16Length part) ++ ":" ++ part) =
        lit (toString (units part).length) ++ lit ":" ++ units part := by
    intro part
    rw [units_append, units_append, units_toString, units_length]
    rfl
  have hbar : units "|" = lit "|" := units_plain (by decide)
  induction parts with
  | nil => rfl
  | cons part parts ih =>
      cases parts with
      | nil => simpa [encodeScope, encodeScopeUnits] using hframe part
      | cons next parts =>
          have happend := encodeScope_append part next [] parts
          rw [List.singleton_append] at happend
          rw [happend, units_append, units_append, hbar, ih]
          have hone : encodeScope [part] =
              toString (utf16Length part) ++ ":" ++ part := by
            simp [encodeScope]
          rw [hone, hframe]
          simp [encodeScopeUnits, List.append_assoc]

theorem encodeScope_injective : Function.Injective encodeScope := by
  intro a b h
  have hunits : encodeScopeUnits (a.map units) =
      encodeScopeUnits (b.map units) := by
    rw [← units_encodeScope, ← units_encodeScope, h]
  exact (List.map_inj_right fun _ _ heq => units_injective heq).mp
    (encodeScopeUnits_injective hunits)

/-! ### The owner of a key -/

theorem lit_name_injective {kind kind' : MaterialKind}
    (h : lit kind.name = lit kind'.name) : kind = kind' := by
  cases kind <;> cases kind' <;> first | rfl | exact absurd h (by decide)

theorem name_injective {kind kind' : MaterialKind}
    (h : kind.name = kind'.name) : kind = kind' :=
  lit_name_injective (by rw [h])

/-- Parts behind an owner's are covered by that owner's scope alone. -/
theorem covers_owner (s t : Owner) (first : String) (more : List String) :
    (Clear.clearOwner t.scope).covers
      (encodeScope (s.parts ++ first :: more)) = true ↔ s = t := by
  constructor
  · intro h
    simp only [Clear.covers, Bool.or_eq_true, beq_iff_eq,
      String.startsWith_string_iff] at h
    rcases h with hsame | hprefix
    · have hlength := congrArg List.length (encodeScope_injective hsame)
      simp [Owner.parts] at hlength
    · have hbar : units "|" = lit "|" := units_plain (by decide)
      obtain ⟨rest, hrest⟩ := hprefix
      have hunits : encodeScopeUnits (t.parts.map units) ++ lit "|" <+:
          encodeScopeUnits ((s.parts ++ first :: more).map units) := by
        rw [← units_encodeScope, ← units_encodeScope]
        have hkey : encodeScope t.parts ++ "|" ++ String.ofList rest =
            encodeScope (s.parts ++ first :: more) := by
          apply String.toList_injective
          rw [← hrest]
          simp [Owner.scope]
        refine ⟨units (String.ofList rest), ?_⟩
        rw [← hkey, units_append, units_append, hbar]
      obtain ⟨part, after, hparts⟩ := encodeScopeUnits_begins.mp hunits
      obtain ⟨kind, tenantId, memberId⟩ := s
      obtain ⟨kind', tenantId', memberId'⟩ := t
      simp only [Owner.parts, List.map_cons, List.cons_append,
        List.nil_append, List.cons.injEq] at hparts
      obtain ⟨hkind, htenant, hmember, -⟩ := hparts
      rw [name_injective (units_injective hkind), units_injective htenant,
        units_injective hmember]
  · rintro rfl
    simp only [Clear.covers, Bool.or_eq_true, beq_iff_eq,
      String.startsWith_string_iff]
    right
    rw [Owner.scope, Owner.parts, encodeScope_append]
    simp only [String.toList_append]
    exact List.prefix_append _ _

theorem materialKey_eq (kind : MaterialKind)
    (authorization : SessionAuthorization) :
    materialKey kind authorization =
      encodeScope ((materialOwner kind authorization).parts ++
        [authorization.managerOrigin.getD "manager-origin-unknown",
          authorization.employeeId, authorization.snapshotVersion,
          authorization.model.getD "", authorization.providerRef.getD ""]) :=
  rfl

theorem covers_materialKey (owner : Owner) (kind : MaterialKind)
    (authorization : SessionAuthorization) :
    (Clear.clearOwner owner.scope).covers (materialKey kind authorization) =
      true ↔ materialOwner kind authorization = owner := by
  rw [materialKey_eq]
  exact covers_owner _ owner _ _

variable {V : Type}

theorem mem_clearOwner_entries {cache : Cache V} {scope : String}
    {entry : Entry V} :
    entry ∈ (clearOwner cache scope).entries ↔ entry ∈ cache.entries ∧
      ¬(Clear.clearOwner scope).covers entry.key = true := by
  have hknown : entry ∈ cache.entries → entry.key ∈ knownKeys cache := by
    intro h
    rw [knownKeys, List.mem_dedup, List.mem_append, List.mem_append]
    exact .inl (.inl (List.mem_map_of_mem h))
  simp only [clearOwner, invalidate, List.mem_filter, Bool.not_eq_true',
    List.contains_eq_mem, decide_eq_false_iff_not, not_and]
  constructor
  · rintro ⟨hentry, hcovered⟩
    exact ⟨hentry, hcovered (hknown hentry)⟩
  · rintro ⟨hentry, hcovered⟩
    exact ⟨hentry, fun _ => hcovered⟩

theorem mem_clearOwner_pending {cache : Cache V} {scope : String}
    {load : String × Nat} :
    load ∈ (clearOwner cache scope).pending ↔ load ∈ cache.pending ∧
      ¬(Clear.clearOwner scope).covers load.1 = true := by
  have hknown : load ∈ cache.pending → load.1 ∈ knownKeys cache := by
    intro h
    rw [knownKeys, List.mem_dedup, List.mem_append]
    exact .inr (List.mem_map_of_mem h)
  simp only [clearOwner, invalidate, List.mem_filter, Bool.not_eq_true',
    List.contains_eq_mem, decide_eq_false_iff_not, not_and]
  constructor
  · rintro ⟨hload, hcovered⟩
    exact ⟨hload, hcovered (hknown hload)⟩
  · rintro ⟨hload, hcovered⟩
    exact ⟨hload, fun _ => hcovered⟩

/-- The encoding of scopes loses nothing; whatever the strings, the key of a
material begins with the scope of its own owner and with no other; so
`clearOwner` drops what is cached and pending for that owner, and only that. -/
theorem clearOwner_exact :
    Function.Injective encodeScopeUnits ∧
      (∀ (kind kind' : MaterialKind)
        (tenantId memberId tenantId' memberId' first : Text)
        (more : List Text),
        encodeScopeUnits [lit kind'.name, tenantId', memberId'] ++ lit "|" <+:
            encodeScopeUnits
              (lit kind.name :: tenantId :: memberId :: first :: more) ↔
          kind = kind' ∧ tenantId = tenantId' ∧ memberId = memberId') ∧
      Function.Injective encodeScope ∧
      ∀ (cache : Cache V) (owner : Owner) (kind : MaterialKind)
        (authorization : SessionAuthorization),
        (∀ entry : Entry V,
          let cached := { entry with key := materialKey kind authorization }
          cached ∈ (clearOwner cache owner.scope).entries ↔
            cached ∈ cache.entries ∧
              materialOwner kind authorization ≠ owner) ∧
        ∀ id : Nat,
          (materialKey kind authorization, id) ∈
              (clearOwner cache owner.scope).pending ↔
            (materialKey kind authorization, id) ∈ cache.pending ∧
              materialOwner kind authorization ≠ owner := by
  refine ⟨encodeScopeUnits_injective, ?_, encodeScope_injective, ?_⟩
  · intro kind kind' tenantId memberId tenantId' memberId' first more
    rw [encodeScopeUnits_begins]
    constructor
    · rintro ⟨part, rest, h⟩
      simp only [List.cons_append, List.nil_append, List.cons.injEq] at h
      obtain ⟨hkind, rfl, rfl, -⟩ := h
      exact ⟨lit_name_injective hkind, rfl, rfl⟩
    · rintro ⟨rfl, rfl, rfl⟩
      exact ⟨first, more, rfl⟩
  · intro cache owner kind authorization
    constructor
    · intro entry cached
      rw [mem_clearOwner_entries, covers_materialKey]
    · intro id
      rw [mem_clearOwner_pending, covers_materialKey]

end AiTeam.Lease
