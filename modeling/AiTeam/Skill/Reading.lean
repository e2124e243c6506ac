/-
What Manager and the Agent require of a package, rule by rule: the Agent's
checks of a package are Manager's on the same texts read as code points.
-/
import Mathlib.Data.List.Dedup
import AiTeam.Fallible
import AiTeam.Skill.Verify

namespace AiTeam.Skill

open AiTeam.Unicode AiTeam.JsonText AiTeam.Fallible

/-! ### Segments and paths -/

theorem isSegmentChar_plain {c : Nat} (h : isSegmentChar c = true) :
    isPlain c = true := by
  apply isPlain_of_lt
  simp only [isSegmentChar, Bool.or_eq_true, Bool.and_eq_true,
    decide_eq_true_eq, beq_iff_eq] at h
  omega

theorem isPathChar_plain {c : Nat} (h : isPathChar c = true) :
    isPlain c = true := by
  rw [isPathChar, Bool.or_eq_true, beq_iff_eq] at h
  rcases h with h | rfl
  · exact isSegmentChar_plain h
  · rfl

/-- A segment that both sides accept. -/
structure GoodSegment (value : Text) : Prop where
  ne_nil : value ≠ []
  chars : ∀ c ∈ value, isSegmentChar c = true
  ne_dot : value ≠ lit "."
  ne_dots : value ≠ lit ".."
  ne_keyring : value ≠ lit ".aiteam-keyring"

variable {value path hash : Text} {sha : Sha256} {package : SkillPackage}

theorem GoodSegment.plain (h : GoodSegment value) :
    Plain value := fun c hc => isSegmentChar_plain (h.chars c hc)

theorem safeSegmentPy_ok {name : String} :
    safeSegmentPy value name = .ok () ↔ GoodSegment value := by
  rw [safeSegmentPy, guard_ok]
  simp only [Bool.or_eq_true, List.isEmpty_iff, Bool.not_eq_true',
    List.all_eq_false, List.contains_cons, List.contains_nil, Bool.or_false,
    beq_iff_eq, not_or, and_true, not_exists, not_and, Bool.not_eq_true,
    Bool.not_eq_false]
  constructor
  · rintro ⟨⟨hnil, hchars⟩, hdot, hdots, hkeyring⟩
    exact ⟨hnil, hchars, hdot, hdots, hkeyring⟩
  · intro h
    exact ⟨⟨h.ne_nil, h.chars⟩, h.ne_dot, h.ne_dots, h.ne_keyring⟩

theorem no_slash (h : ∀ c ∈ value, isSegmentChar c = true) :
    ∀ c ∈ value, (c == backslash || c == slash) = false := by
  intro c hc
  have hchar := h c hc
  rw [Bool.or_eq_false_iff, beq_eq_false_iff_ne, beq_eq_false_iff_ne]
  constructor
  · rintro rfl
    exact absurd hchar (by decide)
  · rintro rfl
    exact absurd hchar (by decide)

theorem safeSegment_ok {name : String} :
    safeSegment value name = .ok () ↔ GoodSegment value := by
  rw [safeSegment, guard_ok]
  simp only [Bool.or_eq_true, List.isEmpty_iff, Bool.not_eq_true',
    List.all_eq_false, List.any_eq_true, beq_iff_eq, not_or, and_true,
    not_exists, not_and, Bool.not_eq_true, Bool.not_eq_false]
  constructor
  · rintro ⟨⟨⟨⟨⟨hnil, hdot⟩, hdots⟩, hkeyring⟩, -⟩, hchars⟩
    exact ⟨hnil, hchars, hdot, hdots, hkeyring⟩
  · intro h
    refine ⟨⟨⟨⟨⟨h.ne_nil, h.ne_dot⟩, h.ne_dots⟩, h.ne_keyring⟩, ?_⟩, h.chars⟩
    intro c hc
    have hslash := no_slash h.chars c hc
    rw [Bool.or_eq_false_iff, beq_eq_false_iff_ne, beq_eq_false_iff_ne]
      at hslash
    exact hslash

theorem goodSegment_points :
    GoodSegment (points value) ↔ GoodSegment value := by
  constructor
  · intro h
    rwa [points_of_plain h.plain] at h
  · intro h
    rwa [points_plain h.plain]

/-- A path that the Agent accepts. -/
def GoodPath (path : Text) : Prop := canonicalPath path = .ok path

theorem canonicalPath_ok {out : Text} :
    canonicalPath path = .ok out ↔ out = path ∧ GoodPath path := by
  unfold GoodPath canonicalPath
  split_ifs <;> simp [eq_comm]

/-- The two grammars of paths are the same. -/
theorem normalizeSkillFilePath_ok {out : Text} :
    normalizeSkillFilePath path = .ok out ↔ out = path ∧ GoodPath path := by
  unfold GoodPath normalizeSkillFilePath canonicalPath
  split_ifs <;> simp [eq_comm]

theorem GoodPath.plain (h : GoodPath path) : Plain path := by
  unfold GoodPath canonicalPath at h
  rw [guard_ok] at h
  simp only [Bool.or_eq_true, Bool.not_eq_true', not_or, Bool.not_eq_false]
    at h
  exact fun c hc => isPathChar_plain (List.all_eq_true.mp h.1.2 c hc)

theorem goodPath_points : GoodPath (points path) ↔ GoodPath path := by
  constructor
  · intro h
    rwa [points_of_plain h.plain] at h
  · intro h
    rwa [points_plain h.plain]

/-! ### Hashes -/

theorem hex_plain (bytes : Bytes) : Plain (hex bytes) := by
  intro c hc
  obtain ⟨b, -, hb⟩ := List.mem_flatMap.mp hc
  have hbyte := b.toNat_lt
  simp only [List.mem_cons, List.not_mem_nil, or_false] at hb
  rcases hb with rfl | rfl
  · exact isPlain_of_lt (hexDigit_lt (by omega))
  · exact isPlain_of_lt (hexDigit_lt (by omega))

theorem hex16_plain (sha : Sha256) (bytes : Bytes) :
    Plain (sha.hex16 bytes) :=
  fun c hc => hex_plain _ c (List.mem_of_mem_take hc)

theorem hex_length (bytes : Bytes) : (hex bytes).length = 2 * bytes.length := by
  induction bytes with
  | nil => rfl
  | cons b rest ih =>
      rw [hex, List.flatMap_cons, List.length_append]
      change 2 + (hex rest).length = _
      rw [ih, List.length_cons]
      omega

theorem hex16_ne_nil (sha : Sha256) (bytes : Bytes) :
    sha.hex16 bytes ≠ [] := by
  intro hnil
  have hlength := congrArg List.length hnil
  rw [Sha256.hex16, List.length_take, hex_length, sha.digest_length] at hlength
  simp at hlength

theorem encoded_ok {text : Text} {bytes : Bytes} :
    encoded text = .ok bytes ↔ Scalar text ∧ bytes = utf8 text := by
  rw [Scalar, ← encode_eq_some, encoded]
  cases encode text with
  | none => simp
  | some b => simp

theorem sha16_ok {text : Text} :
    sha16 sha text = .ok hash ↔ Scalar text ∧ hash = sha.hex16 (utf8 text) := by
  rw [sha16, map_ok]
  constructor
  · rintro ⟨bytes, hbytes, rfl⟩
    obtain ⟨hscalar, rfl⟩ := encoded_ok.mp hbytes
    exact ⟨hscalar, rfl⟩
  · rintro ⟨hscalar, rfl⟩
    exact ⟨utf8 text, encoded_ok.mpr ⟨hscalar, rfl⟩, rfl⟩

theorem sha16Units_eq {content : Text} (h : Readable content) :
    sha16Units sha content = sha.hex16 (utf8 (points content)) := by
  rw [sha16Units, bufferFrom_of_points h]

/-! ### The texts of a package -/

namespace SkillFile

def mapText (f : Text → Text) (file : SkillFile) : SkillFile :=
  ⟨f file.path, f file.content, f file.contentHash⟩

/-- What the Agent requires of a file. -/
def Checked (sha : Sha256) (file : SkillFile) : Prop :=
  GoodPath file.path ∧ file.contentHash = sha16Units sha file.content

theorem validateFile_ok {file : SkillFile} :
    file.validateFile sha = .ok () ↔
      GoodPath file.path ∧ Scalar file.content ∧
        file.contentHash = sha.hex16 (utf8 file.content) := by
  rw [validateFile, bind_ok]
  constructor
  · rintro ⟨path, hpath, h⟩
    obtain ⟨hash, hhash, h⟩ := bind_ok.mp h
    rw [require_ok] at h
    obtain ⟨hscalar, rfl⟩ := sha16_ok.mp hhash
    exact ⟨(normalizeSkillFilePath_ok.mp hpath).2, hscalar, h.1⟩
  · rintro ⟨hpath, hscalar, hhash⟩
    refine ⟨file.path, normalizeSkillFilePath_ok.mpr ⟨rfl, hpath⟩, ?_⟩
    refine bind_ok.mpr ⟨_, sha16_ok.mpr ⟨hscalar, rfl⟩, ?_⟩
    rw [require_ok]
    exact ⟨hhash, rfl⟩

/-- A file whose content reads as Unicode passes both or neither. -/
theorem validateFile_points {file : SkillFile} (h : Readable file.content) :
    (file.mapText points).validateFile sha = .ok () ↔ file.Checked sha := by
  rw [validateFile_ok, Checked, sha16Units_eq h]
  change GoodPath (points file.path) ∧ Readable file.content ∧
    points file.contentHash = _ ↔ _
  rw [goodPath_points, points_eq_iff (hex16_plain sha _)]
  tauto

end SkillFile

/-! ### The files in order -/

theorem pairLe_iff_pathLe {pairs : List (Text × Text)}
    (hnodup : (pairs.map Prod.fst).Nodup) {a b : Text × Text}
    (ha : a ∈ pairs) (hb : b ∈ pairs) : pairLe a b ↔ pathLe a b := by
  rw [pairLe, pathLe]
  by_cases h : a.1 = b.1
  · have hsame : a = b := List.inj_on_of_nodup_map hnodup ha hb h
    rw [if_pos h, hsame, textLe_refl, textLe_refl]
  · rw [if_neg h]

/-- The pairs read as code points are in order when the pairs are. -/
theorem sorted_points {pairs : List (Text × Text)}
    (hnodup : (pairs.map Prod.fst).Nodup) :
    ((pairs.map fun pair => (pair.1, points pair.2)).insertionSort pairLe) =
      (pairs.insertionSort pathLe).map fun pair => (pair.1, points pair.2) := by
  symm
  apply List.map_insertionSort
  intro a ha b hb
  have hread : ((pairs.map fun pair => (pair.1, points pair.2)).map
      Prod.fst).Nodup := by
    rw [List.map_map]
    exact hnodup
  rw [pairLe_iff_pathLe hread (List.mem_map_of_mem ha) (List.mem_map_of_mem hb)]
  rfl

theorem mapItems_eq_map (f : Text → Text) (items : List Json) :
    mapItems f items = items.map (mapText f) := by
  induction items with
  | nil => rfl
  | cons item rest ih => rw [mapItems, ih, List.map_cons]

theorem allItems_iff {Q P : Text → Prop} {items : List Json} :
    AllItems Q P items ↔ ∀ item ∈ items, All Q P item := by
  induction items with
  | nil => simp [AllItems]
  | cons item rest ih => simp [AllItems, ih]

theorem filesJson_all {Q P : Text → Prop} {pairs : List (Text × Text)} :
    All Q P (filesJson pairs) ↔ ∀ pair ∈ pairs, P pair.1 ∧ P pair.2 := by
  rw [filesJson, All, allItems_iff, List.forall_mem_map]
  simp [All, AllItems]

theorem filesJson_mapText (f : Text → Text) (pairs : List (Text × Text)) :
    mapText f (filesJson pairs) =
      filesJson (pairs.map fun pair => (f pair.1, f pair.2)) := by
  rw [filesJson, filesJson, mapText, mapItems_eq_map, List.map_map,
    List.map_map]
  rfl

/-! ### The hash of a package -/

namespace SkillPackage

def pairs (package : SkillPackage) : List (Text × Text) :=
  package.files.map fun file => (file.path, file.content)

def mapText (f : Text → Text) (package : SkillPackage) : SkillPackage :=
  ⟨f package.skillId, f package.version, f package.contentHash,
    f package.displayName, f package.description,
    package.files.map (·.mapText f)⟩

/-- What the files hash to. -/
def hashOf (sha : Sha256) (package : SkillPackage) : Text :=
  sha.hex16 (utf8 (write quote
    (filesJson (package.pairs.insertionSort pairLe))))

theorem pairs_fst (package : SkillPackage) :
    package.pairs.map Prod.fst = package.files.map (·.path) := by
  rw [pairs, List.map_map]
  rfl

theorem normalized_ok {out : List (Text × Text)} :
    (package.files.mapM fun file => do
        return (← normalizeSkillFilePath file.path, file.content)) = .ok out ↔
      (∀ file ∈ package.files, GoodPath file.path) ∧ out = package.pairs := by
  have hstep : ∀ (file : SkillFile) (pair : Text × Text),
      (do return (← normalizeSkillFilePath file.path, file.content)) =
          (.ok pair : Except Refusal (Text × Text)) ↔
        GoodPath file.path ∧ pair = (file.path, file.content) := by
    intro file pair
    rw [bind_ok]
    constructor
    · rintro ⟨path, hpath, h⟩
      obtain ⟨rfl, hgood⟩ := normalizeSkillFilePath_ok.mp hpath
      exact ⟨hgood, (pure_ok.mp h).symm⟩
    · rintro ⟨hgood, rfl⟩
      exact ⟨file.path, normalizeSkillFilePath_ok.mpr ⟨rfl, hgood⟩, rfl⟩
  rw [mapM_ok (g := fun file => (file.path, file.content))
    fun file pair h => ((hstep file pair).mp h).2]
  simp only [hstep, and_true]
  rfl

theorem canonical_ok {out : List (Text × Text)} :
    (package.files.mapM fun file => do
        return (← canonicalPath file.path, file.content)) = .ok out ↔
      (∀ file ∈ package.files, GoodPath file.path) ∧ out = package.pairs := by
  have hstep : ∀ (file : SkillFile) (pair : Text × Text),
      (do return (← canonicalPath file.path, file.content)) =
          (.ok pair : Except String (Text × Text)) ↔
        GoodPath file.path ∧ pair = (file.path, file.content) := by
    intro file pair
    rw [bind_ok]
    constructor
    · rintro ⟨path, hpath, h⟩
      obtain ⟨rfl, hgood⟩ := canonicalPath_ok.mp hpath
      exact ⟨hgood, (pure_ok.mp h).symm⟩
    · rintro ⟨hgood, rfl⟩
      exact ⟨file.path, canonicalPath_ok.mpr ⟨rfl, hgood⟩, rfl⟩
  rw [mapM_ok (g := fun file => (file.path, file.content))
    fun file pair h => ((hstep file pair).mp h).2]
  simp only [hstep, and_true]
  rfl

theorem dedup_length_iff {pairs : List (Text × Text)} :
    (pairs.map Prod.fst).dedup.length = pairs.length ↔
      (pairs.map Prod.fst).Nodup := by
  have hlength : (pairs.map Prod.fst).length = pairs.length :=
    List.length_map Prod.fst
  rw [← hlength]
  constructor
  · intro h
    exact List.dedup_eq_self.mp ((List.dedup_sublist _).eq_of_length h)
  · intro h
    rw [h.dedup]

theorem computeContentHash_ok :
    package.computeContentHash sha = .ok hash ↔
      (∀ file ∈ package.files, GoodPath file.path) ∧
        (package.files.map (·.path)).Nodup ∧
        (∀ file ∈ package.files, Scalar file.content) ∧
        hash = package.hashOf sha := by
  have hperm := List.perm_insertionSort pairLe package.pairs
  have hnodup : ((package.pairs.insertionSort pairLe).map Prod.fst).Nodup ↔
      (package.files.map (·.path)).Nodup := by
    rw [(hperm.map Prod.fst).nodup_iff, pairs_fst]
  have hscalar : (∀ file ∈ package.files, GoodPath file.path) →
      (Scalar (write quote (filesJson (package.pairs.insertionSort pairLe))) ↔
        ∀ file ∈ package.files, Scalar file.content) := by
    intro hpaths
    rw [write_scalar, filesJson_all]
    simp only [List.mem_insertionSort]
    rw [pairs, List.forall_mem_map]
    exact ⟨fun h file hfile => (h file hfile).2, fun h file hfile =>
      ⟨(hpaths file hfile).plain.scalar, h file hfile⟩⟩
  rw [computeContentHash, bind_ok]
  constructor
  · rintro ⟨out, hout, h⟩
    obtain ⟨hpaths, rfl⟩ := normalized_ok.mp hout
    rw [guard_ok, bne_iff_ne, not_not, dedup_length_iff, hnodup] at h
    obtain ⟨bytes, hbytes, rfl⟩ := map_ok.mp h.2
    obtain ⟨htext, rfl⟩ := encoded_ok.mp hbytes
    exact ⟨hpaths, h.1, (hscalar hpaths).mp htext, rfl⟩
  · rintro ⟨hpaths, hdistinct, hcontents, rfl⟩
    refine ⟨package.pairs, normalized_ok.mpr ⟨hpaths, rfl⟩, ?_⟩
    rw [guard_ok, bne_iff_ne, not_not, dedup_length_iff, hnodup, map_ok]
    exact ⟨hdistinct, _,
      encoded_ok.mpr ⟨(hscalar hpaths).mpr hcontents, rfl⟩, rfl⟩

theorem packageHash_ok :
    packageHash sha package = .ok hash ↔
      (∀ file ∈ package.files, GoodPath file.path) ∧
        hash = sha.hex16 (bufferFrom (write quoteUnits
          (filesJson (package.pairs.insertionSort pathLe)))) := by
  rw [packageHash, bind_ok]
  constructor
  · rintro ⟨out, hout, h⟩
    obtain ⟨hpaths, rfl⟩ := canonical_ok.mp hout
    exact ⟨hpaths, (pure_ok.mp h).symm⟩
  · rintro ⟨hpaths, rfl⟩
    exact ⟨package.pairs, canonical_ok.mpr ⟨hpaths, rfl⟩, rfl⟩

theorem mapText_pairs (hpaths : ∀ file ∈ package.files, GoodPath file.path) :
    (package.mapText points).pairs =
      package.pairs.map fun pair => (pair.1, points pair.2) := by
  rw [pairs, pairs, mapText, List.map_map, List.map_map]
  apply List.map_congr_left
  intro file hfile
  change (points file.path, points file.content) = (file.path, points file.content)
  rw [(hpaths file hfile).plain.points]

/-- The Agent hashes the files to what Manager hashes them to. -/
theorem packageHash_eq (hpaths : ∀ file ∈ package.files, GoodPath file.path)
    (hnodup : (package.files.map (·.path)).Nodup)
    (hcontents : ∀ file ∈ package.files, Readable file.content) :
    packageHash sha package = .ok ((package.mapText points).hashOf sha) := by
  have hplain : ∀ pair ∈ package.pairs, Plain pair.1 := by
    rw [pairs, List.forall_mem_map]
    exact fun file hfile => (hpaths file hfile).plain
  have hreadable : ∀ pair ∈ package.pairs,
      Readable pair.1 ∧ Readable pair.2 := by
    rw [pairs, List.forall_mem_map]
    intro file hfile
    have hpath := (hpaths file hfile).plain
    refine ⟨?_, hcontents file hfile⟩
    rw [Readable, hpath.points]
    exact hpath.scalar
  have hall : All Plain Readable
      (filesJson (package.pairs.insertionSort pathLe)) := by
    rw [filesJson_all]
    simpa only [List.mem_insertionSort] using hreadable
  have hfiles : JsonText.mapText points
      (filesJson (package.pairs.insertionSort pathLe)) =
        filesJson ((package.mapText points).pairs.insertionSort pairLe) := by
    rw [filesJson_mapText, mapText_pairs hpaths,
      sorted_points (by rwa [pairs_fst])]
    congr 1
    apply List.map_congr_left
    intro pair hpair
    rw [(hplain pair ((List.mem_insertionSort pathLe).mp hpair)).points]
  apply packageHash_ok.mpr
  refine ⟨hpaths, ?_⟩
  rw [(write_bytes hall).1, hfiles, hashOf]

end SkillPackage

/-! ### The checks as a whole -/

/-- The files pass in turn: no path comes twice. -/
theorem checkFiles_ok {seen out : List Text} {files : List SkillFile} :
    checkFiles sha seen files = .ok out ↔
      (∀ file ∈ files, file.Checked sha ∧ file.path ∉ seen) ∧
        (files.map (·.path)).Nodup ∧
        out = (files.map (·.path)).reverse ++ seen := by
  induction files generalizing seen with
  | nil => simp [checkFiles, eq_comm]
  | cons file rest ih =>
      rw [checkFiles, bind_ok, List.forall_mem_cons, List.map_cons,
        List.nodup_cons, List.reverse_cons, List.append_assoc]
      constructor
      · rintro ⟨path, hpath, h⟩
        obtain ⟨rfl, hgood⟩ := canonicalPath_ok.mp hpath
        rw [guard_ok, guard_ok, List.contains_iff_mem, bne_iff_ne,
          not_not] at h
        obtain ⟨hseen, hhash, h⟩ := h
        obtain ⟨hrest, hnodup, rfl⟩ := ih.mp h
        refine ⟨⟨⟨⟨hgood, hhash⟩, hseen⟩, ?_⟩, ⟨?_, hnodup⟩, rfl⟩
        · exact fun other hother => ⟨(hrest other hother).1, fun hmem =>
            (hrest other hother).2 (List.mem_cons_of_mem _ hmem)⟩
        · rintro hmem
          obtain ⟨other, hother, heq⟩ := List.mem_map.mp hmem
          exact (hrest other hother).2 (heq ▸ List.mem_cons_self)
      · rintro ⟨⟨⟨⟨hgood, hhash⟩, hseen⟩, hrest⟩, ⟨hfirst, hnodup⟩, rfl⟩
        refine ⟨file.path, canonicalPath_ok.mpr ⟨rfl, hgood⟩, ?_⟩
        rw [guard_ok, guard_ok, List.contains_iff_mem, bne_iff_ne, not_not]
        refine ⟨hseen, hhash, ih.mpr ⟨?_, hnodup, rfl⟩⟩
        intro other hother
        refine ⟨(hrest other hother).1, fun hmem => ?_⟩
        rcases List.mem_cons.mp hmem with heq | hmem
        · exact hfirst (List.mem_map.mpr ⟨other, hother, heq⟩)
        · exact (hrest other hother).2 hmem

/-- What Manager requires of the paths and names of a package. -/
structure GoodNames (package : SkillPackage) : Prop where
  skillId : GoodSegment package.skillId
  version : GoodSegment package.version
  paths : ∀ file ∈ package.files, GoodPath file.path
  nodup : (package.files.map (·.path)).Nodup
  skill : lit "SKILL.md" ∈ package.files.map (·.path)

theorem checkPackage_ok :
    checkPackage sha package = .ok () ↔
      GoodNames package ∧
        (∀ file ∈ package.files,
          file.contentHash = sha16Units sha file.content) ∧
        packageHash sha package = .ok package.contentHash := by
  rw [checkPackage, bind_ok]
  constructor
  · rintro ⟨_, hskill, h⟩
    obtain ⟨_, hversion, h⟩ := bind_ok.mp h
    obtain ⟨seen, hfiles, h⟩ := bind_ok.mp h
    obtain ⟨hchecked, hnodup, rfl⟩ := checkFiles_ok.mp hfiles
    rw [guard_ok] at h
    obtain ⟨hseen, h⟩ := h
    obtain ⟨hash, hhash, h⟩ := bind_ok.mp h
    rw [guard_ok, bne_iff_ne, not_not] at h
    refine ⟨⟨safeSegment_ok.mp hskill, safeSegment_ok.mp hversion,
      fun file hfile => (hchecked file hfile).1.1, hnodup, ?_⟩,
      fun file hfile => (hchecked file hfile).1.2, h.1 ▸ hhash⟩
    simpa using hseen
  · rintro ⟨hnames, hhashes, hhash⟩
    refine ⟨(), safeSegment_ok.mpr hnames.skillId, ?_⟩
    refine bind_ok.mpr ⟨(), safeSegment_ok.mpr hnames.version, ?_⟩
    refine bind_ok.mpr ⟨_, checkFiles_ok.mpr
      ⟨fun file hfile => ⟨⟨hnames.paths file hfile, hhashes file hfile⟩,
        List.not_mem_nil⟩, hnames.nodup, rfl⟩, ?_⟩
    rw [guard_ok]
    refine ⟨by simpa using hnames.skill, ?_⟩
    refine bind_ok.mpr ⟨_, hhash, ?_⟩
    rw [guard_ok, bne_iff_ne, not_not]
    exact ⟨rfl, rfl⟩

theorem skill_of_any :
    (package.files.isEmpty ||
        !package.files.any fun file => file.path == lit "SKILL.md") = false ↔
      lit "SKILL.md" ∈ package.files.map (·.path) := by
  rw [Bool.or_eq_false_iff, Bool.not_eq_false', List.any_eq_true,
    List.mem_map]
  constructor
  · rintro ⟨-, file, hfile, hpath⟩
    exact ⟨file, hfile, beq_iff_eq.mp hpath⟩
  · rintro ⟨file, hfile, hpath⟩
    refine ⟨?_, file, hfile, beq_iff_eq.mpr hpath⟩
    rw [List.isEmpty_eq_false_iff]
    exact List.ne_nil_of_mem hfile

/-- A package with its content hash filled in. -/
theorem validate_ok (hhashed : package.contentHash ≠ []) :
    package.validate sha = .ok () ↔
      GoodNames package ∧
        (∀ file ∈ package.files, file.validateFile sha = .ok ()) ∧
        package.contentHash = package.hashOf sha := by
  have hempty : package.contentHash.isEmpty = false :=
    List.isEmpty_eq_false_iff.mpr hhashed
  rw [SkillPackage.validate, bind_ok]
  constructor
  · rintro ⟨_, hfiles, h⟩
    rw [SkillPackage.validatePackage] at h
    obtain ⟨_, hskill, h⟩ := bind_ok.mp h
    obtain ⟨_, hversion, h⟩ := bind_ok.mp h
    rw [guard_ok, Bool.not_eq_true, skill_of_any, hempty] at h
    obtain ⟨hmem, h⟩ := h
    obtain ⟨hash, hhash, h⟩ := bind_ok.mp h
    rw [require_ok] at h
    obtain ⟨hpaths, hnodup, -, rfl⟩ := SkillPackage.computeContentHash_ok.mp hhash
    exact ⟨⟨safeSegmentPy_ok.mp hskill, safeSegmentPy_ok.mp hversion, hpaths,
      hnodup, hmem⟩, forM_ok.mp hfiles, h.1⟩
  · rintro ⟨hnames, hfiles, hhash⟩
    refine ⟨(), forM_ok.mpr hfiles, ?_⟩
    rw [SkillPackage.validatePackage]
    refine bind_ok.mpr ⟨(), safeSegmentPy_ok.mpr hnames.skillId, ?_⟩
    refine bind_ok.mpr ⟨(), safeSegmentPy_ok.mpr hnames.version, ?_⟩
    rw [guard_ok, Bool.not_eq_true, skill_of_any, hempty]
    refine ⟨hnames.skill, bind_ok.mpr ⟨package.hashOf sha, ?_, ?_⟩⟩
    · exact SkillPackage.computeContentHash_ok.mpr ⟨hnames.paths, hnames.nodup,
        fun file hfile => (SkillFile.validateFile_ok.mp (hfiles file hfile)).2.1,
        rfl⟩
    · rw [require_ok]
      exact ⟨hhash, rfl⟩

theorem goodNames_points :
    GoodNames (package.mapText points) ↔ GoodNames package := by
  have hpaths : (∀ file ∈ (package.mapText points).files, GoodPath file.path) ↔
      ∀ file ∈ package.files, GoodPath file.path := by
    rw [SkillPackage.mapText, List.forall_mem_map]
    exact forall₂_congr fun file _ => goodPath_points
  have hread : (∀ file ∈ package.files, GoodPath file.path) →
      (package.mapText points).files.map (·.path) =
        package.files.map (·.path) := by
    intro h
    rw [SkillPackage.mapText, List.map_map]
    exact List.map_congr_left fun file hfile => (h file hfile).plain.points
  constructor
  · intro h
    have hall := hpaths.mp h.paths
    exact ⟨goodSegment_points.mp h.skillId, goodSegment_points.mp h.version,
      hall, hread hall ▸ h.nodup, hread hall ▸ h.skill⟩
  · intro h
    exact ⟨goodSegment_points.mpr h.skillId, goodSegment_points.mpr h.version,
      hpaths.mpr h.paths, (hread h.paths).symm ▸ h.nodup,
      (hread h.paths).symm ▸ h.skill⟩

/-- The Agent's checks of a package whose contents read as Unicode are
Manager's of its code points. -/
theorem checkPackage_iff
    (hcontents : ∀ file ∈ package.files, Readable file.content) :
    checkPackage sha package = .ok () ↔
      (package.mapText points).contentHash ≠ [] ∧
        (package.mapText points).validate sha = .ok () := by
  have hplain : Plain ((package.mapText points).hashOf sha) := hex16_plain sha _
  have hhash : (package.mapText points).contentHash =
        (package.mapText points).hashOf sha ↔
      package.contentHash = (package.mapText points).hashOf sha :=
    points_eq_iff hplain
  have hfiles : GoodNames package →
      ((∀ file ∈ (package.mapText points).files,
          file.validateFile sha = .ok ()) ↔
        ∀ file ∈ package.files,
          file.contentHash = sha16Units sha file.content) := by
    intro hnames
    rw [SkillPackage.mapText, List.forall_mem_map]
    refine forall₂_congr fun file hfile => ?_
    rw [SkillFile.validateFile_points (hcontents file hfile),
      SkillFile.Checked]
    exact and_iff_right (hnames.paths file hfile)
  rw [checkPackage_ok]
  constructor
  · rintro ⟨hnames, hhashes, hpackage⟩
    rw [SkillPackage.packageHash_eq hnames.paths hnames.nodup hcontents,
      Except.ok.injEq] at hpackage
    have heq := hhash.mpr hpackage.symm
    have hne : (package.mapText points).contentHash ≠ [] :=
      heq ▸ hex16_ne_nil sha _
    exact ⟨hne, (validate_ok hne).mpr ⟨goodNames_points.mpr hnames,
      (hfiles hnames).mpr hhashes, heq⟩⟩
  · rintro ⟨hne, hvalid⟩
    obtain ⟨hnames, hhashes, heq⟩ := (validate_ok hne).mp hvalid
    have hgood := goodNames_points.mp hnames
    refine ⟨hgood, (hfiles hgood).mp hhashes, ?_⟩
    rw [SkillPackage.packageHash_eq hgood.paths hgood.nodup hcontents,
      ← hhash.mp heq]

end AiTeam.Skill
