/-
Manager and the Agent agree on signed packages: what Manager signs the Agent
recomputes and accepts, and what the Agent accepts keeps Manager's rules.
-/
import AiTeam.Skill.Reading

namespace AiTeam.Skill

open AiTeam.Unicode AiTeam.JsonText AiTeam.Fallible

/-! ### The texts that are signed -/

namespace SkillPackage

/-- Every text of the package satisfies `P`. -/
structure Texts (P : Text → Prop) (package : SkillPackage) : Prop where
  skillId : P package.skillId
  version : P package.version
  contentHash : P package.contentHash
  displayName : P package.displayName
  description : P package.description
  files : ∀ file ∈ package.files,
    P file.path ∧ P file.content ∧ P file.contentHash

end SkillPackage

/-- The envelope as the Agent parses the JSON of the response. -/
def SignedSkillPackage.mapText (f : Text → Text)
    (envelope : SignedSkillPackage) : SignedSkillPackage :=
  ⟨envelope.package.mapText f, f envelope.tenantId, f envelope.memberId,
    f envelope.keyId, f envelope.algorithm, f envelope.signature⟩

/-- The names in what is signed. -/
def signedNames : List Text :=
  [lit "member_id", lit "package", lit "tenant_id", lit "skill_id",
    lit "version", lit "content_hash", lit "display_name", lit "description",
    lit "files", lit "path", lit "content"]

theorem signedNames_plain : ∀ name ∈ signedNames, Plain name := by
  unfold Plain
  decide

section

variable {Q P : Text → Prop} {package : SkillPackage} {tenantId memberId : Text}

theorem signedJson_all (hQ : ∀ name, Plain name → Q name) :
    All Q P (signedJson package tenantId memberId) ↔
      P memberId ∧ package.Texts P ∧ P tenantId := by
  have hnames : ∀ name ∈ signedNames, Q name := fun name hname =>
    hQ name (signedNames_plain name hname)
  simp only [signedNames, List.forall_mem_cons, List.not_mem_nil,
    false_implies, implies_true, and_true] at hnames
  simp only [signedJson, SkillPackage.json, SkillFile.json, All, AllFields,
    allItems_iff, List.forall_mem_map, hnames, true_and, and_true]
  constructor
  · rintro ⟨h, ⟨h1, h2, h3, h4, h5, h6⟩, h'⟩
    exact ⟨h, ⟨h1, h2, h3, h4, h5, h6⟩, h'⟩
  · rintro ⟨h, ht, h'⟩
    exact ⟨h, ⟨ht.skillId, ht.version, ht.contentHash, ht.displayName,
      ht.description, ht.files⟩, h'⟩

/-- The value that is signed, read text by text. -/
theorem signedJson_mapText {f : Text → Text}
    (hf : ∀ name, Plain name → f name = name) :
    signedJson (package.mapText f) (f tenantId) (f memberId) =
      mapText f (signedJson package tenantId memberId) := by
  have hnames : ∀ name ∈ signedNames, f name = name := fun name hname =>
    hf name (signedNames_plain name hname)
  simp only [signedNames, List.forall_mem_cons, List.not_mem_nil,
    false_implies, implies_true, and_true] at hnames
  have hfiles : (package.files.map (·.mapText f)).map SkillFile.json =
      mapItems f (package.files.map SkillFile.json) := by
    rw [mapItems_eq_map, List.map_map, List.map_map]
    apply List.map_congr_left
    intro file _
    simp only [Function.comp_apply, SkillFile.json, SkillFile.mapText, mapText,
      mapFields, hnames]
  simp only [signedJson, SkillPackage.json, SkillPackage.mapText, mapText,
    mapFields, hnames, hfiles]

end

/-! ### What is signed is recomputed -/

theorem readable_utf16 {text : Text} (h : Scalar text) :
    points (utf16 text) = text := points_utf16 h

theorem mapText_points_utf16 {package : SkillPackage}
    (h : package.Texts Scalar) :
    (package.mapText utf16).mapText points = package := by
  have hfiles : (package.files.map (·.mapText utf16)).map (·.mapText points) =
      package.files := by
    rw [List.map_map]
    conv_rhs => rw [← List.map_id package.files]
    apply List.map_congr_left
    intro file hfile
    obtain ⟨hpath, hcontent, hhash⟩ := h.files file hfile
    simp only [Function.comp_apply, SkillFile.mapText, id]
    rw [readable_utf16 hpath, readable_utf16 hcontent, readable_utf16 hhash]
  rw [SkillPackage.mapText, SkillPackage.mapText, hfiles,
    readable_utf16 h.skillId, readable_utf16 h.version,
    readable_utf16 h.contentHash, readable_utf16 h.displayName,
    readable_utf16 h.description]

/-- The canonical bytes are the same on both sides. -/
theorem canonical_bytes_agree {package : SkillPackage}
    {tenantId memberId : Text} (hpackage : package.Texts Scalar)
    (htenant : Scalar tenantId) (hmember : Scalar memberId) :
    canonicalSkillPackageBytes package tenantId memberId =
      .ok (canonicalSignedSkillPackageBytes (package.mapText utf16)
        (utf16 tenantId) (utf16 memberId)) := by
  have hscalar : All Plain Scalar (signedJson package tenantId memberId) :=
    (signedJson_all fun _ h => h).mpr ⟨hmember, hpackage, htenant⟩
  have hvalue : signedJson (package.mapText utf16) (utf16 tenantId)
      (utf16 memberId) = mapText utf16 (signedJson package tenantId memberId) :=
    signedJson_mapText fun _ h => utf16_plain h
  have hall : All Plain Readable (signedJson (package.mapText utf16)
      (utf16 tenantId) (utf16 memberId)) := by
    rw [hvalue]
    refine all_mapText (fun name hname => ?_) (fun text htext => ?_) _ hscalar
    · rwa [utf16_plain hname]
    · rwa [Readable, readable_utf16 htext]
  have hback : mapText points (signedJson (package.mapText utf16)
      (utf16 tenantId) (utf16 memberId)) =
        signedJson package tenantId memberId := by
    rw [← signedJson_mapText fun _ h => points_plain h,
      mapText_points_utf16 hpackage, readable_utf16 htenant,
      readable_utf16 hmember]
  obtain ⟨hbytes, hencode⟩ := canonical_bytes hall
  rw [hback] at hbytes hencode
  rw [canonicalSkillPackageBytes, canonicalSignedSkillPackageBytes, hbytes,
    encoded, hencode]

/-! ### The signer -/

section

variable {node : Node} {instant : Text → Int}
  {signer : SkillPackageSigner node.ed} {package : SkillPackage}
  {tenantId memberId : Text} {now : Int} {envelope : SignedSkillPackage}

/-- What the signer puts in the envelope. -/
def signedEnvelope (signer : SkillPackageSigner node.ed)
    (package : SkillPackage) (tenantId memberId : Text) :
    SignedSkillPackage :=
  ⟨package, tenantId, memberId, signer.current.keyId, lit "Ed25519",
    Base64.encode (node.ed.sign signer.privateKey
      (utf8 (dumps (signedJson package tenantId memberId))))⟩

theorem sign_ok :
    sign node.sha instant signer package tenantId memberId now =
        .ok envelope ↔
      package.contentHash ≠ [] ∧
        package.computeContentHash node.sha = .ok package.contentHash ∧
        (tenantId ≠ [] ∧ memberId ≠ []) ∧
        isUsable instant signer.current now = true ∧
        (Scalar memberId ∧ package.Texts Scalar ∧ Scalar tenantId) ∧
        envelope = signedEnvelope signer package tenantId memberId := by
  have htexts : Scalar (dumps (signedJson package tenantId memberId)) ↔
      Scalar memberId ∧ package.Texts Scalar ∧ Scalar tenantId := by
    rw [dumps, write_scalar, all_sortKeys, signedJson_all fun _ h => h.scalar]
  rw [sign, guard_ok, List.isEmpty_iff]
  constructor
  · rintro ⟨hhashed, h⟩
    obtain ⟨hash, hhash, h⟩ := bind_ok.mp h
    rw [guard_ok, guard_ok, guard_ok, bne_iff_ne, not_not, Bool.or_eq_true,
      not_or, List.isEmpty_iff, List.isEmpty_iff, Bool.not_eq_true',
      Bool.not_eq_false] at h
    obtain ⟨heq, hscope, husable, h⟩ := h
    obtain ⟨message, hmessage, h⟩ := bind_ok.mp h
    obtain ⟨hscalar, rfl⟩ := encoded_ok.mp hmessage
    exact ⟨hhashed, heq ▸ hhash, hscope, husable, htexts.mp hscalar,
      (pure_ok.mp h).symm⟩
  · rintro ⟨hhashed, hhash, hscope, husable, hscalar, rfl⟩
    refine ⟨hhashed, bind_ok.mpr ⟨_, hhash, ?_⟩⟩
    rw [guard_ok, guard_ok, guard_ok, bne_iff_ne, not_not, Bool.or_eq_true,
      not_or, List.isEmpty_iff, List.isEmpty_iff, Bool.not_eq_true',
      Bool.not_eq_false]
    refine ⟨rfl, hscope, husable, bind_ok.mpr ⟨_, ?_, rfl⟩⟩
    exact encoded_ok.mpr ⟨htexts.mpr hscalar, rfl⟩

end

/-! ### The verification of what is signed -/

theorem base64_plain (bytes : Bytes) : Plain (Base64.encode bytes) := by
  intro c hc
  rw [Base64.encode, List.mem_append, List.mem_map] at hc
  apply isPlain_of_lt
  rcases hc with ⟨d, hd, rfl⟩ | hc
  · have hlt := Base64.sextets_lt bytes d hd
    rw [Base64.digit]
    split_ifs <;> omega
  · rw [Base64.padding, List.mem_replicate] at hc
    rw [hc.2, Base64.pad]
    omega

theorem signatureBytes_encode {bytes : Bytes} (h : bytes ≠ []) :
    signatureBytes (Base64.encode bytes) = .ok bytes := by
  have hempty : bytes.isEmpty = false := List.isEmpty_eq_false_iff.mpr h
  rw [signatureBytes, guard_ok, Base64.isEncoding_encode h,
    Base64.encode_length]
  refine ⟨by decide, ?_⟩
  rw [guard_ok, Base64.decode_encode, hempty, bne_self_eq_false]
  exact ⟨by decide, rfl⟩

/-- The options under which the Agent verifies the envelope: its own tenant
and member, a clock, and the signer's key, usable at that time. -/
structure UsableKey (node : Node) (publicKey : Text)
    (envelope : SignedSkillPackage) (options : SkillVerificationOptions) :
    Prop where
  tenant : ∀ tenantId ∈ options.tenantId, tenantId = envelope.tenantId
  member : ∀ memberId ∈ options.memberId, memberId = envelope.memberId
  key : ∃ now, options.now = some now ∧
    keyForEnvelope node envelope options now = .ok publicKey

theorem verify_ok {node : Node} {envelope out : SignedSkillPackage}
    {options : SkillVerificationOptions} :
    verifySignedSkillPackage node envelope options = .ok out ↔
      out = envelope ∧ envelope.algorithm = lit "Ed25519" ∧
        checkPackage node.sha envelope.package = .ok () ∧
        ∃ selected signature publicKey,
          UsableKey node selected envelope options ∧
          signatureBytes envelope.signature = .ok signature ∧
          node.ed.createPublicKey (Base64.decode selected) = some publicKey ∧
          node.ed.verify publicKey
            (canonicalSignedSkillPackageBytes envelope.package
              envelope.tenantId envelope.memberId) signature = true := by
  have hscope : ∀ (option : Option Text) (value : Text),
      ¬ option.any (value != ·) = true ↔ ∀ given ∈ option, given = value := by
    intro option value
    cases option with
    | none => simp
    | some given =>
        rw [Option.any_some, bne_iff_ne, not_not]
        constructor
        · intro h other hother
          exact (Option.some.inj hother).symm.trans h.symm
        · intro h
          exact (h given rfl).symm
  rw [verifySignedSkillPackage, guard_ok, guard_ok, guard_ok, hscope, hscope,
    bne_iff_ne, not_not]
  constructor
  · rintro ⟨halgorithm, htenant, hmember, h⟩
    obtain ⟨now, hnow, h⟩ := bind_ok.mp h
    obtain ⟨selected, hselected, h⟩ := bind_ok.mp h
    obtain ⟨_, hpackage, h⟩ := bind_ok.mp h
    obtain ⟨signature, hsignature, h⟩ := bind_ok.mp h
    have hclock : options.now = some now := by
      rw [verificationNow] at hnow
      cases hoption : options.now with
      | none => rw [hoption] at hnow; cases hnow
      | some clock => rw [hoption] at hnow; cases hnow; rfl
    cases hkey : node.ed.createPublicKey (Base64.decode selected) with
    | none => rw [hkey] at h; cases h
    | some publicKey =>
        simp only [hkey] at h
        rw [guard_ok, Bool.not_eq_true', Bool.not_eq_false] at h
        exact ⟨(pure_ok.mp h.2).symm, halgorithm, hpackage, selected, signature,
          publicKey, ⟨htenant, hmember, now, hclock, hselected⟩, hsignature,
          hkey, h.1⟩
  · rintro ⟨rfl, halgorithm, hpackage, selected, signature, publicKey,
      ⟨htenant, hmember, now, hclock, hselected⟩, hsignature, hkey, hverify⟩
    refine ⟨halgorithm, htenant, hmember, ?_⟩
    refine bind_ok.mpr ⟨now, by rw [verificationNow, hclock], ?_⟩
    refine bind_ok.mpr ⟨selected, hselected, ?_⟩
    refine bind_ok.mpr ⟨(), hpackage, ?_⟩
    refine bind_ok.mpr ⟨signature, hsignature, ?_⟩
    simp only [hkey]
    rw [guard_ok, Bool.not_eq_true', Bool.not_eq_false]
    exact ⟨hverify, rfl⟩

/-! ### Both directions -/

/-- Both sides have the same bytes and hashes for the envelope, and the Agent
accepts it under the signer's key. -/
structure Agrees (node : Node) (publicKey : Text)
    (envelope : SignedSkillPackage) : Prop where
  bytes : canonicalSkillPackageBytes envelope.package envelope.tenantId
      envelope.memberId =
    .ok (canonicalSignedSkillPackageBytes (envelope.mapText utf16).package
      (envelope.mapText utf16).tenantId (envelope.mapText utf16).memberId)
  packageHash :
    envelope.package.computeContentHash node.sha =
        .ok envelope.package.contentHash ∧
      packageHash node.sha (envelope.mapText utf16).package =
        .ok (envelope.mapText utf16).package.contentHash
  fileHashes : ∀ file ∈ envelope.package.files,
    sha16 node.sha file.content = .ok file.contentHash ∧
      sha16Units node.sha (utf16 file.content) = utf16 file.contentHash
  accepted : ∀ options,
    UsableKey node publicKey (envelope.mapText utf16) options →
      verifySignedSkillPackage node (envelope.mapText utf16) options =
        .ok (envelope.mapText utf16)

theorem mapText_readable {package : SkillPackage}
    (h : package.Texts Scalar) :
    ∀ file ∈ (package.mapText utf16).files, Readable file.content := by
  rw [SkillPackage.mapText, List.forall_mem_map]
  intro file hfile
  rw [Readable, SkillFile.mapText, readable_utf16 (h.files file hfile).2.1]
  exact (h.files file hfile).2.1

theorem signed_agrees {node : Node} (hed : node.ed.Correct)
    {instant : Text → Int} {signer : SkillPackageSigner node.ed}
    {package : SkillPackage} {tenantId memberId : Text} {now : Int}
    {envelope : SignedSkillPackage}
    (hvalid : package.validate node.sha = .ok ())
    (hsign : sign node.sha instant signer package tenantId memberId now =
      .ok envelope) :
    Agrees node signer.current.publicKey envelope := by
  obtain ⟨hhashed, hhash, -, -, ⟨hmember, htexts, htenant⟩, rfl⟩ :=
    sign_ok.mp hsign
  have hbytes := canonical_bytes_agree htexts htenant hmember
  have hmessage := (encoded_ok.mp hbytes).2
  have hback : (package.mapText utf16).mapText points = package :=
    mapText_points_utf16 htexts
  have hcheck : checkPackage node.sha (package.mapText utf16) = .ok () := by
    rw [checkPackage_iff (mapText_readable htexts), hback]
    exact ⟨hhashed, hvalid⟩
  have hsignature : node.ed.sign signer.privateKey
      (utf8 (dumps (signedJson package tenantId memberId))) ≠ [] := by
    intro hnil
    have hlength := hed.sign_length signer.privateKey
      (utf8 (dumps (signedJson package tenantId memberId)))
    rw [hnil] at hlength
    cases hlength
  have halgorithm : utf16 (lit "Ed25519") = lit "Ed25519" := by decide
  refine ⟨hbytes, ⟨hhash, (checkPackage_ok.mp hcheck).2.2⟩, ?_, ?_⟩
  · intro file hfile
    obtain ⟨-, hscalar, hfileHash⟩ :=
      SkillFile.validateFile_ok.mp (((validate_ok hhashed).mp hvalid).2.1
        file hfile)
    refine ⟨sha16_ok.mpr ⟨hscalar, hfileHash⟩, ?_⟩
    exact ((checkPackage_ok.mp hcheck).2.1 _
      (List.mem_map_of_mem hfile)).symm
  · intro options hkey
    refine verify_ok.mpr ⟨rfl, halgorithm, hcheck, signer.current.publicKey,
      node.ed.sign signer.privateKey
        (utf8 (dumps (signedJson package tenantId memberId))),
      node.ed.publicKey signer.privateKey, hkey, ?_, ?_, ?_⟩
    · change signatureBytes (utf16 (Base64.encode _)) = _
      rw [utf16_plain (base64_plain _)]
      exact signatureBytes_encode hsignature
    · rw [signer.publicKey_eq, Base64.decode_encode]
      exact hed.createPublicKey_publicBytes signer.privateKey
    · rw [← hmessage]
      exact hed.verify_sign signer.privateKey _

/-- The rules of Manager for the names, the paths and their uniqueness. -/
structure ManagerRules (package : SkillPackage) : Prop where
  skillId : safeSegmentPy package.skillId "skill_id" = .ok ()
  version : safeSegmentPy package.version "version" = .ok ()
  paths : ∀ file ∈ package.files,
    normalizeSkillFilePath file.path = .ok file.path
  distinct : (package.files.map (·.path)).Nodup
  skill : ∃ file ∈ package.files, file.path = lit "SKILL.md"

theorem GoodNames.managerRules {package : SkillPackage}
    (h : GoodNames package) : ManagerRules package :=
  ⟨safeSegmentPy_ok.mpr h.skillId, safeSegmentPy_ok.mpr h.version,
    fun file hfile => normalizeSkillFilePath_ok.mpr ⟨rfl, h.paths file hfile⟩,
    h.nodup, List.mem_map.mp h.skill⟩

/-! ### The catalog -/

theorem catalogFiles_ok {sha : Sha256} {files : List CatalogFile}
    {out : List SkillFile} (h : catalogFiles sha files = .ok out) :
    ∀ file ∈ out, file.validateFile sha = .ok () := by
  induction files generalizing out with
  | nil =>
      cases h
      exact fun _ hmem => nomatch hmem
  | cons file rest ih =>
      rw [catalogFiles] at h
      obtain ⟨hash, -, h⟩ := bind_ok.mp h
      obtain ⟨_, hfile, h⟩ := bind_ok.mp h
      obtain ⟨tail, htail, h⟩ := bind_ok.mp h
      obtain rfl := pure_ok.mp h
      exact List.forall_mem_cons.mpr ⟨hfile, ih htail⟩

/-- What the catalog returns is a valid package with its hash filled in. -/
theorem catalogPackage_ok {sha : Sha256}
    {frontmatter : Text → Except Refusal Unit} {skillId version : Text}
    {files : List CatalogFile} {contentHash displayName : Text}
    {package : SkillPackage}
    (h : catalogPackage sha frontmatter skillId version files contentHash
      displayName = .ok package) :
    package.validate sha = .ok () ∧ package.contentHash ≠ [] := by
  rw [catalogPackage, guard_ok] at h
  obtain ⟨-, h⟩ := h
  obtain ⟨size, -, h⟩ := bind_ok.mp h
  rw [guard_ok] at h
  obtain ⟨-, h⟩ := h
  obtain ⟨built, hbuilt, h⟩ := bind_ok.mp h
  obtain ⟨_, hdraft, h⟩ := bind_ok.mp h
  obtain ⟨hashed, hhashed, h⟩ := bind_ok.mp h
  obtain ⟨hash, hhash, hcopy⟩ := bind_ok.mp hhashed
  obtain rfl := pure_ok.mp hcopy
  obtain ⟨hpaths, hnodup, -, rfl⟩ := SkillPackage.computeContentHash_ok.mp hhash
  rw [SkillPackage.validatePackage] at hdraft
  obtain ⟨_, hskill, hdraft⟩ := bind_ok.mp hdraft
  obtain ⟨_, hversion, hdraft⟩ := bind_ok.mp hdraft
  rw [guard_ok, Bool.not_eq_true, skill_of_any] at hdraft
  have hout : package = ⟨skillId, version,
      SkillPackage.hashOf sha
        ⟨skillId, version, contentHash, displayName, [], built⟩,
      displayName, [], built⟩ := by
    revert h
    split
    · intro h
      cases h
    · intro h
      obtain ⟨_, -, h⟩ := bind_ok.mp h
      exact (pure_ok.mp h).symm
  subst hout
  have hne : SkillPackage.hashOf sha
      ⟨skillId, version, contentHash, displayName, [], built⟩ ≠ [] :=
    hex16_ne_nil sha _
  exact ⟨(validate_ok hne).mpr ⟨⟨safeSegmentPy_ok.mp hskill,
    safeSegmentPy_ok.mp hversion, hpaths, hnodup, hdraft.1⟩,
    catalogFiles_ok hbuilt, rfl⟩, hne⟩

/-- Manager and the Agent agree on signed packages: the catalog returns valid
packages with their hash; a valid package with its hash and Unicode texts is
signed for every scope; both sides agree on whatever is signed; and what the
Agent accepts keeps Manager's rules, its hashes included where the contents
are Unicode. -/
theorem signed_packages_agree (node : Node) (hed : node.ed.Correct) :
    (∀ (frontmatter : Text → Except Refusal Unit) (skillId version : Text)
        (files : List CatalogFile) (contentHash displayName : Text)
        (package : SkillPackage),
      catalogPackage node.sha frontmatter skillId version files contentHash
          displayName = .ok package →
        package.validate node.sha = .ok () ∧ package.contentHash ≠ []) ∧
      (∀ (instant : Text → Int) (signer : SkillPackageSigner node.ed)
          (package : SkillPackage) (tenantId memberId : Text) (now : Int),
        package.validate node.sha = .ok () → package.contentHash ≠ [] →
          Scalar package.displayName → Scalar package.description →
          tenantId ≠ [] → memberId ≠ [] → Scalar tenantId → Scalar memberId →
          isUsable instant signer.current now = true →
          ∃ envelope, sign node.sha instant signer package tenantId memberId
              now = .ok envelope ∧
            envelope.package = package ∧ envelope.tenantId = tenantId ∧
            envelope.memberId = memberId) ∧
      (∀ (instant : Text → Int) (signer : SkillPackageSigner node.ed)
          (package : SkillPackage) (tenantId memberId : Text) (now : Int)
          (envelope : SignedSkillPackage),
        package.validate node.sha = .ok () →
          sign node.sha instant signer package tenantId memberId now =
              .ok envelope →
            Agrees node signer.current.publicKey envelope) ∧
      ∀ (envelope out : SignedSkillPackage)
          (options : SkillVerificationOptions),
        verifySignedSkillPackage node envelope options = .ok out →
          ManagerRules (envelope.package.mapText points) ∧
            ((∀ file ∈ envelope.package.files, Readable file.content) →
              (envelope.package.mapText points).contentHash ≠ [] ∧
                (envelope.package.mapText points).validate node.sha =
                  .ok ()) := by
  refine ⟨fun frontmatter skillId version files contentHash displayName package
    h => catalogPackage_ok h, ?_, ?_, ?_⟩
  · intro instant signer package tenantId memberId now hvalid hhashed hdisplay
      hdescription htenant hmember htenantText hmemberText husable
    obtain ⟨hnames, hfiles, hhash⟩ := (validate_ok hhashed).mp hvalid
    have hcontents : ∀ file ∈ package.files, GoodPath file.path ∧
        Scalar file.content ∧ file.contentHash = _ := fun file hfile =>
      SkillFile.validateFile_ok.mp (hfiles file hfile)
    refine ⟨signedEnvelope signer package tenantId memberId, ?_, rfl, rfl, rfl⟩
    refine sign_ok.mpr ⟨hhashed, ?_, ⟨htenant, hmember⟩, husable,
      ⟨hmemberText, ?_, htenantText⟩, rfl⟩
    · exact SkillPackage.computeContentHash_ok.mpr ⟨hnames.paths, hnames.nodup,
        fun file hfile => (hcontents file hfile).2.1, hhash⟩
    · refine ⟨hnames.skillId.plain.scalar, hnames.version.plain.scalar, ?_,
        hdisplay, hdescription, fun file hfile => ?_⟩
      · rw [hhash]
        exact (hex16_plain node.sha _).scalar
      · obtain ⟨hpath, hscalar, hfileHash⟩ := hcontents file hfile
        refine ⟨hpath.plain.scalar, hscalar, ?_⟩
        rw [hfileHash]
        exact (hex16_plain node.sha _).scalar
  · intro instant signer package tenantId memberId now envelope hvalid hsign
    exact signed_agrees hed hvalid hsign
  · intro envelope out options h
    obtain ⟨-, -, hcheck, -⟩ := verify_ok.mp h
    obtain ⟨hnames, -, -⟩ := checkPackage_ok.mp hcheck
    refine ⟨(goodNames_points.mpr hnames).managerRules, fun hcontents => ?_⟩
    exact (checkPackage_iff hcontents).mp hcheck

namespace AgreementWitness

/-- A signature repeats the start of its message. -/
def ed : Ed25519 where
  PrivateKey := Unit
  PublicKey := Unit
  sign _ message := (message ++ List.replicate 64 0).take 64
  publicKey _ := ()
  publicBytes _ := [1, 2, 3]
  createPublicKey bytes := if bytes = [1, 2, 3] then some () else none
  isEd25519 _ := true
  verify _ message signature :=
    signature == (message ++ List.replicate 64 0).take 64

theorem ed_correct : ed.Correct where
  createPublicKey_publicBytes _ := rfl
  verify_sign _ _ := BEq.rfl
  sign_length _ message := by
    simp only [ed, List.length_take, List.length_append, List.length_replicate]
    omega

def sha : Sha256 where
  digest bytes := (bytes.reverse ++ List.replicate 32 0).take 32
  digest_length bytes := by
    simp only [List.length_take, List.length_append, List.length_replicate]
    omega

def node : Node := ⟨ed, sha, fun _ => some 0, fun _ => []⟩

def signer : SkillPackageSigner ed where
  privateKey := ()
  current := ⟨lit "key-1", Base64.encode [1, 2, 3], lit "Ed25519", .current,
    none, none, none⟩
  keyId_ne := by decide
  publicKey_eq := rfl

/-- The content ends in a code point of two units. -/
def skillFile : CatalogFile := ⟨lit "SKILL.md", lit "# Review \n" ++ [0x1F50D]⟩

def reference : CatalogFile :=
  ⟨lit "references/style.md", lit "\"quoted\" \\ " ++ [0xE9]⟩

def package : SkillPackage :=
  let files := [skillFile, reference].map fun file =>
    SkillFile.mk file.path file.content (sha.hex16 (utf8 file.content))
  let draft : SkillPackage :=
    ⟨lit "review", lit "1.0", [], [0x5BA1, 0x67E5, 0x1F600], [], files⟩
  { draft with contentHash := draft.hashOf sha }

def options : SkillVerificationOptions :=
  ⟨none, none, some [signer.current], some (lit "tenant-a"),
    some (lit "member-a"), some 0, none⟩

/-- A package that is built before its hash is filled in. -/
def unhashed : SkillPackage := { package with contentHash := [] }

/-- A package whose content is a surrogate without its half, signed as the
Agent writes it. -/
def surrogate : SignedSkillPackage :=
  let file : SkillFile :=
    ⟨lit "SKILL.md", [0xD83D], sha16Units sha [0xD83D]⟩
  let hash := sha.hex16 (bufferFrom
    (write quoteUnits (filesJson [(file.path, file.content)])))
  let pkg : SkillPackage := ⟨lit "review", lit "1.0", hash, [], [], [file]⟩
  ⟨pkg, lit "tenant-a", lit "member-a", lit "key-1", lit "Ed25519",
    Base64.encode (ed.sign () (canonicalSignedSkillPackageBytes pkg
      (lit "tenant-a") (lit "member-a")))⟩

end AgreementWitness

open AgreementWitness in
/-- A reviewed package from the catalog to the Agent and back. -/
theorem signed_packages_agree_review :
    ∃ envelope : SignedSkillPackage, envelope.package = package ∧
      Agrees node signer.current.publicKey envelope ∧
      ManagerRules ((envelope.mapText utf16).package.mapText points) ∧
      verifySignedSkillPackage node (envelope.mapText utf16) options =
        .ok (envelope.mapText utf16) := by
  obtain ⟨hcatalog, hsigned, hagrees, hrules⟩ :=
    signed_packages_agree node ed_correct
  obtain ⟨hvalid, hhashed⟩ := hcatalog (fun _ => .ok ()) (lit "review")
    (lit "1.0") [skillFile, reference] [] package.displayName package
    (by decide)
  have hdisplay : Scalar package.displayName := by unfold Scalar; decide
  have hdescription : Scalar package.description := by unfold Scalar; decide
  have htenant : Scalar (lit "tenant-a") := by unfold Scalar; decide
  have hmember : Scalar (lit "member-a") := by unfold Scalar; decide
  obtain ⟨envelope, hsign, hpackage, -⟩ := hsigned (fun _ => 0) signer package
    (lit "tenant-a") (lit "member-a") 0 hvalid hhashed hdisplay hdescription
    (by decide) (by decide) htenant hmember (by decide)
  have hagree := hagrees (fun _ => 0) signer package (lit "tenant-a")
    (lit "member-a") 0 envelope hvalid hsign
  obtain ⟨-, -, -, -, -, rfl⟩ := sign_ok.mp hsign
  have haccepted := hagree.accepted options
    ⟨by decide, by decide, 0, rfl, by decide⟩
  exact ⟨_, hpackage, hagree, (hrules _ _ _ haccepted).1, haccepted⟩

open AgreementWitness in
/-- A valid package without its hash is refused, and the Agent accepts a
content that Manager cannot hash. -/
theorem unhashed_package_is_refused :
    (unhashed.validate node.sha = .ok () ∧
        verifySignedSkillPackage node
            ((@signedEnvelope node signer unhashed (lit "tenant-a")
              (lit "member-a")).mapText utf16) options =
          .error "skill package hash mismatch") ∧
      verifySignedSkillPackage node surrogate options = .ok surrogate ∧
        (surrogate.package.mapText points).validate node.sha =
          .error .unicode := by
  decide +kernel

end AiTeam.Skill
