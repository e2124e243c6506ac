/-
Avatars a member sets on this machine: they live inside the payloads the
Manager's syncs replace, in the employee's row and in its snapshot's.
-/
import AiTeam.Machine
import AiTeam.Unicode
import AiTeam.Projection.Sync

namespace AiTeam.Projection

open Unicode (lit)

/-! ### Setting an avatar -/

def imageMimes : List String :=
  ["image/gif", "image/jpeg", "image/png", "image/webp"]

/-- `MAX_LOCAL_FILE_BYTES`. -/
def maxLocalFileBytes : Nat := 5 * 1024 * 1024

/-- `toString("ascii")`, which drops the highest bit. -/
def ascii (bytes : List UInt8) : List Nat := bytes.map fun b => b.toNat % 128

def hasImageSignature (mimeType : String) (data : List UInt8) : Bool :=
  if mimeType = "image/png" then
    data.take 8 = [0x89, 0x50, 0x4E, 0x47, 0x0D, 0x0A, 0x1A, 0x0A]
  else if mimeType = "image/jpeg" then data.take 3 = [0xFF, 0xD8, 0xFF]
  else if mimeType = "image/gif" then
    ascii (data.take 6) = lit "GIF87a" || ascii (data.take 6) = lit "GIF89a"
  else if mimeType = "image/webp" then
    12 ≤ data.length && ascii (data.take 4) = lit "RIFF" &&
      ascii ((data.drop 8).take 4) = lit "WEBP"
  else false

/-- The characters `encodeURIComponent` leaves: letters, digits and these. -/
def unreserved (c : Char) : Bool :=
  c.isAlphanum ||
    [0x2D, 0x5F, 0x2E, 0x21, 0x7E, 0x2A, 0x27, 0x28, 0x29].contains c.toNat

def upperHex (d : Nat) : Char := Char.ofNat (if d < 10 then 48 + d else 55 + d)

def encodeURIComponent (text : String) : String :=
  String.ofList (text.toList.flatMap fun c =>
    if unreserved c then [c]
    else (String.utf8EncodeChar c).flatMap fun b =>
      [Char.ofNat 37, upperHex (b.toNat / 16), upperHex (b.toNat % 16)])

/-- What an update writes into both payloads. -/
structure LocalAvatar where
  url : String
  path : String
  mimeType : String
  version : Int
  url_ne : url ≠ ""
  path_ne : path ≠ ""
deriving DecidableEq

def LocalAvatar.fields (avatar : LocalAvatar) : Fields :=
  [("avatar_url", .str avatar.url), (avatarSourceField, .str "local"),
    (localAvatarUrlField, .str avatar.url),
    (localAvatarPathField, .str avatar.path),
    (localAvatarMimeField, .str avatar.mimeType),
    (localAvatarVersionField, .integer avatar.version)]

/-- The arguments of an update with the id drawn for its file, the clock and
whether the file could be written. -/
structure AvatarUpload where
  key : ProjectionKey
  data : List UInt8
  mimeType : String
  avatarId : String
  now : String
  fileWritten : Bool
deriving DecidableEq

inductive LocalEmployeeAvatarUpdate where
  | notFound
  | updated (avatar : LocalAvatar)
  | threw
deriving DecidableEq

theorem append_ne_empty_right {text rest : String} (h : rest ≠ "") :
    text ++ rest ≠ "" := by
  intro hempty
  apply h
  exact (String.append_eq_empty_iff.mp hempty).2

/-- `Number.isInteger(version) ? version + 1 : 1`. -/
def nextVersion : Value → Int
  | .integer version => version + 1
  | _ => 1

def AvatarUpload.avatar (upload : AvatarUpload) (current : Fields) :
    LocalAvatar where
  url := "/api/agent/employees/" ++ encodeURIComponent upload.key.id ++
    "/avatar/content"
  path := upload.avatarId ++ ".img"
  mimeType := upload.mimeType
  version := nextVersion (property localAvatarVersionField current)
  url_ne := append_ne_empty_right (by decide)
  path_ne := append_ne_empty_right (by decide)

/-- `UPDATE ... SET projection_json = ?` of a row, or what throws before. -/
def withAvatar (accepts : Accepts) (key : ProjectionKey) (avatar : LocalAvatar) :
    ProjectionJson → Option ProjectionJson
  | .malformed => none
  | .object fields => encoded accepts key (spread fields avatar.fields)

def ExpertRow.active (key : ProjectionKey) (row : ExpertRow) : Bool :=
  row.key = key && !row.revoked

/-- The statements after `BEGIN IMMEDIATE`; `none` when one throws. -/
def writeAvatar (accepts : Accepts) (upload : AvatarUpload)
    (avatar : LocalAvatar) (json : ProjectionJson) (store : Store) :
    Store × Bool :=
  match withAvatar accepts upload.key avatar json with
  | none => (store, false)
  | some expertJson =>
      let written :=
        { store with
          experts := updateWhere (ExpertRow.active upload.key)
            (fun row =>
              { row with projectionJson := expertJson, syncedAt := upload.now })
            store.experts }
      match lookup SnapshotRow.key upload.key written.snapshots with
      | none => (written, true)
      | some snapshot =>
          match withAvatar accepts upload.key avatar
              snapshot.projectionJson with
          | none => (written, false)
          | some snapshotJson =>
              ({ written with
                  snapshots := updateWhere
                    (fun row => row.key = upload.key)
                    (fun row =>
                      { row with
                        projectionJson := snapshotJson
                        syncedAt := upload.now })
                    written.snapshots },
                true)

def updateEmployeeAvatar (accepts : Accepts) (store : Store)
    (upload : AvatarUpload) : Store × LocalEmployeeAvatarUpdate :=
  if !imageMimes.contains upload.mimeType ||
      !hasImageSignature upload.mimeType upload.data ||
      upload.data.isEmpty || maxLocalFileBytes < upload.data.length then
    (store, .notFound)
  else
    match store.experts.find? (ExpertRow.active upload.key) with
    | none => (store, .notFound)
    | some row =>
        match row.projectionJson with
        | .malformed => (store, .threw)
        | .object current =>
            if upload.fileWritten then
              match writeAvatar accepts upload (upload.avatar current)
                  row.projectionJson store with
              | (written, true) =>
                  (written, .updated (upload.avatar current))
              | (_, false) => (store, .threw)
            else (store, .threw)

/-! ### What the payloads show of it -/

/-- The four local fields and the avatar they make the payload use, or none of
them. -/
def Shows : Option LocalAvatar → Fields → Prop
  | none, fields => ∀ name ∈ localAvatarFields, valueAt name fields = none
  | some avatar, fields =>
      ∀ field ∈ avatar.fields, valueAt field.1 fields = some field.2

def Carries (avatar : Option LocalAvatar) (json : ProjectionJson) : Prop :=
  ∃ fields, json = .object fields ∧ Shows avatar fields

theorem LocalAvatar.mem_fields {avatar : LocalAvatar} {field : String × Value} :
    field ∈ avatar.fields ↔
      field = ("avatar_url", .str avatar.url) ∨
        field = (avatarSourceField, .str "local") ∨
        field = (localAvatarUrlField, .str avatar.url) ∨
        field = (localAvatarPathField, .str avatar.path) ∨
        field = (localAvatarMimeField, .str avatar.mimeType) ∨
        field = (localAvatarVersionField, .integer avatar.version) := by
  simp only [LocalAvatar.fields, List.mem_cons, List.not_mem_nil, or_false]

theorem Shows.property {avatar : LocalAvatar} {fields : Fields}
    (h : Shows (some avatar) fields) {name : String} {value : Value}
    (hfield : (name, value) ∈ avatar.fields) :
    property name fields = value := by
  rw [AiTeam.Projection.property, h (name, value) hfield]
  rfl

section

variable {name : String} {keep : String × Value → Bool}

theorem valueAt_filter_none {fields : Fields}
    (h : valueAt name fields = none) :
    valueAt name (fields.filter keep) = none := by
  rw [valueAt, Option.map_eq_none_iff, lookup, List.find?_eq_none] at h ⊢
  intro field hfield
  exact h field (List.mem_filter.mp hfield).1

theorem valueAt_filter_some {fields : Fields} {value : Value}
    (h : valueAt name fields = some value) (hkeep : keep (name, value) = true) :
    valueAt name (fields.filter keep) = some value := by
  have hfound := lookup_of_valueAt h
  clear h
  rw [valueAt, Option.map_eq_some_iff]
  refine ⟨(name, value), ?_, rfl⟩
  induction fields with
  | nil => cases hfound
  | cons head tail ih =>
      simp only [lookup, List.find?_cons] at hfound ih ⊢
      by_cases hname : head.1 = name
      · simp only [hname, decide_true] at hfound
        cases hfound
        simp [hkeep]
      · simp only [hname, decide_false] at hfound
        by_cases hhead : keep head = true
        · simpa [hhead, hname] using ih hfound
        · simpa [hhead] using ih hfound

end

theorem Shows.stringify {avatar : Option LocalAvatar} {fields json : Fields}
    (h : Shows avatar fields) (hjson : stringify fields = some json) :
    Shows avatar json := by
  rw [AiTeam.Projection.stringify] at hjson
  split at hjson
  · exact nomatch hjson
  · rw [← Option.some.inj hjson]
    cases avatar with
    | none => exact fun name hname => valueAt_filter_none (h name hname)
    | some avatar =>
        intro field hfield
        apply valueAt_filter_some (h field hfield)
        rw [LocalAvatar.mem_fields] at hfield
        rcases hfield with rfl | rfl | rfl | rfl | rfl | rfl <;> rfl

variable {json : ProjectionJson} {written : Store}

theorem Shows.encoded {avatar : Option LocalAvatar} {fields : Fields}
    {accepts : Accepts} {key : ProjectionKey} (h : Shows avatar fields)
    (hjson : encoded accepts key fields = some json) : Carries avatar json := by
  rw [AiTeam.Projection.encoded] at hjson
  split at hjson
  · next written hwritten =>
      split at hjson
      · exact ⟨written, (Option.some.inj hjson).symm, h.stringify hwritten⟩
      · cases hjson
  · cases hjson

/-- The update itself. -/
theorem shows_spread (avatar : LocalAvatar) (fields : Fields) :
    Shows (some avatar) (spread fields avatar.fields) := by
  intro field hfield
  rw [LocalAvatar.mem_fields] at hfield
  rcases hfield with rfl | rfl | rfl | rfl | rfl | rfl <;>
    simp [LocalAvatar.fields, spread, valueAt_assign, avatarSourceField,
      localAvatarUrlField, localAvatarPathField, localAvatarMimeField,
      localAvatarVersionField]

/-- No local field of a Manager payload gets through. -/
theorem valueAt_managerFields {name : String} (h : name ∈ localAvatarFields)
    (existing incoming : Fields) :
    valueAt name (managerFields existing incoming) = none := by
  simp only [managerFields, localAvatarFields, List.foldl_cons,
    List.foldl_nil, valueAt_discard]
  simp only [localAvatarFields, List.mem_cons, List.not_mem_nil,
    or_false] at h
  rcases h with rfl | rfl | rfl | rfl <;> simp

theorem filled_str {text : String} (h : text ≠ "") :
    (Value.str text).filled = some text := if_neg h

theorem localOverride_none {fields : Fields} (h : Shows none fields) :
    localOverride fields = none := by
  have hpath : property localAvatarPathField fields = .undefined := by
    rw [property, h localAvatarPathField (by simp [localAvatarFields])]
    rfl
  rw [localOverride, hpath]
  rfl

theorem localOverride_some {avatar : LocalAvatar} {fields : Fields}
    (h : Shows (some avatar) fields) :
    localOverride fields = some (avatar.path, avatar.url) := by
  have hpath : property localAvatarPathField fields = .str avatar.path :=
    h.property (by simp [LocalAvatar.mem_fields])
  have hurl : property localAvatarUrlField fields = .str avatar.url :=
    h.property (by simp [LocalAvatar.mem_fields])
  have hsource : property avatarSourceField fields = .str "local" :=
    h.property (by simp [LocalAvatar.mem_fields])
  rw [localOverride, hpath, hurl, filled_str avatar.path_ne,
    filled_str avatar.url_ne]
  simp [hsource]

/-- What a merge starts from: the row of before, or none. -/
def CarriesOr (avatar : Option LocalAvatar) : Option ProjectionJson → Prop
  | some json => Carries avatar json
  | none => avatar = none

theorem shows_merge {avatar : Option LocalAvatar}
    {existing : Option ProjectionJson} (h : CarriesOr avatar existing)
    (incoming : Fields) :
    Shows avatar (mergeAvatarProjection existing incoming) := by
  have hfields : Shows avatar (existingFields existing) := by
    cases existing with
    | none =>
        rw [h]
        exact fun name _ => rfl
    | some json =>
        obtain ⟨fields, rfl, hshows⟩ := h
        exact hshows
  cases avatar with
  | none =>
      rw [mergeAvatarProjection]
      simp only [localOverride_none hfields]
      intro name hname
      rw [valueAt_assign, if_neg, valueAt_managerFields hname]
      rintro rfl
      exact absurd hname (by decide)
  | some avatar =>
      rw [mergeAvatarProjection]
      simp only [localOverride_some hfields]
      have hmime : property localAvatarMimeField (existingFields existing) =
          .str avatar.mimeType :=
        hfields.property (by simp [LocalAvatar.mem_fields])
      have hversion :
          property localAvatarVersionField (existingFields existing) =
            .integer avatar.version :=
        hfields.property (by simp [LocalAvatar.mem_fields])
      rw [hmime, hversion]
      intro field hfield
      rw [LocalAvatar.mem_fields] at hfield
      rcases hfield with rfl | rfl | rfl | rfl | rfl | rfl <;>
        simp [spread, valueAt_assign, avatarSourceField,
          localAvatarUrlField, localAvatarPathField, localAvatarMimeField,
          localAvatarVersionField]

/-! ### Runs -/

inductive AvatarStep where
  | updateEmployeeAvatar (accepts : Accepts) (upload : AvatarUpload)
  | replaceProjections (accepts : Accepts) (pull : Pull) (owner : Option Owner)
      (now : String)

inductive AvatarEvent where
  | updated (key : ProjectionKey) (avatar : LocalAvatar)
  | retired (key : ProjectionKey)
deriving DecidableEq

/-- The member-less rows a sync with an owner retires. -/
def retiredKeys (pull : Pull) : Option Owner → List ProjectionKey
  | some owner =>
      (superseded pull owner).map fun id => ⟨id, owner.tenantId, ""⟩
  | none => []

def avatarMachine : Machine Store AvatarStep AvatarEvent where
  step store
    | .updateEmployeeAvatar accepts upload =>
        match updateEmployeeAvatar accepts store upload with
        | (written, .updated avatar) => (written, [.updated upload.key avatar])
        | (written, _) => (written, [])
    | .replaceProjections accepts pull owner now =>
        match replaceProjections accepts store pull owner now with
        | (written, some _) =>
            (written, (retiredKeys pull owner).map AvatarEvent.retired)
        | (written, none) => (written, [])

/-- The avatar of the last update of a key. -/
def lastUpdate (key : ProjectionKey) (avatar : Option LocalAvatar) :
    List AvatarEvent → Option LocalAvatar
  | [] => avatar
  | .updated other latest :: rest =>
      lastUpdate key (if other = key then some latest else avatar) rest
  | .retired _ :: rest => lastUpdate key avatar rest

/-- The avatar of the last update since the row of the key was retired. -/
def currentAvatar (key : ProjectionKey) (avatar : Option LocalAvatar) :
    List AvatarEvent → Option LocalAvatar
  | [] => avatar
  | .updated other latest :: rest =>
      currentAvatar key (if other = key then some latest else avatar) rest
  | .retired other :: rest =>
      currentAvatar key (if other = key then none else avatar) rest

theorem currentAvatar_append (key : ProjectionKey)
    (avatar : Option LocalAvatar) (past new : List AvatarEvent) :
    currentAvatar key avatar (past ++ new) =
      currentAvatar key (currentAvatar key avatar past) new := by
  induction past generalizing avatar with
  | nil => rfl
  | cons event rest ih => cases event <;> exact ih _

/-- Both tables show the avatars as they are now. -/
structure Kept (avatars : ProjectionKey → Option LocalAvatar)
    (store : Store) : Prop where
  keyed : Keyed ExpertRow.key store.experts
  experts : ∀ row ∈ store.experts, Carries (avatars row.key) row.projectionJson
  snapshots : ∀ row ∈ store.snapshots,
    Carries (avatars row.key) row.projectionJson
  known : ∀ key, avatars key ≠ none → ∃ row ∈ store.experts, row.key = key

theorem kept_empty :
    Kept (fun key => currentAvatar key none []) ⟨[], [], []⟩ where
  keyed := Keyed.nil ExpertRow.key
  experts := fun _ hrow => nomatch hrow
  snapshots := fun _ hrow => nomatch hrow
  known := fun _ h => absurd rfl h

section

variable {avatars : ProjectionKey → Option LocalAvatar} {store next : Store}
  {accepts : Accepts} {now : String}

section

variable (h : Kept avatars store)
include h

theorem Kept.expertJson (key : ProjectionKey) :
    CarriesOr (avatars key) (store.expertJson key) := by
  rw [Store.expertJson]
  cases hrow : lookup ExpertRow.key key store.experts with
  | some row =>
      have hcarries := h.experts row (lookup_mem hrow)
      rw [lookup_key hrow] at hcarries
      exact hcarries
  | none =>
      by_contra hknown
      obtain ⟨row, hmem, hkey⟩ := h.known key hknown
      rw [lookup, List.find?_eq_none] at hrow
      exact hrow row hmem (decide_eq_true hkey)

theorem Kept.snapshotJson (key : ProjectionKey) :
    CarriesOr (avatars key)
      ((store.snapshotJson key).or (store.expertJson key)) := by
  rw [Store.snapshotJson]
  cases hrow : lookup SnapshotRow.key key store.snapshots with
  | some row =>
      have hcarries := h.snapshots row (lookup_mem hrow)
      rw [lookup_key hrow] at hcarries
      exact hcarries
  | none => exact h.expertJson key

theorem Kept.upsertExpert {expert : LoadedExpertProjection}
    (hnext : upsertExpert accepts now expert store = some next) :
    Kept avatars next := by
  obtain ⟨json, hjson, rfl⟩ := Option.map_eq_some_iff.mp hnext
  constructor
  · exact h.keyed.upsert _
  · intro row hrow
    rcases mem_upsert hrow with rfl | ⟨hold, _⟩
    · exact (shows_merge (h.expertJson expert.key) _).encoded hjson
    · exact h.experts row hold
  · exact h.snapshots
  · intro key hkey
    obtain ⟨row, hmem, rfl⟩ := h.known key hkey
    by_cases hsame : row.key = expert.key
    · exact ⟨_, mem_upsert_self _ _ _, hsame.symm⟩
    · exact ⟨row, mem_upsert_of_ne hmem hsame, rfl⟩

theorem Kept.upsertSolution {solution : LoadedSolutionProjection}
    (hnext : upsertSolution accepts now solution store = some next) :
    Kept avatars next := by
  obtain ⟨json, _, rfl⟩ := Option.map_eq_some_iff.mp hnext
  exact ⟨h.keyed, h.experts, h.snapshots, h.known⟩

theorem Kept.upsertSnapshot {snapshot : FrozenSnapshot}
    (hnext : upsertSnapshot accepts now snapshot store = some next) :
    Kept avatars next := by
  obtain ⟨json, hjson, rfl⟩ := Option.map_eq_some_iff.mp hnext
  refine ⟨h.keyed, h.experts, ?_, h.known⟩
  intro row hrow
  rcases mem_upsert hrow with rfl | ⟨hold, _⟩
  · exact (shows_merge (h.snapshotJson snapshot.key) _).encoded hjson
  · exact h.snapshots row hold

/-- A revoked employee's row stays with its avatar, its snapshot goes. -/
theorem Kept.revoke (owner : Option Owner) (id : String) :
    Kept avatars (revoke owner now store id) := by
  constructor
  · apply h.keyed.updateWhere
    exact fun row => rfl
  · intro row hrow
    obtain ⟨old, hold, rfl⟩ := List.mem_map.mp hrow
    have hcarries := h.experts old hold
    split
    · exact hcarries
    · exact hcarries
  · exact fun row hrow => h.snapshots row (List.mem_filter.mp hrow).1
  · intro key hkey
    obtain ⟨row, hmem, rfl⟩ := h.known key hkey
    refine ⟨_, List.mem_map.mpr ⟨row, hmem, rfl⟩, ?_⟩
    split
    · rfl
    · rfl

theorem Kept.removeLegacy (owner : Owner) (id : String) :
    Kept (fun key => if ⟨id, owner.tenantId, ""⟩ = key then none
        else avatars key) (removeLegacy owner store id) := by
  constructor
  · exact h.keyed.filter _
  · intro row hrow
    obtain ⟨hmem, hkey⟩ := List.mem_filter.mp hrow
    rw [if_neg (Ne.symm (of_decide_eq_true hkey))]
    exact h.experts row hmem
  · intro row hrow
    obtain ⟨hmem, hkey⟩ := List.mem_filter.mp hrow
    rw [if_neg (Ne.symm (of_decide_eq_true hkey))]
    exact h.snapshots row hmem
  · intro key hkey
    by_cases hlegacy : (⟨id, owner.tenantId, ""⟩ : ProjectionKey) = key
    · rw [if_pos hlegacy] at hkey
      exact absurd rfl hkey
    · rw [if_neg hlegacy] at hkey
      obtain ⟨row, hmem, rfl⟩ := h.known key hkey
      have hkeep := decide_eq_true (Ne.symm hlegacy)
      exact ⟨row, List.mem_filter.mpr ⟨hmem, hkeep⟩, rfl⟩

theorem Kept.clearLegacy (pull : Pull) (owner : Option Owner) :
    Kept (fun key => currentAvatar key (avatars key)
        ((retiredKeys pull owner).map AvatarEvent.retired))
      (clearLegacy pull owner store) := by
  cases owner with
  | none => exact h
  | some owner =>
      rw [AiTeam.Projection.clearLegacy, retiredKeys, List.map_map]
      induction superseded pull owner generalizing avatars store with
      | nil => exact h
      | cons id rest ih => exact ih (h.removeLegacy owner id)

/-- The avatars after a committed sync are those of before but for the rows
that were retired. -/
theorem Kept.replaceProjectionRows {pull : Pull} {owner : Option Owner}
    {result : SyncResult}
    (hrows : replaceProjectionRows accepts store pull owner now =
      (written, some result)) :
    Kept (fun key => currentAvatar key (avatars key)
      ((retiredKeys pull owner).map AvatarEvent.retired)) written := by
  have hcleared := h.clearLegacy pull owner
  generalize (fun key => currentAvatar key (avatars key)
    ((retiredKeys pull owner).map AvatarEvent.retired)) = current at hcleared ⊢
  have hkeeps : Kept current (AiTeam.Projection.clearLegacy pull owner store) →
      Kept current written := by
    apply replaceProjectionRows_keeps
      (fun a b => Kept current a → Kept current b) ?_ ?_ ?_ ?_ ?_ ?_ hrows
    · exact fun _ h => h
    · exact fun hab hbc h => hbc (hab h)
    · exact fun _ _ _ _ hnext h => h.upsertExpert hnext
    · exact fun _ _ _ _ hnext h => h.upsertSolution hnext
    · exact fun _ _ _ _ hnext h => h.upsertSnapshot hnext
    · exact fun _ id h => h.revoke owner id
  exact hkeeps hcleared

end

theorem carries_withAvatar {key : ProjectionKey} {avatar : LocalAvatar}
    {new : ProjectionJson} (h : withAvatar accepts key avatar json = some new) :
    Carries (some avatar) new := by
  cases json with
  | malformed => exact nomatch h
  | object fields => exact (shows_spread avatar fields).encoded h

/-- A row of the key, or one that is as it was. -/
theorem carries_updateWhere {R : Type} {key : R → ProjectionKey}
    {json : R → ProjectionJson} {rows : List R} {target : ProjectionKey}
    {avatar : LocalAvatar} {guard : R → Bool} {change : R → R}
    (hrows : ∀ row ∈ rows, Carries (avatars (key row)) (json row))
    (hguard : ∀ row ∈ rows, guard row = true ↔ key row = target)
    (hkey : ∀ row, key (change row) = key row)
    (hjson : ∀ row, Carries (some avatar) (json (change row))) :
    ∀ row ∈ updateWhere guard change rows,
      Carries (if target = key row then some avatar else avatars (key row))
        (json row) := by
  intro row hrow
  obtain ⟨old, hold, rfl⟩ := List.mem_map.mp hrow
  by_cases hold_guard : guard old = true
  · have htarget := (hguard old hold).mp hold_guard
    rw [if_pos hold_guard, hkey, if_pos htarget.symm]
    exact hjson old
  · have htarget : target ≠ key old := fun h =>
      hold_guard ((hguard old hold).mpr h.symm)
    rw [if_neg hold_guard, if_neg htarget]
    exact hrows old hold

/-- The rows an update has written. -/
theorem writeAvatar_cases {upload : AvatarUpload} {avatar : LocalAvatar}
    (h : writeAvatar accepts upload avatar json store = (written, true)) :
    ∃ expertJson, Carries (some avatar) expertJson ∧
      written.experts = updateWhere (ExpertRow.active upload.key)
        (fun row =>
          { row with projectionJson := expertJson, syncedAt := upload.now })
        store.experts ∧
      ((lookup SnapshotRow.key upload.key store.snapshots = none ∧
          written.snapshots = store.snapshots) ∨
        ∃ snapshotJson, Carries (some avatar) snapshotJson ∧
          written.snapshots = updateWhere
            (fun row => row.key = upload.key)
            (fun row =>
              { row with
                projectionJson := snapshotJson
                syncedAt := upload.now })
            store.snapshots) := by
  rw [writeAvatar] at h
  split at h
  · cases h
  · next expertJson hexpert =>
      refine ⟨expertJson, carries_withAvatar hexpert, ?_⟩
      dsimp only at h
      split at h
      · next hnone =>
          cases h
          exact ⟨rfl, Or.inl ⟨hnone, rfl⟩⟩
      · next snapshot hsnapshot =>
          split at h
          · cases h
          · next snapshotJson hjson =>
              cases h
              exact ⟨rfl, Or.inr ⟨snapshotJson, carries_withAvatar hjson, rfl⟩⟩

theorem updateEmployeeAvatar_cases (accepts : Accepts) (store : Store)
    (upload : AvatarUpload) :
    (∃ outcome, updateEmployeeAvatar accepts store upload = (store, outcome) ∧
        ∀ avatar, outcome ≠ .updated avatar) ∨
      ∃ row avatar written,
        store.experts.find? (ExpertRow.active upload.key) = some row ∧
        writeAvatar accepts upload avatar row.projectionJson store =
          (written, true) ∧
        updateEmployeeAvatar accepts store upload =
          (written, .updated avatar) := by
  rw [updateEmployeeAvatar]
  split
  · exact Or.inl ⟨.notFound, rfl, fun _ => nofun⟩
  · split
    · exact Or.inl ⟨.notFound, rfl, fun _ => nofun⟩
    · next row hrow =>
        split
        · exact Or.inl ⟨.threw, rfl, fun _ => nofun⟩
        · next current hcurrent =>
            split
            · split
              · next written hwritten =>
                  exact Or.inr ⟨row, upload.avatar current, written, hrow,
                    hwritten, rfl⟩
              · exact Or.inl ⟨.threw, rfl, fun _ => nofun⟩
            · exact Or.inl ⟨.threw, rfl, fun _ => nofun⟩

/-- Both rows of the employee show the avatar of the update. -/
theorem Kept.writeAvatar {upload : AvatarUpload} {avatar : LocalAvatar}
    {row : ExpertRow} (h : Kept avatars store)
    (hrow : store.experts.find? (ExpertRow.active upload.key) = some row)
    (hwrite : writeAvatar accepts upload avatar row.projectionJson store =
      (written, true)) :
    Kept (fun key => if upload.key = key then some avatar else avatars key)
      written := by
  obtain ⟨expertJson, hexpert, hexperts, hsnapshots⟩ :=
    writeAvatar_cases hwrite
  have hactive := List.find?_some hrow
  rw [ExpertRow.active, Bool.and_eq_true, decide_eq_true_eq] at hactive
  have hmem := List.mem_of_find?_eq_some hrow
  constructor
  · rw [hexperts]
    apply h.keyed.updateWhere
    exact fun row => rfl
  · rw [hexperts]
    apply carries_updateWhere h.experts
    · intro other hother
      rw [ExpertRow.active, Bool.and_eq_true, decide_eq_true_eq]
      refine ⟨fun hguard => hguard.1, fun hkey => ?_⟩
      -- the table has one row of the key, and it is the active one
      have hsame := h.keyed.eq_of_key hother hmem (hkey.trans hactive.1.symm)
      rw [hsame]
      exact hactive
    · exact fun row => rfl
    · exact fun row => hexpert
  · rcases hsnapshots with ⟨hnone, hsame⟩ | ⟨snapshotJson, hcarries, hsame⟩
    · rw [hsame]
      intro snapshot hsnapshot
      rw [lookup, List.find?_eq_none] at hnone
      have hkey := hnone snapshot hsnapshot
      rw [decide_eq_true_eq] at hkey
      rw [if_neg (Ne.symm hkey)]
      exact h.snapshots snapshot hsnapshot
    · rw [hsame]
      apply carries_updateWhere h.snapshots
      · exact fun row _ => decide_eq_true_iff
      · exact fun row => rfl
      · exact fun row => hcarries
  · intro key hkey
    have hknown : ∃ row ∈ store.experts, row.key = key := by
      by_cases hsame : upload.key = key
      · exact ⟨row, hmem, hactive.1.trans hsame⟩
      · rw [if_neg hsame] at hkey
        exact h.known key hkey
    obtain ⟨known, hknown, rfl⟩ := hknown
    rw [hexperts]
    refine ⟨_, List.mem_map.mpr ⟨known, hknown, rfl⟩, ?_⟩
    split
    · rfl
    · rfl

end

theorem Kept.step {past : List AvatarEvent} {store : Store}
    (h : Kept (fun key => currentAvatar key none past) store)
    (step : AvatarStep) :
    Kept (fun key => currentAvatar key none
        (past ++ avatarMachine.emit store step))
      (avatarMachine.next store step) := by
  simp only [currentAvatar_append]
  cases step with
  | updateEmployeeAvatar accepts upload =>
      rcases updateEmployeeAvatar_cases accepts store upload with
        ⟨outcome, hsame, hnot⟩ | ⟨row, avatar, written, hrow, hwrite, hdone⟩
      · simp only [Machine.emit, Machine.next, avatarMachine, hsame]
        cases outcome with
        | notFound => exact h
        | threw => exact h
        | updated avatar => exact absurd rfl (hnot avatar)
      · simp only [Machine.emit, Machine.next, avatarMachine, hdone]
        exact h.writeAvatar hrow hwrite
  | replaceProjections accepts pull owner now =>
      simp only [Machine.emit, Machine.next, avatarMachine,
        replaceProjections]
      rcases hrows : AiTeam.Projection.replaceProjectionRows accepts store
        pull owner now with ⟨written, _ | result⟩
      · exact h
      · exact h.replaceProjectionRows hrows

/-- Only member-less rows are ever retired. -/
theorem retired_memberless (store : Store) (step : AvatarStep) :
    ∀ key, .retired key ∈ avatarMachine.emit store step →
      key.memberId = "" := by
  intro key hkey
  cases step with
  | updateEmployeeAvatar accepts upload =>
      simp only [Machine.emit, avatarMachine] at hkey
      split at hkey
      · exact nomatch List.mem_singleton.mp hkey
      · exact nomatch hkey
  | replaceProjections accepts pull owner now =>
      simp only [Machine.emit, avatarMachine] at hkey
      split at hkey
      · cases owner with
        | none => exact nomatch hkey
        | some owner =>
            simp only [retiredKeys, List.map_map, List.mem_map,
              Function.comp_apply, AvatarEvent.retired.injEq] at hkey
            obtain ⟨id, _, rfl⟩ := hkey
            rfl
      · exact nomatch hkey

theorem retired_memberless_run (store : Store) (steps : List AvatarStep) :
    ∀ key, .retired key ∈ avatarMachine.trace store steps →
      key.memberId = "" := by
  induction steps generalizing store with
  | nil => exact fun key hkey => nomatch hkey
  | cons step rest ih =>
      intro key hkey
      rcases List.mem_append.mp hkey with hhead | htail
      · exact retired_memberless store step key hhead
      · exact ih _ key htail

theorem lastUpdate_append (key : ProjectionKey) (avatar : Option LocalAvatar)
    (past new : List AvatarEvent) :
    lastUpdate key avatar (past ++ new) =
      lastUpdate key (lastUpdate key avatar past) new := by
  induction past generalizing avatar with
  | nil => rfl
  | cons event rest ih => cases event <;> exact ih _

/-- No sync is an update, whatever its payloads hold. -/
theorem lastUpdate_sync (key : ProjectionKey) (avatar : Option LocalAvatar)
    (store : Store) (accepts : Accepts) (pull : Pull) (owner : Option Owner)
    (now : String) :
    lastUpdate key avatar
      (avatarMachine.emit store (.replaceProjections accepts pull owner now)) =
        avatar := by
  simp only [Machine.emit, avatarMachine]
  split
  · induction retiredKeys pull owner with
    | nil => rfl
    | cons head tail ih => exact ih
  · rfl

theorem currentAvatar_eq_lastUpdate {key : ProjectionKey}
    (hmember : key.memberId ≠ "") {events : List AvatarEvent}
    (hevents : ∀ other, .retired other ∈ events → other.memberId = "")
    (avatar : Option LocalAvatar) :
    currentAvatar key avatar events = lastUpdate key avatar events := by
  induction events generalizing avatar with
  | nil => rfl
  | cons event rest ih =>
      have hrest := fun other hother =>
        hevents other (List.mem_cons_of_mem event hother)
      cases event with
      | updated other latest => exact ih hrest _
      | retired other =>
          have hother : other ≠ key := by
            rintro rfl
            exact hmember (hevents other List.mem_cons_self)
          rw [currentAvatar, lastUpdate, if_neg hother]
          exact ih hrest avatar

/-- After any updates and syncs, whatever the Manager sends, the employee's
row and its snapshot's show the avatar of the last local update of the
member's employee, and none when there was no update; a sync is no update.
For a row without a member it is the last one since a member's sync retired
the row. -/
theorem local_avatar_kept (steps : List AvatarStep) (key : ProjectionKey) :
    let store := avatarMachine.run ⟨[], [], []⟩ steps
    let avatar := currentAvatar key none
      (avatarMachine.trace ⟨[], [], []⟩ steps)
    (∀ row ∈ store.experts, row.key = key →
        Carries avatar row.projectionJson) ∧
      (∀ row ∈ store.snapshots, row.key = key →
        Carries avatar row.projectionJson) ∧
      (key.memberId ≠ "" → avatar = lastUpdate key none
        (avatarMachine.trace ⟨[], [], []⟩ steps)) ∧
      ∀ accepts pull owner now,
        lastUpdate key none (avatarMachine.trace ⟨[], [], []⟩
            (steps ++ [.replaceProjections accepts pull owner now])) =
          lastUpdate key none (avatarMachine.trace ⟨[], [], []⟩ steps) := by
  have hkept := avatarMachine.invariant
    (fun store events => Kept (fun key => currentAvatar key none events) store)
    (fun _ _ step h => h.step step) steps kept_empty
  simp only [List.nil_append] at hkept
  refine ⟨?_, ?_, ?_, ?_⟩
  · rintro row hrow rfl
    exact hkept.experts row hrow
  · rintro row hrow rfl
    exact hkept.snapshots row hrow
  · intro hmember
    exact currentAvatar_eq_lastUpdate hmember
      (retired_memberless_run _ steps) none
  · intro accepts pull owner now
    rw [Machine.trace_append, lastUpdate_append, Machine.trace, Machine.trace,
      List.append_nil]
    exact lastUpdate_sync key _ _ accepts pull owner now

namespace AvatarWitness

def now : String := "2026-09-06T00:00:00Z"

def accepts : Accepts := fun _ _ => true

/-- A row from before the employees had members. -/
def key : ProjectionKey := ⟨"e1", "t1", ""⟩

def expert : LoadedExpertProjection where
  employeeId := "e1"
  tenantId := "t1"
  memberId := none
  version := "1"
  syncedAt := none
  rest := []

def upload : AvatarUpload where
  key := key
  data := [0x89, 0x50, 0x4E, 0x47, 0x0D, 0x0A, 0x1A, 0x0A]
  mimeType := "image/png"
  avatarId := "a"
  now := now
  fileWritten := true

def steps : List AvatarStep :=
  [.replaceProjections accepts ⟨[expert], [], [], []⟩ none now,
    .updateEmployeeAvatar accepts upload,
    .replaceProjections accepts ⟨[], [], [], ["e1"]⟩ (some ⟨"t1", "m1"⟩) now,
    .replaceProjections accepts ⟨[expert], [], [], []⟩ none now]

end AvatarWitness

open AvatarWitness in
/-- The member-less row is cleaned up with its avatar, and comes back without
it. -/
theorem memberless_avatar_retired :
    (lastUpdate key none (avatarMachine.trace ⟨[], [], []⟩ steps)).isSome ∧
      ∃ row ∈ (avatarMachine.run ⟨[], [], []⟩ steps).experts,
        row.key = key ∧ ∀ name ∈ localAvatarFields,
          valueAt name (existingFields (some row.projectionJson)) = none := by
  refine ⟨by decide, ?_⟩
  decide

end AiTeam.Projection
