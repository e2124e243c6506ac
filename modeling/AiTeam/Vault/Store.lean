/-
The login vault of the desktop client (`secure_session.rs`): the session file,
the credentials file and the seven operations on them.  The files are written
atomically and only by these operations.
-/
import Mathlib.Data.List.DropRight
import Mathlib.Data.String.Basic
import AiTeam.Machine
import AiTeam.OrderedMap

namespace AiTeam.Vault

/-- `SessionIdentityExtract`. -/
structure SessionExtract where
  tenantId : String
  enterprise : String
  account : String
deriving DecidableEq

/-- `CredentialIdentityExtract`. -/
structure CredentialExtract where
  enterprise : String
  account : String
deriving DecidableEq

/-- `str::to_lowercase`, serde_json and the cipher, which decrypts what was
encrypted under the same key and context. -/
structure Platform (Key Envelope : Type) where
  toLowercase : String → String
  parseSession : String → Option SessionExtract
  parseCredentials : String → Option CredentialExtract
  encrypt : Key → String → Nat → String → Envelope
  decrypt : Key → String → Envelope → Except String String
  roundTrip : ∀ key context salt text,
    decrypt key context (encrypt key context salt text) = .ok text

/-- `char::is_whitespace`. -/
def isWhitespace (c : Char) : Bool :=
  let code := c.toNat
  (9 ≤ code && code ≤ 13) || code == 32 || code == 133 || code == 160 ||
    code == 5760 || (8192 ≤ code && code ≤ 8202) || code == 8232 ||
    code == 8233 || code == 8239 || code == 8287 || code == 12288

/-- `str::trim`. -/
def trim (text : String) : String :=
  String.ofList ((text.toList.dropWhile isWhitespace).rdropWhile isWhitespace)

/-- `value.map(str::trim).unwrap_or("")`. -/
def filterText (value : Option String) : String := (value.map trim).getD ""

structure StoredRecord (Envelope : Type) where
  enterprise : String
  account : String
  updatedAt : Nat
  envelope : Envelope
deriving DecidableEq

abbrev Records (Envelope : Type) := List (String × StoredRecord Envelope)

structure SessionVault (Envelope : Type) where
  activeKey : Option String
  activeEnvelope : Option Envelope
  sessions : Records Envelope
deriving DecidableEq

structure CredentialsVault (Envelope : Type) where
  lastActiveKey : Option String
  entries : Records Envelope
deriving DecidableEq

/-- The vault directory. -/
structure State (Key Envelope : Type) where
  masterKey : Option Key
  session : Option (SessionVault Envelope)
  credentials : Option (CredentialsVault Envelope)
deriving DecidableEq

/-- What a call takes from the random source and the clock. -/
structure Draw (Key : Type) where
  key : Key
  salt : Nat
  now : Nat
deriving DecidableEq

structure Summary where
  enterprise : String
  account : String
  updatedAt : Nat
deriving DecidableEq

variable {Key Envelope : Type}

def normalizeSegment (platform : Platform Key Envelope) (value : String) :
    String :=
  platform.toLowercase (trim value)

def buildIdentityKey (platform : Platform Key Envelope)
    (enterprise account : String) : String :=
  normalizeSegment platform enterprise ++ "::" ++
    normalizeSegment platform account

/-- `load_or_create_master_key`. -/
def loadOrCreateMasterKey (state : State Key Envelope) (draw : Draw Key) :
    Key :=
  state.masterKey.getD draw.key

/-- A record with its payload encrypted. -/
def sealRecord (platform : Platform Key Envelope) (masterKey : Key)
    (draw : Draw Key) (context enterprise account payload : String) :
    StoredRecord Envelope :=
  ⟨enterprise, account, draw.now,
    platform.encrypt masterKey context draw.salt payload⟩

def newest (records : Records Envelope) :
    Option (String × StoredRecord Envelope) :=
  OrderedMap.lastMax (fun entry => entry.2.updatedAt) records

/-- `BTreeMap::get_key_value`. -/
def entryAt (key : String) (records : Records Envelope) :
    Option (String × StoredRecord Envelope) :=
  (valueAt key records).map fun record => (key, record)

/-! ### Sessions -/

/-- The enterprise and the account a session is stored under. -/
def sessionScope (platform : Platform Key Envelope) (session : String) :
    Option (String × String) :=
  match platform.parseSession session with
  | none => none
  | some extracted =>
      let enterprise :=
        if trim extracted.enterprise != "" then trim extracted.enterprise
        else trim extracted.tenantId
      let account := trim extracted.account
      if account != "" then some (enterprise, account) else none

def sessionContext (key : String) : String := "session:" ++ key

/-- The record a read that names an enterprise or an account decrypts. -/
def selectSession (platform : Platform Key Envelope)
    (vault : SessionVault Envelope) (enterprise account : String) :
    Option (String × StoredRecord Envelope) :=
  match entryAt (buildIdentityKey platform enterprise account)
      vault.sessions with
  | some found => some found
  | none =>
      if account != "" then
        newest (vault.sessions.filter fun entry =>
          normalizeSegment platform entry.2.account ==
            normalizeSegment platform account)
      else none

def sessionRead (platform : Platform Key Envelope)
    (state : State Key Envelope) (draw : Draw Key)
    (enterprise account : Option String) :
    State Key Envelope × Except String (Option String) :=
  match state.session with
  | none => (state, .ok none)
  | some vault =>
      let masterKey := loadOrCreateMasterKey state draw
      let state := { state with masterKey := some masterKey }
      let filterEnterprise := filterText enterprise
      let filterAccount := filterText account
      let decrypt (context : String) (envelope : Envelope) :=
        (platform.decrypt masterKey context envelope).map some
      if filterEnterprise != "" || filterAccount != "" then
        match selectSession platform vault filterEnterprise filterAccount with
        | some (key, record) =>
            (state, decrypt (sessionContext key) record.envelope)
        | none => (state, .ok none)
      else
        match vault.activeKey.bind (entryAt · vault.sessions) with
        | some (key, record) =>
            (state, decrypt (sessionContext key) record.envelope)
        | none =>
            match vault.activeEnvelope with
            | some envelope => (state, decrypt "session:active" envelope)
            | none => (state, .ok none)

def sessionWrite (platform : Platform Key Envelope)
    (state : State Key Envelope) (draw : Draw Key) (session : String) :
    State Key Envelope × Except String Unit :=
  let masterKey := loadOrCreateMasterKey state draw
  let vault := state.session.getD ⟨none, none, []⟩
  let write (vault : SessionVault Envelope) :=
    { state with masterKey := some masterKey, session := some vault }
  let active :=
    some (platform.encrypt masterKey "session:active" draw.salt session)
  if session == "" then
    (write {
      activeKey := none, activeEnvelope := active
      sessions := match vault.activeKey with
        | some key => discard key vault.sessions
        | none => vault.sessions }, .ok ())
  else
    match sessionScope platform session with
    | some (enterprise, account) =>
        let key := buildIdentityKey platform enterprise account
        let record := sealRecord platform masterKey draw (sessionContext key)
          enterprise account session
        (write {
          activeKey := some key, activeEnvelope := none
          sessions := OrderedMap.insert key record vault.sessions }, .ok ())
    | none =>
        (write { vault with activeKey := none, activeEnvelope := active },
          .ok ())

def sessionDelete (platform : Platform Key Envelope)
    (state : State Key Envelope) (enterprise account : Option String) :
    State Key Envelope × Except String Unit :=
  match state.session with
  | none => (state, .ok ())
  | some vault =>
      let filterEnterprise := filterText enterprise
      let filterAccount := filterText account
      if filterEnterprise != "" || filterAccount != "" then
        let key := buildIdentityKey platform filterEnterprise filterAccount
        ({ state with session := some {
            vault with
            sessions := discard key vault.sessions
            activeKey :=
              if vault.activeKey == some key then none
              else vault.activeKey } }, .ok ())
      else
        ({ state with session := some {
            activeKey := none, activeEnvelope := none
            sessions := match vault.activeKey with
              | some key => discard key vault.sessions
              | none => vault.sessions } }, .ok ())

/-! ### Credentials -/

/-- The enterprise and the account credentials are stored under. -/
def credentialScope (platform : Platform Key Envelope)
    (credentials : String) : Except String (String × String) :=
  match platform.parseCredentials credentials with
  | none => .error "invalid login credentials payload"
  | some extracted =>
      let enterprise := trim extracted.enterprise
      let account := trim extracted.account
      if account == "" then
        .error "login credentials account cannot be empty"
      else .ok (enterprise, account)

def credentialContext (key : String) : String := "credentials:" ++ key

/-- A record a clear left behind. -/
def isTombstone (record : StoredRecord Envelope) : Bool :=
  trim record.account == ""

def kept (records : Records Envelope) : Records Envelope :=
  records.filter fun entry => !isTombstone entry.2

/-- The active record when it passes, else the newest one that does. -/
def activeOrNewest (vault : CredentialsVault Envelope)
    (passes : StoredRecord Envelope → Bool) :
    Option (String × StoredRecord Envelope) :=
  ((vault.lastActiveKey.bind (entryAt · vault.entries)).filter
      fun entry => passes entry.2).or
    (newest (vault.entries.filter fun entry => passes entry.2))

def selectCredentials (platform : Platform Key Envelope)
    (vault : CredentialsVault Envelope) (enterprise account : String) :
    Option (String × StoredRecord Envelope) :=
  if enterprise != "" && account != "" then
    (entryAt (buildIdentityKey platform enterprise account)
        vault.entries).or
      (entryAt (buildIdentityKey platform "" account) vault.entries)
  else if account != "" then
    activeOrNewest vault fun record =>
      normalizeSegment platform record.account ==
        normalizeSegment platform account
  else if enterprise != "" then
    activeOrNewest vault fun record =>
      normalizeSegment platform record.enterprise ==
        normalizeSegment platform enterprise
  else activeOrNewest vault fun _ => true

def credentialsRead (platform : Platform Key Envelope)
    (state : State Key Envelope) (draw : Draw Key)
    (enterprise account : Option String) :
    State Key Envelope × Except String (Option String) :=
  match state.credentials with
  | none => (state, .ok none)
  | some vault =>
      let masterKey := loadOrCreateMasterKey state draw
      let state := { state with masterKey := some masterKey }
      match selectCredentials platform vault (filterText enterprise)
          (filterText account) with
      | some (key, record) =>
          (state, (platform.decrypt masterKey (credentialContext key)
            record.envelope).map some)
      | none => (state, .ok none)

/-- The key a clear writes its tombstone to. -/
def tombstoneKey (platform : Platform Key Envelope)
    (vault : CredentialsVault Envelope) : String :=
  vault.lastActiveKey.getD (buildIdentityKey platform "" "__tombstone__")

def credentialsWrite (platform : Platform Key Envelope)
    (state : State Key Envelope) (draw : Draw Key) (credentials : String) :
    State Key Envelope × Except String Unit :=
  let masterKey := loadOrCreateMasterKey state draw
  let state := { state with masterKey := some masterKey }
  let vault := state.credentials.getD ⟨none, []⟩
  let record (key enterprise account : String) :=
    sealRecord platform masterKey draw (credentialContext key) enterprise
      account credentials
  if credentials == "" then
    let key := tombstoneKey platform vault
    ({ state with credentials := some {
        lastActiveKey := some key
        entries := OrderedMap.insert key (record key "" "") vault.entries } },
      .ok ())
  else
    match credentialScope platform credentials with
    | .error detail => (state, .error detail)
    | .ok (enterprise, account) =>
        let key := buildIdentityKey platform enterprise account
        ({ state with credentials := some {
            lastActiveKey := some key
            entries := OrderedMap.insert key (record key enterprise account)
              (kept vault.entries) } }, .ok ())

/-- The key that becomes active when the active one is gone. -/
def nextActive (entries : Records Envelope) : Option String :=
  (newest (kept entries)).map Prod.fst

/-- The active key and the entries a delete leaves, tombstones included. -/
def deleteEntries (platform : Platform Key Envelope)
    (vault : CredentialsVault Envelope) (enterprise account : String) :
    Option String × Records Envelope :=
  if enterprise != "" && account != "" then
    let key := buildIdentityKey platform enterprise account
    let entries := discard key vault.entries
    (if vault.lastActiveKey == some key then nextActive entries
      else vault.lastActiveKey, entries)
  else if account != "" then
    let entries := vault.entries.filter fun entry =>
      normalizeSegment platform entry.2.account !=
        normalizeSegment platform account
    (if vault.lastActiveKey.any fun key => (valueAt key entries).isNone
      then nextActive entries else vault.lastActiveKey, entries)
  else
    match vault.lastActiveKey with
    | some key =>
        let entries := discard key vault.entries
        (nextActive entries, entries)
    | none => (none, vault.entries)

def credentialsDelete (platform : Platform Key Envelope)
    (state : State Key Envelope) (enterprise account : Option String) :
    State Key Envelope × Except String Unit :=
  match state.credentials with
  | none => (state, .ok ())
  | some vault =>
      let (lastActiveKey, entries) := deleteEntries platform vault
        (filterText enterprise) (filterText account)
      ({ state with
          credentials := some ⟨lastActiveKey, kept entries⟩ }, .ok ())

def credentialsList (state : State Key Envelope) : List Summary :=
  match state.credentials with
  | none => []
  | some vault =>
      ((kept vault.entries).map fun entry =>
          (⟨entry.2.enterprise, entry.2.account, entry.2.updatedAt⟩ :
            Summary)).mergeSort
        fun first second => second.updatedAt ≤ first.updatedAt

/-! ### Calls -/

inductive Kind where
  | session
  | credentials
deriving DecidableEq

inductive Call where
  | read (kind : Kind) (enterprise account : Option String)
  | write (kind : Kind) (payload : String)
  | delete (kind : Kind) (enterprise account : Option String)
  | list
deriving DecidableEq

structure Turn (Key : Type) where
  call : Call
  draw : Draw Key
deriving DecidableEq

inductive Reply where
  | read (result : Except String (Option String))
  | done (result : Except String Unit)
  | listed (profiles : List Summary)

def step (platform : Platform Key Envelope) (state : State Key Envelope)
    (turn : Turn Key) : State Key Envelope × Reply :=
  match turn.call with
  | .read .session enterprise account =>
      let (state, result) :=
        sessionRead platform state turn.draw enterprise account
      (state, .read result)
  | .read .credentials enterprise account =>
      let (state, result) :=
        credentialsRead platform state turn.draw enterprise account
      (state, .read result)
  | .write .session payload =>
      let (state, result) := sessionWrite platform state turn.draw payload
      (state, .done result)
  | .write .credentials payload =>
      let (state, result) := credentialsWrite platform state turn.draw payload
      (state, .done result)
  | .delete .session enterprise account =>
      let (state, result) := sessionDelete platform state enterprise account
      (state, .done result)
  | .delete .credentials enterprise account =>
      let (state, result) :=
        credentialsDelete platform state enterprise account
      (state, .done result)
  | .list => (state, .listed (credentialsList state))

def machine (platform : Platform Key Envelope) :
    Machine (State Key Envelope) (Turn Key) Reply where
  step state turn :=
    let (next, reply) := step platform state turn
    (next, [reply])

def empty : State Key Envelope := ⟨none, none, none⟩

end AiTeam.Vault
