/-
The start-up migration of workspace folders: moves are recorded, folders are
renamed one by one and the stored paths follow; it may crash between any two
steps and start again.
-/
import Mathlib.Data.List.Sort
import AiTeam.Machine
import AiTeam.Workspace.Layout

namespace AiTeam.Workspace

open FileTree (Path Node nodeAt existsAt rename mkdirs)

/-! ### The store -/

/-- A row of `conversation`. -/
structure Conversation where
  id : String
  kind : String
  title : Option String
  entryEmployeeId : Option String
  coordinatorEmployeeId : Option String
  workspace : PathText
  tenantId : Option String
  memberId : Option String
  createdAt : String
deriving DecidableEq

/-- A row of `conversation_participant_session`. -/
structure Participant where
  conversationId : String
  employeeId : String
  workspace : PathText
deriving DecidableEq

/-- What the migration reads of an employee. -/
structure Expert where
  employeeId : String
  tenantId : String
  memberId : String
  displayName : String
deriving DecidableEq

/-- A row of `workspace_move`. -/
structure Move where
  oldPath : PathText
  newPath : PathText
  createdAt : String
deriving DecidableEq

/-- The tables, in the order the migration reads them in. -/
structure Db where
  conversations : List Conversation
  participants : List Participant
  experts : List Expert
  moves : List Move
deriving DecidableEq

/-- A conversation with its participants. -/
structure OwnedWorkspaces where
  conversation : Conversation
  participants : List Participant
deriving DecidableEq

def listAllConversationWorkspaces (db : Db) : List OwnedWorkspaces :=
  db.conversations.map fun conversation =>
    ⟨conversation, db.participants.filter fun participant =>
      participant.conversationId = conversation.id⟩

/-- The stored paths. -/
def Db.stored (db : Db) : List PathText :=
  db.conversations.map Conversation.workspace ++
    db.participants.map Participant.workspace

/-- The paths rows and recorded moves have in use. -/
def Db.inUse (db : Db) : List PathText :=
  db.stored ++ db.moves.map Move.newPath

/-- Whether a path or something inside it is in use. -/
def workspaceInUse (db : Db) (path : PathText) : Bool :=
  db.inUse.any fun other => path.isPrefixOf other

def joined (text : PathText) : String := "/".intercalate text

/-- `ORDER BY created_at, old_path`. -/
def movesBefore (a b : Move) : Bool :=
  a.createdAt < b.createdAt ||
    (a.createdAt = b.createdAt && joined a.oldPath ≤ joined b.oldPath)

def listWorkspaceMoves (db : Db) : List Move :=
  db.moves.insertionSort fun a b => movesBefore a b = true

/-- `planWorkspaceMoves`; `none` when a key is taken. -/
def planWorkspaceMoves (now : String) (moves : List (PathText × PathText))
    (db : Db) : Option Db :=
  let added := db.moves ++ moves.map fun move => ⟨move.1, move.2, now⟩
  if (added.map Move.oldPath).Nodup ∧ (added.map Move.newPath).Nodup then
    some { db with moves := added }
  else none

def rewrite (oldPath newPath path : PathText) : PathText :=
  if path = oldPath then newPath else path

def finishWorkspaceMove (oldPath newPath : PathText) (db : Db) : Db where
  conversations := db.conversations.map fun row =>
    { row with workspace := rewrite oldPath newPath row.workspace }
  participants := db.participants.map fun row =>
    { row with workspace := rewrite oldPath newPath row.workspace }
  experts := db.experts
  moves := db.moves.filter fun move => move.oldPath ≠ oldPath

/-! ### Planning -/

/-- A folder of an older build. -/
def isLegacy (env : Env) (path : PathText) : Bool :=
  resolve env.cwd path = env.root ++ [basename path] &&
    isLegacyName (basename path)

/-- The folders each with its employee, in the order of a `Map`. -/
abbrev LegacyWorkspaces := List (PathText × Option String)

def addLegacy (env : Env) (planned : List PathText) (legacy : LegacyWorkspaces)
    (candidate : PathText × Option String) : LegacyWorkspaces :=
  if candidate.1 = noPath || planned.contains candidate.1 ||
      (legacy.map Prod.fst).contains candidate.1 then legacy
  else if isLegacy env candidate.1 then legacy ++ [candidate]
  else legacy

/-- Legacy folders that are not planned yet. -/
def legacyWorkspaces (env : Env) (owned : OwnedWorkspaces)
    (planned : List PathText) : LegacyWorkspaces :=
  (owned.participants.map (fun participant =>
      (participant.workspace, some participant.employeeId)) ++
    [(owned.conversation.workspace, owned.conversation.entryEmployeeId)]).foldl
      (addLegacy env planned) []

/-- `listLoadedExperts`, the revoked ones too. -/
def listLoadedExperts (db : Db) (tenantId memberId : Option String) :
    List Expert :=
  db.experts.filter fun expert =>
    (tenantId.all fun tenantId => expert.tenantId = tenantId) &&
      memberId.all fun memberId =>
        expert.memberId = "" || expert.memberId = memberId

def displayName (experts : List Expert) (employeeId : Option String) :
    Option String :=
  match employeeId with
  | some employeeId =>
      if employeeId = "" then none
      else (experts.find? fun expert =>
        expert.employeeId = employeeId).map Expert.displayName
  | none => none

/-- The employees' folders, each free and not chosen for another one. -/
def chooseFolders (env : Env) (db : Db) (tree : FileTree.Tree String)
    (experts : List Expert) (conversationDir : Path) :
    List PathText → LegacyWorkspaces → Option (List (PathText × PathText))
  | _, [] => some []
  | chosen, (oldPath, employeeId) :: rest =>
      match employeeFolder env conversationDir (displayName experts employeeId)
          (employeeId.getD "conversation") tree (fun path =>
            chosen.contains path || workspaceInUse db path) with
      | none => none
      | some newPath =>
          (chooseFolders env db tree experts conversationDir
            (chosen ++ [textOf newPath]) rest).map fun moves =>
              (oldPath, textOf newPath) :: moves

/-- A folder a participant has in the layout of groups. -/
def sharedWorkspace (env : Env) (owned : OwnedWorkspaces) : Option PathText :=
  (owned.participants.map Participant.workspace).find? fun path =>
    path ≠ noPath && (resolve env.cwd path).dropLast.dropLast = env.root

/-- A new folder for the conversation, named after it or the employee. -/
def newFolder (env : Env) (clock : Clock) (db : Db)
    (tree : FileTree.Tree String)
    (conversation : Conversation) (employeeName : Option String) :
    Option Path :=
  conversationFolder env
    (conversationFolderBase clock conversation.title employeeName
      conversation.createdAt)
    conversation.id tree (workspaceInUse db)

/-- `conversationDir`: members created after the upgrade already sit in the
conversation's folder. -/
def conversationDir (env : Env) (clock : Clock) (db : Db)
    (tree : FileTree.Tree String)
    (owned : OwnedWorkspaces) (leaderName : Option String) : Option Path :=
  match sharedWorkspace env owned with
  | some shared => some (resolve env.cwd shared).dropLast
  | none => newFolder env clock db tree owned.conversation leaderName

/-- A private chat whose folder changed hands has several folders. -/
def isGroup (conversation : Conversation) (legacy : LegacyWorkspaces) : Bool :=
  conversation.kind = "group" || conversation.coordinatorEmployeeId.isSome ||
    1 < legacy.length

def leader (conversation : Conversation) (legacy : LegacyWorkspaces) :
    Option String :=
  (conversation.coordinatorEmployeeId.or conversation.entryEmployeeId).or
    (legacy.head?.bind Prod.snd)

/-- `plan`; `none` when no name is free. -/
def plan (env : Env) (clock : Clock) (db : Db) (tree : FileTree.Tree String)
    (owned : OwnedWorkspaces) (legacy : LegacyWorkspaces) :
    Option (List (PathText × PathText)) :=
  let conversation := owned.conversation
  let experts := listLoadedExperts db conversation.tenantId
    conversation.memberId
  if isGroup conversation legacy then
    match conversationDir env clock db tree owned
        (displayName experts (leader conversation legacy)) with
    | some dir => chooseFolders env db tree experts dir [] legacy
    | none => none
  else
    match legacy.head? with
    | some (oldPath, employeeId) =>
        (newFolder env clock db tree conversation
          (displayName experts employeeId)).map fun newPath =>
            [(oldPath, textOf newPath)]
    | none => some []

/-! ### A run, step by step -/

structure Disk where
  tree : FileTree.Tree String
  /-- The memory states by the names of their folders, away from the
  workspaces. -/
  hindsight : List (String × String)
  db : Db
deriving DecidableEq

/-- The name of `hindsightStateDir`. -/
def hindsightStateName (env : Env) (path : PathText) : String :=
  String.ofList ((env.sha256
    (joined (textOf (resolve env.cwd path)))).toList.take 32)

structure MigrationResult where
  moved : Nat
  pending : Nat
deriving DecidableEq

/-- Where `finishMove` stands. -/
inductive Stage where
  | folder | rename | state | rows
deriving DecidableEq

inductive Control where
  | stopped
  | planning (remaining : List OwnedWorkspaces)
  | finishing (stage : Stage) (remaining : List Move) (result : MigrationResult)
deriving DecidableEq

structure World where
  disk : Disk
  control : Control
deriving DecidableEq

inductive Act where
  | start
  | tick (clock : Clock)
  | crash

/-- The plan of one conversation in a transaction; what throws is left for the
next start. -/
def planConversation (env : Env) (clock : Clock) (disk : Disk)
    (owned : OwnedWorkspaces) : Disk :=
  let legacy := legacyWorkspaces env owned
    ((listWorkspaceMoves disk.db).map Move.oldPath)
  if legacy = [] then disk
  else
    match plan env clock disk.db disk.tree owned legacy with
    | none => disk
    | some moves =>
        match planWorkspaceMoves clock.now moves disk.db with
        | none => disk
        | some db => { disk with db := db }

/-- The memory state follows unless the folder has one. -/
def moveHindsight (env : Env) (move : Move)
    (states : List (String × String)) : List (String × String) :=
  let source := hindsightStateName env move.oldPath
  let target := hindsightStateName env move.newPath
  if (valueAt source states).isSome && (valueAt target states).isNone then
    states.map fun state =>
      (if state.1 = source then target else state.1, state.2)
  else states

/-- The next step of `finishMove`; `none` when the move is left for the next
start. -/
def advance (env : Env) (move : Move) (disk : Disk) :
    Stage → Option (Disk × Stage)
  | .folder =>
      match nodeAt (resolve env.cwd move.oldPath) disk.tree with
      | none => some (disk, .state)
      | some .dir =>
          if existsAt (resolve env.cwd move.newPath) disk.tree then none
          else
            (mkdirs (resolve env.cwd move.newPath).dropLast disk.tree).map
              fun tree => ({ disk with tree := tree }, .rename)
      | some _ => none
  | .rename =>
      (rename (resolve env.cwd move.oldPath) (resolve env.cwd move.newPath)
        disk.tree).map fun tree => ({ disk with tree := tree }, .state)
  | .state =>
      some ({ disk with hindsight := moveHindsight env move disk.hindsight },
        .rows)
  | .rows => none

def tick (env : Env) (clock : Clock) (world : World) :
    World × List MigrationResult :=
  match world.control with
  | .stopped => (world, [])
  | .planning [] =>
      (⟨world.disk,
        .finishing .folder (listWorkspaceMoves world.disk.db) ⟨0, 0⟩⟩, [])
  | .planning (owned :: rest) =>
      (⟨planConversation env clock world.disk owned, .planning rest⟩, [])
  | .finishing _ [] result => (⟨world.disk, .stopped⟩, [result])
  | .finishing .rows (move :: rest) result =>
      (⟨{ world.disk with
            db := finishWorkspaceMove move.oldPath move.newPath
              world.disk.db },
        .finishing .folder rest ⟨result.moved + 1, result.pending⟩⟩, [])
  | .finishing stage (move :: rest) result =>
      match advance env move world.disk stage with
      | some (disk, next) =>
          (⟨disk, .finishing next (move :: rest) result⟩, [])
      | none =>
          (⟨world.disk,
            .finishing .folder rest ⟨result.moved, result.pending + 1⟩⟩, [])

/-- The machine emits what a run that was not interrupted returns. -/
def migration (env : Env) : Machine World Act MigrationResult where
  step world
    | .start =>
        match world.control with
        | .stopped =>
            (⟨world.disk,
              .planning (listAllConversationWorkspaces world.disk.db)⟩, [])
        | _ => (world, [])
    | .tick clock => tick env clock world
    | .crash => (⟨world.disk, .stopped⟩, [])

end AiTeam.Workspace
