/-
`search`, `read`, `verifyCitation` and the changes of directories and bindings,
statement by statement: each runs to its next await or to its end.
-/
import AiTeam.LocalDirectory.Service

namespace AiTeam.LocalDirectory

open AiTeam.Attempt (require demand answer recover)
open AiTeam.Unicode (Text lit utf16)

variable (env : Env) (choice : Choice)

/-! ### `search` -/

def maxFiles : Nat := 2000

def maxEntries : Nat := 8000

def maxBytes : Nat := 32 * 1024 * 1024

/-- `checkBudget`. -/
def checkBudget (search : Search) : Step Bool := do
  requireRunning search.task
  pure (choice.now < search.deadline &&
    search.coverage.filesExamined + search.coverage.filesSkipped < maxFiles &&
    search.coverage.entriesExamined < maxEntries &&
    search.coverage.bytesRead < maxBytes)

def checkSearch (search : Search) (resource : DirectoryResource)
    (bindingRevision : Nat) : Step PUnit :=
  checkBefore env choice search.context resource bindingRevision .search
    search.task

/-- The citations last a quarter of an hour. -/
def cite (search : Search) (candidate : Candidate) (id : Nat) : Citation where
  id := id
  context := search.context
  owner := search.owner
  resource := candidate.resource
  title := candidate.hit.title
  relative := candidate.hit.relativePath
  snippet := candidate.hit.snippet
  version := candidate.hit.contentVersion
  authority := candidate.authority
  bindingRevision := candidate.bindingRevision
  expires := choice.now + 15 * 60000

def maxCitations : Nat := 512

/-- `prune`: what has expired goes, and the oldest until there is room. -/
def prune (now : Int) (citations : List Citation) : List Citation :=
  let valid := citations.filter fun citation => now < citation.expires
  valid.drop (valid.length - (maxCitations - 1))

def setCitation (now : Int) (citations : List Citation)
    (citation : Citation) : List Citation :=
  prune now citations ++ [citation]

/-- The answer, and a citation for every item of it. -/
def deliver (search : Search) : Step Progress := do
  requireRunning search.task
  let agent ← get
  let chosen := withinOutput 0 search.candidates
  let citations := chosen.zipIdx.map fun item =>
    cite choice search item.1 (agent.drawn + item.2)
  modify fun agent => { agent with
    citations := citations.foldl (setCitation choice.now) agent.citations
    drawn := agent.drawn + chosen.length }
  let found : Found := {
    isPartial := search.isPartial || chosen.length < search.candidates.length
    coverage := search.coverage
    items := chosen.zipIdx.map fun item =>
      ⟨agent.drawn + item.2, item.1.hit⟩ }
  pure (.leave search.task (.found found), citations.map Event.cited)

/-- Every directory that was opened is checked once more. -/
def confirmNext (search : Search) : List Opened → Step Progress
  | [] => deliver choice search
  | item :: rest => do
      checkSearch env choice search item.resource item.bindingRevision
      go (.confirm search item rest)

/-- The next directory with an enabled binding. -/
def nextResource (search : Search) : List DirectoryResource → Step Progress
  | [] => do
      require (search.checks ≠ []) "unauthorized"
      confirmNext env choice search search.checks
  | resource :: rest => do
      let agent ← get
      let rows ← demand (LocalDirectoryStore.bindings agent.db search.owner
        resource.directoryId) "unauthorized"
      match rows.find? fun row =>
          row.employeeId = search.context.employeeId && row.enabled with
      | none => nextResource search rest
      | some binding => do
          modify (touch search.task resource.directoryId)
          checkSearch env choice search resource binding.revision
          go (.openDirectory { search with remaining := rest } resource
            binding.revision)

/-- The next folder, when there is one and the budget lasts. -/
def nextFolder (walk : Walk) : Step Progress :=
  match walk.queue with
  | [] => nextResource env choice walk.search walk.search.remaining
  | directory :: queue => do
      let within ← checkBudget choice walk.search
      if within then do
        checkSearch env choice walk.search walk.opened.resource
          walk.opened.bindingRevision
        go (.checkFolder { walk with queue } directory)
      else
        nextResource env choice { walk.search with isPartial := true }
          walk.search.remaining

def Walk.cover (walk : Walk) (change : Coverage → Coverage) : Walk :=
  { walk with
    search := { walk.search with coverage := change walk.search.coverage } }

def Walk.incomplete (walk : Walk) (isPartial : Bool) : Walk :=
  { walk with
    search := { walk.search with
      isPartial := walk.search.isPartial || isPartial } }

def examineEntry (coverage : Coverage) : Coverage :=
  { coverage with entriesExamined := coverage.entriesExamined + 1 }

def skipFile (coverage : Coverage) : Coverage :=
  { coverage with filesSkipped := coverage.filesSkipped + 1 }

def examineFile (text : Text) (coverage : Coverage) : Coverage :=
  { coverage with
    bytesRead := coverage.bytesRead + byteLength text
    filesExamined := coverage.filesExamined + 1 }

/-- The next file of a listing; folders are queued, other files skipped. -/
def nextEntry (directory : Text) (walk : Walk) : List Entry → Step Progress
  | [] => nextFolder env choice walk
  | entry :: rest => do
      let within ← checkBudget choice walk.search
      if within then
        let walk := walk.cover examineEntry
        let path := join directory entry.name
        if entry.directory then
          nextEntry directory { walk with queue := walk.queue ++ [path] } rest
        else if isFormat entry.name then do
          checkSearch env choice walk.search walk.opened.resource
            walk.opened.bindingRevision
          go (.checkFile walk ⟨directory, entry.name, path, rest⟩)
        else nextEntry directory (walk.cover skipFile) rest
      else nextFolder env choice (walk.incomplete true)

/-- A file the host could not read, for a reason of its own. -/
def isSkippable (code : String) : Bool :=
  ["file_unavailable", "unsupported_file", "unsupported_format",
    "parse_failed", "budget_exhausted", "source_changed"].contains code

def Walk.addHit (walk : Walk) (file : File) (source : Source)
    (located : Located) : Walk :=
  { walk with
    search := { walk.search with
      candidates := addCandidate env.locale walk.search.limit
        walk.search.candidates
        ⟨⟨file.name, file.path, source.contentVersion, located.snippet,
          located.offset, located.score⟩, walk.opened.resource,
          walk.opened.authority, walk.opened.bindingRevision⟩ } }

/-- The file as the host has read it. -/
def examine (walk : Walk) (file : File) (source : Source) : Step Progress := do
  require (source.authority = walk.opened.authority) "unauthorized"
  let walk := walk.cover (examineFile source.text)
  if maxBytes < walk.search.coverage.bytesRead then
    nextFolder env choice (walk.incomplete true)
  else
    match locateHit env.locale walk.search.terms (env.locale.fold file.path)
        source.text with
    | none => nextEntry env choice file.directory walk file.rest
    | some located =>
        nextEntry env choice file.directory
          (walk.addHit env file source located) file.rest

def startSearch (context : DirectoryExecution) (query : Text) (limit : Int)
    (signalled : Bool) : Step Progress := do
  let _ ← authorize env choice context .search
  require (isBlank query = false ∧ (utf16 query).length ≤ 512 ∧ 1 ≤ limit ∧
    limit ≤ 15) "invalid_query"
  let owner ← demand (owner env choice.now context.caller) "unauthorized"
  let task ← enter owner context.employeeId signalled
  let agent ← get
  let search : Search := {
    context, owner, task
    terms := terms env.locale query
    limit := limit.toNat
    deadline := choice.now + 5000
    coverage := ⟨0, 0, 0, 0⟩
    isPartial := false
    candidates := []
    checks := []
    remaining := [] }
  tracked task (nextResource env choice search
    (LocalDirectoryStore.list agent.db owner))

/-! ### `read` and `verifyCitation` -/

/-- The citation is of the same turn. -/
def sameTurn (expected context : DirectoryExecution) : Bool :=
  expected.caller.tenantId = context.caller.tenantId &&
    expected.caller.userId = context.caller.userId &&
    expected.employeeId = context.employeeId &&
    expected.sessionId = context.sessionId &&
    expected.turnId = context.turnId &&
    expected.conversationId = context.conversationId

def startRead (asked : Asked) (context : DirectoryExecution) (id : Nat)
    (offset : Int) (signalled : Bool) : Step Progress := do
  let _ ← authorize env choice context .read
  require (LocalDirectoryStore.isSafeCount offset = true) "invalid_offset"
  let agent ← get
  let citation ← demand (lookup Citation.id id agent.citations)
    "citation_expired"
  require (choice.now < citation.expires) "citation_expired"
  require (sameTurn citation.context context = true) "unauthorized"
  let owner ← demand (owner env choice.now context.caller) "unauthorized"
  let task ← enter owner context.employeeId signalled
  tracked task do
    modify (touch task citation.resource.directoryId)
    checkBefore env choice context citation.resource citation.bindingRevision
      .read task
    go (.checkRead ⟨asked, context, id, offset.toNat, citation, task⟩)

def maxExcerpt : Nat := 12000

/-- What is returned of the text. -/
def excerpt (read : Read) (text : Text) : Excerpt where
  citationId := read.id
  contentVersion := read.citation.version
  text := Text.slice text read.offset maxExcerpt
  offset := read.offset
  nextOffset :=
    if read.offset + maxExcerpt < text.length then
      some (read.offset + maxExcerpt)
    else none

def checkReading (read : Read) : Step String :=
  checkAfter env choice read.context read.citation.resource
    read.citation.bindingRevision (some read.citation.authority) .read
    read.task

def readSource (read : Read) : Step Progress := do
  let source ← answer choice.read
  require (source.contentVersion = read.citation.version) "source_changed"
  require (source.authority = read.citation.authority) "unauthorized"
  require (read.offset ≤ source.text.length) "invalid_offset"
  checkBefore env choice read.context read.citation.resource
    read.citation.bindingRevision .read read.task
  go (.recheckRead read (excerpt read source.text))

/-- `verifyCitation` until it awaits `read`. -/
def startVerify (caller : Caller) (id : Nat) (offset : Int) :
    Step Progress := do
  require (0 ≤ offset) "invalid_offset"
  let citation ← assertCitationCurrent env choice caller id
  startRead env choice (.verify caller id citation)
    { citation.context with caller := caller } id offset false

/-- The promise of a tracked task has settled. -/
def leave (task : Nat) (ended : Ended) : Step Progress := do
  modify fun agent => { agent with
    tasks := agent.tasks.filter fun active => active.id ≠ task }
  match ended with
  | .failed code => go (.failed code)
  | .found found => pure (.returned, [.found found])
  | .read .tool source => pure (.returned, [.read source])
  | .read (.verify caller id citation) source =>
      go (.assertCitation caller id citation source)

/-! ### Directories and bindings -/

/-- Writes what a method of the store returns. -/
def write (change : Db → Except String Db) : Step PUnit := do
  let agent ← get
  let db ← answer (change agent.db)
  modify fun agent => { agent with db }

def startRegister (caller : Caller) : Step Progress := do
  let owner ← demand (owner env choice.now caller) "unauthorized"
  go (.consumeTicket caller owner)

def consumeTicket (caller : Caller) (directoryOwner : DirectoryOwner) :
    Step Progress := do
  let receipt ← answer choice.consume
  let _ ← demand (owner env choice.now caller) "unauthorized"
  write fun db => LocalDirectoryStore.register db directoryOwner receipt
    choice.directoryId choice.date
  go .returned

def finishBind (directoryOwner : DirectoryOwner) (id employee : String)
    (enabled : Bool) (revision : Int) : Step Progress := do
  write fun db => LocalDirectoryStore.bind db directoryOwner id employee
    enabled revision choice.date
  modify (invalidate directoryOwner (some id) (some employee))
  go .returned

def startBind (caller : Caller) (id employeeId : String) (enabled : Bool)
    (revision : Int) : Step Progress := do
  let owner ← demand (owner env choice.now caller) "unauthorized"
  if enabled then do
    let agent ← get
    let _ ← demand (employee agent.db owner employeeId) "unauthorized"
    let _ ← demand (LocalDirectoryStore.get agent.db owner id) "unauthorized"
    go (.checkBinding caller owner id employeeId revision)
  else finishBind choice owner id employeeId enabled revision

def checkBinding (caller : Caller) (directoryOwner : DirectoryOwner)
    (id employee : String) (revision : Int) : Step Progress := do
  let _ ← answer choice.check
  let _ ← demand (owner env choice.now caller) "unauthorized"
  finishBind choice directoryOwner id employee true revision

def revoke (caller : Caller) (id : String) : Step Progress := do
  let owner ← demand (owner env choice.now caller) "unauthorized"
  write fun db => LocalDirectoryStore.revoke db owner id choice.date
  modify (invalidate owner (some id) none)
  go .returned

/-! ### Statements -/

def start : Request → Step Progress
  | .search context query limit signalled =>
      startSearch env choice context query limit signalled
  | .read context id offset signalled =>
      startRead env choice .tool context id offset signalled
  | .verifyCitation caller id offset => startVerify env choice caller id offset
  | .register caller => startRegister env choice caller
  | .bind caller id employee enabled revision =>
      startBind env choice caller id employee enabled revision
  | .revoke caller id => revoke env choice caller id

/-- A call from the answer it has awaited to the next await. -/
def proceed : Stage → Step Progress
  | .start request => start env choice request
  | .consumeTicket caller owner => consumeTicket env choice caller owner
  | .checkBinding caller owner id employee revision =>
      checkBinding env choice caller owner id employee revision
  | .openDirectory search resource bindingRevision =>
      tracked search.task do
        let authority ← checkAfter env choice search.context resource
          bindingRevision none .search search.task
        let opened : Opened := ⟨resource, bindingRevision, authority⟩
        nextFolder env choice
          ⟨{ search with checks := search.checks ++ [opened] }, opened, [[]]⟩
  | .checkFolder walk directory =>
      tracked walk.search.task do
        let _ ← checkAfter env choice walk.search.context
          walk.opened.resource walk.opened.bindingRevision
          (some walk.opened.authority) .search walk.search.task
        go (.listFolder walk directory)
  | .listFolder walk directory =>
      tracked walk.search.task do
        let listing ← answer choice.list
        require (listing.authority = walk.opened.authority) "unauthorized"
        nextEntry env choice directory (walk.incomplete listing.isPartial)
          listing.entries
  | .checkFile walk file =>
      tracked walk.search.task do
        let _ ← checkAfter env choice walk.search.context
          walk.opened.resource walk.opened.bindingRevision
          (some walk.opened.authority) .search walk.search.task
        go (.readFile walk file)
  | .readFile walk file =>
      tracked walk.search.task
        (match choice.read with
        | .ok source => examine env choice walk file source
        | .error code =>
            if isSkippable code then
              nextEntry env choice file.directory
                ((walk.cover skipFile).incomplete true) file.rest
            else throw code)
  | .confirm search item rest =>
      tracked search.task do
        let _ ← checkAfter env choice search.context item.resource
          item.bindingRevision (some item.authority) .search search.task
        confirmNext env choice search rest
  | .checkRead read =>
      tracked read.task do
        let _ ← checkReading env choice read
        go (.readSource read)
  | .readSource read => tracked read.task (readSource env choice read)
  | .recheckRead read source =>
      tracked read.task do
        let _ ← checkReading env choice read
        go (.leave read.task (.read read.asked source))
  | .leave task ended => leave task ended
  | .assertCitation caller id citation source => do
      let _ ← assertCitationCurrent env choice caller id
      let result := citation.verified source
      pure (.send caller id result, [.verified result])
  | .send caller id result => do
      let _ ← assertCitationCurrent env choice caller id
      pure (.returned, [.sent result])
  | .returned => go .returned
  | .failed code => go (.failed code)

/-- What a call throws is where it ends. -/
def statement (agent : Agent) (stage : Stage) :
    Agent × Stage × List Event :=
  match (proceed env choice stage).outcome agent with
  | (.ok (next, events), agent) => (agent, next, events)
  | (.error code, agent) => (agent, .failed code, [])

def outside (agent : Agent) : Outside → Agent × List Event
  | .registerIdentity caller now =>
      ({ agent with registry := agent.registry.register caller now }, [])
  | .resolveIdentity tenantId memberId now =>
      ((resolveIdentity ⟨tenantId, memberId⟩ now agent).2, [])
  | .invalidateIdentity tenantId memberId =>
      ({ agent with
        registry := agent.registry.invalidate tenantId memberId }, [])
  | .clearIdentities =>
      ({ agent with registry := agent.registry.clear }, [])
  | .invalidate owner => (invalidate owner none none agent, [])
  | .employees experts snapshots =>
      ({ agent with db := { agent.db with experts, snapshots } }, [])
  | .conversations conversations participants =>
      ({ agent with db := { agent.db with conversations, participants } }, [])
  | .abort task =>
      ({ agent with
        tasks := updateWhere (fun active => active.id = task)
          (fun active => { active with aborted := true }) agent.tasks }, [])

def service (env : Env) :
    Service Agent Stage Request Choice Outside Event where
  start _ request := .start request
  statement agent choice stage := statement env choice agent stage
  outside := outside

/-- A process that has started over the stored rows. -/
def started (db : Db) : Agent := ⟨db, ⟨[], []⟩, [], [], 0⟩

end AiTeam.LocalDirectory
