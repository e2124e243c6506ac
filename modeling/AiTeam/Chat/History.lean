/-
The conversion of conversation entries into messages: parts of the content,
senders, results of tools, and the messages of one work as one.
-/
import AiTeam.Chat.Message
import AiTeam.Gathering

namespace AiTeam.Chat

open Unicode (Text lit)

/-- `ConversationContentPart` -/
inductive ContentPart (J : Type) where
  | text (text : Option Text) (truncated : Bool)
  | thinking (thinking : Option Text)
  | toolCall (id name : Option Text) (arguments : Option J)
  | image
deriving DecidableEq

inductive MessageRole where
  | user
  | assistant
  | toolResult
deriving DecidableEq

inductive Content (J : Type) where
  | string (text : Text)
  | parts (parts : List (ContentPart J))
deriving DecidableEq

/-- `ConversationMessage` -/
structure ConversationMessage (J : Type) where
  role : MessageRole
  timestamp : Option Int := none
  content : Option (Content J) := none
  toolCallId : Option Text := none
  toolKind : Option ToolKind := none
  result : Field J := .absent
  isError : Option Bool := none
  stopReason : Option Text := none
  errorMessage : Option Text := none
deriving DecidableEq

inductive SourceType where
  | human
  | employee
deriving DecidableEq

inductive SourceRole where
  | human
  | child
  | participant
  | coordinator
deriving DecidableEq

structure ReplyFile where
  id : Text
  filename : Text
  path : Option Text
  chars : Nat
deriving DecidableEq

/-- `ConversationEntry`; a `replyFile` of another shape is `none`. -/
structure ConversationEntry (J : Type) where
  workId : Option Text := none
  participantEmployeeId : Option Text := none
  entryRef : Option Text := none
  id : Text
  timestamp : Option (Text ⊕ Int) := none
  message : Option (ConversationMessage J) := none
  sourceType : Option SourceType := none
  sourceId : Option Text := none
  sourceDisplayName : Option Text := none
  sourceEmployeeId : Option Text := none
  sourceEmployeeDisplayName : Option Text := none
  sourceRole : Option SourceRole := none
  replyFile : Option ReplyFile := none
deriving DecidableEq

inductive Role where
  | user
  | assistant
deriving DecidableEq

inductive LocalContext where
  | search
  | list
deriving DecidableEq

/-- `Message`, as the conversion writes it; `F` are the failures. -/
structure Message (J F : Type) where
  id : Text
  entryRefs : List Text
  workId : Option Text
  role : Role
  content : Text
  time : Text
  thinkingSteps : Option (List (ThinkingStep J))
  toolCalls : Option (List (ToolCall J))
  senderName : Option Text
  senderEmployeeId : Option Text
  senderRole : Option SourceRole
  recipientEmployeeId : Option Text
  recipientName : Option Text
  localContext : Option LocalContext
  truncated : Bool
  replyFile : Option ReplyFile
  replyPreview : Option Text
  ts : Int
  failure : Option F
deriving DecidableEq

/-- What the conversion takes from other modules and from the host. -/
structure Display (J F : Type) where
  /-- An object that is not an array. -/
  isRecord : J → Bool
  splitLocalContext : Text → Text × Option LocalContext
  assistantFailure : ConversationMessage J → Option F
  replyPreview : Text → Text
  normalizeTimestamp : Option (Text ⊕ Int) → Text × Int
  /-- `resolveEmployeeName?.(id)?.trim()` -/
  resolveEmployeeName : Text → Option Text

/-! ### Entry to message -/

section

variable {J F : Type} (display : Display J F)

/-- `SplitParts` -/
structure SplitParts (J : Type) where
  content : Text := []
  thinkingSteps : List (ThinkingStep J) := []
  toolCalls : List (ToolCall J) := []
  truncated : Bool := false

/-- Thinking right behind thinking goes on in the same step. -/
def addThinking (steps : List (ThinkingStep J)) (text : Text) :
    List (ThinkingStep J) :=
  match steps.getLast? with
  | some (.reasoning before) => steps.dropLast ++ [.reasoning (before ++ text)]
  | _ => steps ++ [.reasoning text]

/-- The loop of `splitContentParts`. -/
def splitPart (split : SplitParts J) : ContentPart J → SplitParts J
  | .text text truncated =>
      { split with
        content := split.content ++ text.getD []
        truncated := split.truncated || truncated }
  | .thinking thinking =>
      match thinking.getD [] with
      | [] => split
      | text => { split with
          thinkingSteps := addThinking split.thinkingSteps text }
  | .toolCall id name arguments =>
      let input := match arguments with
        | none => .undefined
        | some arguments =>
            if display.isRecord arguments then .defined (.record arguments)
            else .defined (.value arguments)
      let tool : ToolCall J :=
        { id := id.getD (lit "tool_" ++ lit (toString split.toolCalls.length))
          name := name.getD []
          input := input }
      { split with
        thinkingSteps := split.thinkingSteps ++ [.tool tool]
        toolCalls := split.toolCalls ++ [tool] }
  | .image => split

def splitContentParts (parts : List (ContentPart J)) : SplitParts J :=
  parts.foldl (splitPart display) {}

/-- The parts of a content; a text alone is its content. -/
def splitContent : Option (Content J) → SplitParts J
  | none => {}
  | some (.string text) => { content := text }
  | some (.parts parts) => splitContentParts display parts

/-- The content a user sees, without the block of the gateway. -/
def shownContent (msg : ConversationMessage J) : Text × Option LocalContext :=
  let content := (splitContent display msg.content).content
  if msg.role = .user then display.splitLocalContext content
  else (content, none)

/-- `EntrySenderIdentity` -/
structure Identity where
  role : Role
  senderName : Option Text
  senderEmployeeId : Option Text
  senderRole : Option SourceRole

/-- `normalizeEmployeeSenderRole` with the role it falls back to. -/
def employeeRole : Option SourceRole → SourceRole
  | some .coordinator => .coordinator
  | some .child => .child
  | _ => .participant

/-- `resolveEntrySenderIdentity` -/
def resolveEntrySenderIdentity (entry : ConversationEntry J)
    (fromAssistant : Bool) : Identity :=
  if fromAssistant then
    { role := .assistant
      senderName := entry.sourceEmployeeDisplayName.or entry.sourceEmployeeId
      senderEmployeeId := entry.sourceEmployeeId
      senderRole := some (employeeRole entry.sourceRole) }
  else if entry.sourceType = some .employee then
    let senderEmployeeId := entry.sourceId.or entry.sourceEmployeeId
    { role := .assistant
      senderName := (entry.sourceDisplayName.or
        entry.sourceEmployeeDisplayName).or senderEmployeeId
      senderEmployeeId := senderEmployeeId
      senderRole := some (employeeRole entry.sourceRole) }
  else
    { role := .user
      senderName := none
      senderEmployeeId := none
      senderRole := some .human }

/-- `entry.entry_ref ?? entry.id` -/
def ConversationEntry.ref (entry : ConversationEntry J) : Text :=
  entry.entryRef.getD entry.id

/-- What is not empty, as `||` takes it. -/
def nonEmpty (text : Option Text) : Option Text :=
  text.filter fun text => text != []

/-- The message of an entry that is not a tool result. -/
def toMessage (entry : ConversationEntry J) (msg : ConversationMessage J) :
    Message J F :=
  let split := splitContent display msg.content
  let shown := shownContent display msg
  let isAssistant := msg.role == .assistant
  let identity := resolveEntrySenderIdentity entry isAssistant
  let stamp := display.normalizeTimestamp
    (entry.timestamp.or (msg.timestamp.map .inr))
  let recipientEmployeeId :=
    if entry.sourceType = some .employee ∧
        nonEmpty entry.participantEmployeeId ≠ none ∧
        entry.participantEmployeeId ≠ identity.senderEmployeeId
      then entry.participantEmployeeId else none
  let replyFile := if isAssistant then entry.replyFile else none
  { id := entry.ref
    entryRefs := [entry.ref]
    workId := if isAssistant then entry.workId else none
    role := identity.role
    content := shown.1
    time := stamp.1
    thinkingSteps :=
      if split.thinkingSteps = [] then none else some split.thinkingSteps
    toolCalls := if split.toolCalls = [] then none else some split.toolCalls
    senderName := identity.senderName
    senderEmployeeId := identity.senderEmployeeId
    senderRole := identity.senderRole
    recipientEmployeeId := recipientEmployeeId
    recipientName := recipientEmployeeId.map fun id =>
      (nonEmpty (display.resolveEmployeeName id)).getD id
    localContext := shown.2
    truncated := split.truncated
    replyFile := replyFile
    replyPreview := replyFile.map fun _ => display.replyPreview shown.1
    ts := stamp.2
    failure := display.assistantFailure msg }

/-! ### Tool results -/

/-- `undefined` where there is nothing. -/
def Field.ofOption {α : Type} : Option α → Field α
  | none => .undefined
  | some value => .defined value

/-- `msg.result` -/
def Field.read {α : Type} : Field α → Field α
  | .absent => .undefined
  | field => field

/-- A tool call with its result. -/
def withResult (msg : ConversationMessage J) (tool : ToolCall J) : ToolCall J :=
  { tool with
    toolKind := .ofOption msg.toolKind
    result := .defined (splitContent display msg.content).content
    resultValue := msg.result.read
    isError := .defined (msg.isError == some true) }

/-- The step with the result, where it is the call. -/
def stepWithResult (msg : ConversationMessage J) (toolCallId : Text) :
    ThinkingStep J → ThinkingStep J
  | .reasoning text => .reasoning text
  | .tool tool =>
      if tool.id ≠ toolCallId then .tool tool
      else .tool (withResult display msg tool)

/-- The message with the result, where it has the call. -/
def attachTo (entry : ConversationEntry J) (msg : ConversationMessage J)
    (toolCallId : Text) (target : Message J F) : Option (Message J F) :=
  if target.senderEmployeeId ≠ entry.sourceEmployeeId ∨
      target.workId ≠ entry.workId then none
  else
    match target.thinkingSteps with
    | none => none
    | some steps =>
        if toolCallId ∈ toolIds steps then
          some { target with
            thinkingSteps := some (steps.map
              (stepWithResult display msg toolCallId))
            entryRefs := target.entryRefs ++ [entry.ref]
            toolCalls := target.toolCalls.map fun calls =>
              calls.map fun call =>
                if call.id = toolCallId then withResult display msg call
                else call }
        else none

/-- The last one that can be changed, changed. -/
def updateLast {α : Type} (change : α → Option α) : List α → Option (List α)
  | [] => none
  | a :: rest =>
      match updateLast change rest with
      | some rest' => some (a :: rest')
      | none => (change a).map (· :: rest)

/-- `attachToolResult` -/
def attachToolResult (msgs : List (Message J F)) (entry : ConversationEntry J)
    (msg : ConversationMessage J) : List (Message J F) :=
  match nonEmpty msg.toolCallId with
  | none => msgs
  | some toolCallId =>
      (updateLast (attachTo display entry msg toolCallId) msgs).getD msgs

/-! ### Grouping -/

/-- The sender and the work of a reply; other messages have none. -/
def workKey (message : Message J F) : Option (Text × Text) :=
  if message.role = .assistant then
    (nonEmpty message.workId).map fun work =>
      (message.senderEmployeeId.getD [], work)
  else none

/-- The file of a group: of the last text, kept over what has none. -/
def mergedReply (previous message : Message J F) :
    Option ReplyFile × Option Text :=
  match message.replyFile, message.replyPreview with
  | some file, some preview =>
      (some file, some (joined [previous.content, preview]))
  | _, _ =>
      if message.content = [] ∧ message.failure.isNone then
        match previous.replyFile, previous.replyPreview with
        | some file, some preview => (some file, some preview)
        | _, _ => (none, none)
      else (none, none)

/-- The body of the loop of `groupWorkMessages`. -/
def mergeWork (previous message : Message J F) : Message J F :=
  { previous with
    time := if message.time = [] then previous.time else message.time
    content := joined [previous.content, message.content]
    thinkingSteps := some (previous.thinkingSteps.getD [] ++
      message.thinkingSteps.getD [])
    toolCalls := some (previous.toolCalls.getD [] ++ message.toolCalls.getD [])
    entryRefs := previous.entryRefs ++ message.entryRefs
    recipientEmployeeId :=
      previous.recipientEmployeeId.or message.recipientEmployeeId
    recipientName := previous.recipientName.or message.recipientName
    truncated := previous.truncated || message.truncated
    failure := message.failure
    replyFile := (mergedReply previous message).1
    replyPreview := (mergedReply previous message).2 }

def groupWorkMessages (messages : List (Message J F)) : List (Message J F) :=
  Gathering.gather workKey mergeWork messages

/-! ### The conversion -/

/-- The message or the tool result of an entry that was not seen before. -/
def addEntry (msgs : List (Message J F)) (entry : ConversationEntry J) :
    List (Message J F) :=
  match entry.message with
  | none => msgs
  | some msg =>
      if msg.role = .toolResult then attachToolResult display msgs entry msg
      else msgs ++ [toMessage display entry msg]

/-- One entry; what has no id, and a ref that was seen, is skipped. -/
def convertStep (state : List Text × List (Message J F))
    (entry : ConversationEntry J) : List Text × List (Message J F) :=
  if entry.id = [] then state
  else if entry.ref ∈ state.1 then state
  else (state.1 ++ [entry.ref], addEntry display state.2 entry)

def entriesToMessages (entries : List (ConversationEntry J)) :
    List (Message J F) :=
  groupWorkMessages (entries.foldl (convertStep display) ([], [])).2

end

end AiTeam.Chat
