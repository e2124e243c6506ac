/-
`serializePiEvent`: the record of an event, and the smaller one that goes out
where it is over the budget.
-/
import Mathlib.Algebra.GroupWithZero.Nat
import AiTeam.EventSse.Payload

namespace AiTeam.PiEvent

open AiTeam.EventSse (isSpace maxTextChars)
open AiTeam.Stringify (Value stringify)
open AiTeam.Unicode

def maxEventBytes : Nat := 24 * 1024

def maxMessageTextChars : Nat := 200000

def maxToolNameChars : Nat := 128

def maxIdentifierChars : Nat := 256

def maxFileNameChars : Nat := 255

def maxSourceNameChars : Nat := 256

/-- A text that is one of those given. -/
def oneOfTexts (values : List String) (value : Js) : Option Text :=
  match value with
  | .str text => if values.any (lit · == text) then some text else none
  | _ => none

/-! ### Single fields -/

def boundedIdentifier (value : Js) (max : Nat) : Option Text :=
  match value with
  | .str text => if text.all isSpace then none else some (safeText text max)
  | _ => none

/-- `if (value) record[key] = value`. -/
def putText (record : Record) (key : String) (value : Option Text) : Record :=
  match value with
  | some text => if text = [] then record else put record (lit key) (.str text)
  | none => record

def copyToolName (record : Record) (raw : Fields) : Record :=
  putText record "toolName"
    (boundedIdentifier (get raw "toolName") maxToolNameChars)

def copyIdentifier (raw : Fields) (record : Record) (key : String) : Record :=
  putText record key (boundedIdentifier (get raw key) maxIdentifierChars)

/-- A text of the event, changed by `shown`. -/
def copyWith (shown : Text → Text) (raw : Fields) (record : Record)
    (key : String) : Record :=
  match get raw key with
  | .str text => put record (lit key) (.str (shown text))
  | _ => record

def copyApprovalSummary (record : Record) (raw : Fields) : Record :=
  copyWith (safeMessageText · maxTextChars) raw record "summary"

def copyText (raw : Fields) (record : Record) (key : String) : Record :=
  copyWith (safeText · maxTextChars) raw record key

def copyFailure (host : Host) (raw : Fields) (record : Record) (key : String) :
    Record :=
  copyWith (failureText host) raw record key

/-- `Number.isInteger(value) && value >= 0`. -/
def isCount (value : Number) : Bool :=
  match value with
  | some value => value.den == 1 && 0 ≤ value.num
  | none => false

def copyInteger (raw : Fields) (record : Record) (key : String) : Record :=
  match get raw key with
  | .num value =>
      if isCount value then put record (lit key) (.num value) else record
  | _ => record

def copyBoolean (raw : Fields) (record : Record) (key : String) : Record :=
  match get raw key with
  | .bool value => put record (lit key) (.bool value)
  | _ => record

/-- A field that is one of the texts given, or left out. -/
def copyOneOf (values : List String) (raw : Fields) (record : Record)
    (key : String) : Record :=
  putSome record key ((oneOfTexts values (get raw key)).map .str)

def copyReason (record : Record) (raw : Fields) : Record :=
  copyOneOf ["manual", "threshold", "overflow"] raw record "reason"

def classifyToolKind (toolName : Js) : Option Text :=
  if (oneOfTexts ["todo_update"] toolName).isSome then some (lit "todo")
  else if (oneOfTexts ["knowledge_search", "knowledge_get"] toolName).isSome
    then some (lit "rag")
  else if (oneOfTexts ["hindsight_recall", "hindsight_retain",
    "memory_recall", "memory_retain"] toolName).isSome
    then some (lit "memory")
  else none

def sourceRoles : List String :=
  ["human", "child", "participant", "coordinator"]

def serializeMetadata (record : Record) (extra : Fields) : Record :=
  let record := ["conversation_id", "source_ref", "tool_call_id",
    "source_employee_id"].foldl (copyIdentifier extra) record
  let record := putText record "source_employee_display_name"
    (boundedIdentifier (get extra "source_employee_display_name")
      maxSourceNameChars)
  copyOneOf sourceRoles extra record "source_role"

/-! ### Tool calls -/

section

variable (host : Host)

/-- `safeToolValue`, whatever the kind of the tool. -/
def safeToolValue (value : Js) : Option (Value Number) :=
  boundedValue host maxJsonDepth [] [] value

/-- The joined texts of the parts of a tool's answer. -/
def partTexts (items : List Js) : Text :=
  (items.filterMap (asRecord host)).flatMap fun part =>
    match oneOfTexts ["text"] (get part "type"), get part "text" with
    | some _, .str text => text
    | _, _ => []

def unwrapToolResult (value : Js) : Js :=
  match asRecord host value with
  | none => value
  | some raw =>
      let text := match cell host (get raw "content") with
        | some (.array items) => partTexts host items
        | _ => []
      if text ≠ [] then
        let bounded := safeText text maxTextChars
        (host.parse bounded).getD
          (.fresh (.object true [(lit "text", .str bounded)]))
      else
        match get raw "details" with
        | .undefined => value
        | details => details

def safeToolResult (value : Js) : Option (Value Number) :=
  safeToolValue host (unwrapToolResult host value)

/-- `isSafeArtifactFilename` of a name without a separator. -/
def isSafeArtifactFilename (name : Text) : Bool :=
  name.head? != some 0x2E && !isSensitiveName name

def toolFileName (raw : Fields) : Option Text :=
  match oneOfTexts ["read", "write", "edit"] (get raw "toolName"),
    (asRecord host (get raw "args")).map (get · "path") with
  | some _, some (.str path) =>
      let name := (path.reverse.takeWhile fun u => u ≠ 0x5C ∧ u ≠ 0x2F).reverse
      if name = [] || name = lit "." || name = lit ".." ||
          maxFileNameChars < (points name).length then none
      else if name.any (fun u => u < 0x20 || u == 0x7F) ||
          !isSafeArtifactFilename name then none
      else if safeText name maxFileNameChars = name then some name
      else none
  | _, _ => none

def serializeToolCall (value : Fields) : Option (Value Number) :=
  let id := boundedIdentifier (get value "id") maxIdentifierChars
  let name := boundedIdentifier (get value "name") maxToolNameChars
  if id.getD [] = [] && name.getD [] = [] then none
  else
    let record := copyOneOf ["toolCall", "tool_call", "toolUse", "tool_use"]
      value [] "type"
    let record := putText record "id" id
    let record := putText record "name" name
    some (.object (if hasOwn value "arguments"
      then putSome record "arguments"
        (safeToolValue host (get value "arguments"))
      else record))

/-- `serializeToolEvent` of an event of the type. -/
def serializeToolEvent (type : String) (record : Record) (raw : Fields) :
    Record :=
  let record := copyIdentifier raw record "toolCallId"
  let record := copyToolName record raw
  let record := putText record "tool_kind"
    (classifyToolKind (get raw "toolName"))
  if type = "tool_execution_end" then
    let record := if hasOwn raw "result"
      then putSome record "result" (safeToolResult host (get raw "result"))
      else record
    copyBoolean raw record "isError"
  else
    let record := if hasOwn raw "args"
      then putSome record "args" (safeToolValue host (get raw "args"))
      else record
    let record := putText record "file_name" (toolFileName host raw)
    if type = "tool_execution_update" && hasOwn raw "partialResult"
      then putSome record "partialResult"
        (safeToolResult host (get raw "partialResult"))
      else record

/-! ### Messages -/

/-- A part of a message, its texts shown by `text`.  A text of the body says
that it was cut. -/
def serializePart (body : Bool) (text : Text → Text) (max : Nat) (part : Js) :
    Option (Value Number) := do
  let raw ← asRecord host part
  match get raw "type", get raw "text", get raw "thinking" with
  | .str type, shown, thinking =>
      if type = lit "text" then
        match shown with
        | .str content =>
            let item : Record := [(lit "type", .str type),
              (lit "text", .str (text content))]
            some (.object (if body && max < (redactSecrets content).length
              then put item (lit "truncated") (.bool true) else item))
        | _ => none
      else if type = lit "thinking" then
        match thinking with
        | .str content => some (.object [(lit "type", .str type),
            (lit "thinking", .str (safeText content maxTextChars))])
        | _ => none
      else if type = lit "toolCall" then serializeToolCall host raw
      else if type = lit "image" then some (.object [(lit "type", .str type)])
      else none
  | _, _, _ => none

def serializeContent (value : Js) (body : Bool) (max : Nat) :
    Option (Value Number) :=
  let text := fun content =>
    if body then safeMessageText content max else safeText content max
  match value with
  | .str content => some (.str (text content))
  | value =>
      match cell host value with
      | some (.array items) => some (.list ((items.take maxArrayItems).filterMap
          (serializePart host body text max)))
      | _ => none

def stopReasons : List String :=
  ["stop", "length", "toolUse", "deferred", "aborted", "error"]

def serializeMessage (value : Js) (bodyMax : Nat) : Option (Value Number) := do
  let raw ← asRecord host value
  let role ← oneOfTexts ["user", "assistant", "toolResult"] (get raw "role")
  let record : Record := [(lit "role", .str role)]
  let record := match get raw "timestamp" with
    | .num (some time) => put record (lit "timestamp") (.num (some time))
    | _ => record
  let content := if role = lit "toolResult"
    then serializeContent host (get raw "content") false maxTextChars
    else serializeContent host (get raw "content") true bodyMax
  let record := putSome record "content" content
  if role = lit "assistant" then
    let record := copyOneOf stopReasons raw record "stopReason"
    some (.object
      (if (oneOfTexts ["error"] (get raw "stopReason")).isSome
        then copyFailure host raw record "errorMessage" else record))
  else if role = lit "toolResult" then
    let record := copyIdentifier raw record "toolCallId"
    let record := copyToolName record raw
    let record := copyBoolean raw record "isError"
    match classifyToolKind (get raw "toolName"), content with
    | none, _ => some (.object record)
    | some kind, none =>
        some (.object (put record (lit "tool_kind") (.str kind)))
    | some kind, some content =>
        some (.object (putSome (put record (lit "tool_kind") (.str kind))
          "result" (safeToolResult host
            (.fresh (.object true [(lit "content", Js.of content)])))))
  else some (.object record)

def serializeAssistantMessageEvent (value : Js) : Option (Value Number) := do
  let raw ← asRecord host value
  let type ← oneOfTexts EventSse.assistantEvents (get raw "type")
  let record : Record := [(lit "type", .str type)]
  let record := match get raw "contentIndex" with
    | .num (some index) =>
        if isCount (some index) && index < 1000
          then put record (lit "contentIndex") (.num (some index)) else record
    | _ => record
  let text :=
    if (lit "text_").isPrefixOf type then safeMessageText else safeText
  let record := copyWith (text · maxTextChars) raw record "delta"
  let record := copyWith (text · maxTextChars) raw record "content"
  let record := copyOneOf stopReasons raw record "reason"
  some (.object (putSome record "toolCall"
    (serializeToolCall host ((asRecord host (get raw "toolCall")).getD []))))

/-! ### The budget -/

/-- `Buffer.byteLength(JSON.stringify(value), "utf8")`. -/
def jsonBytes (value : Value Number) : Nat :=
  (bufferFrom (stringify host.toText value)).length

/-- The fields of a record that was serialized. -/
def fieldsOf : Value Number → Record
  | .object fields => fields
  | _ => []

/-- The bytes of the bodies of a message of the user or the assistant. -/
def bodyBytes (message : Option (Value Number)) : Nat :=
  let raw := fieldsOf (message.getD .null)
  match field raw (lit "role"), field raw (lit "content") with
  | some (.str role), some content =>
      if role = lit "user" ∨ role = lit "assistant" then
        match content with
        | .str text => jsonBytes host (.str text)
        | .list items => (items.map fun item =>
            match field (fieldsOf item) (lit "type"),
              field (fieldsOf item) (lit "text") with
            | some (.str type), some (.str text) =>
                if type = lit "text" then jsonBytes host (.str text) else 0
            | _, _ => 0).sum
        | _ => 0
      else 0
  | _, _ => 0

/-- The fields that go out in any case. -/
def minimalKeys : List Text :=
  [lit "type", lit "conversation_id", lit "source_ref", lit "tool_call_id",
    lit "source_employee_id", lit "source_employee_display_name",
    lit "source_role", lit "tool_kind", lit "toolName", lit "toolCallId",
    lit "isError"]

def minimalEvent (record : Record) : Record :=
  minimalKeys.filterMap fun key =>
    (field record key).map fun value => (key, value)

/-- The size that the budget is for. -/
def budgeted (record : Record) : Int :=
  (jsonBytes host (.object record) : Int) -
    bodyBytes host (field record (lit "message"))

def boundEvent (record : Record) : Record :=
  if budgeted host record ≤ maxEventBytes then record else minimalEvent record

/-! ### Events -/

def toolEvents : List String :=
  ["tool_execution_start", "tool_execution_update", "tool_execution_end"]

def allowedEvents : List String :=
  ["agent_start", "agent_end", "agent_settled", "message_update",
    "message_end"] ++ toolEvents ++ ["auto_retry_start", "auto_retry_end",
    "compaction_start", "compaction_end", "approval_required"]

def serializeApproval (record : Record) (raw : Fields) : Record :=
  let record := ["toolCallId", "approvalId", "approval_id", "approvalBatchId",
    "argsHash"].foldl (copyIdentifier raw) record
  let record := copyInteger raw record "decisionRevision"
  let record := copyText raw record "expiresAt"
  let record := copyApprovalSummary record raw
  let record := copyText raw record "riskLevel"
  let record := copyToolName record raw
  let record := putText record "tool_kind"
    (classifyToolKind (get raw "toolName"))
  if hasOwn raw "args"
    then putSome record "args" (safeToolValue host (get raw "args"))
    else record

/-- The fields of an event of the type. -/
def serializeFields (type : String) (record : Record) (raw : Fields) : Record :=
  let failed := fun record =>
    let record := copyBoolean raw record "failed"
    let record := copyIdentifier raw record "error_code"
    copyFailure host raw record "error_message"
  if type ∈ toolEvents then serializeToolEvent host type record raw
  else match type with
    | "message_update" =>
        let message := serializeMessage host (get raw "message") maxTextChars
        let event := serializeAssistantMessageEvent host
          (get raw "assistantMessageEvent")
        putSome (putSome record "message" message) "assistantMessageEvent" event
    | "message_end" =>
        putSome record "message"
          (serializeMessage host (get raw "message") maxMessageTextChars)
    | "agent_end" =>
        failed (match cell host (get raw "messages") with
          | some (.array items) => put record (lit "message_count")
              (.num (some (min items.length maxArrayItems : Nat)))
          | _ => record)
    | "agent_settled" => failed record
    | "auto_retry_start" =>
        copyText raw (["attempt", "maxAttempts", "delayMs"].foldl
          (copyInteger raw) record) "errorMessage"
    | "auto_retry_end" =>
        copyText raw (copyInteger raw (copyBoolean raw record "success")
          "attempt") "finalError"
    | "compaction_start" => copyReason record raw
    | "compaction_end" =>
        copyText raw (copyBoolean raw (copyBoolean raw (copyReason record raw)
          "aborted") "willRetry") "errorMessage"
    | "approval_required" => serializeApproval host record raw
    | _ => record

def serializePiEvent (event : Js) (extra : Fields) : Option Record := do
  let raw ← asRecord host event
  let type ← allowedEvents.find? fun type =>
    (oneOfTexts [type] (get raw "type")).isSome
  let record := serializeMetadata [(lit "type", .str (lit type))] extra
  some (boundEvent host (serializeFields host type record raw))

end

end AiTeam.PiEvent
