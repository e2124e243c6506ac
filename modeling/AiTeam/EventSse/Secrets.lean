/-
The redaction of `event-sse.ts`: credentials in assistant text, and the text
deltas of a live stream.  Texts are lists of UTF-16 code units.
-/
import AiTeam.Redaction
import AiTeam.Regex
import AiTeam.Unicode

namespace AiTeam.EventSse

open AiTeam.Redaction
open AiTeam.Unicode (Text lit)

/-! ### The patterns, with the flag `i` -/

def lower (u : Nat) : Nat := if 65 ≤ u ∧ u ≤ 90 then u + 32 else u

def isOneOf (chars : String) (u : Nat) : Bool := (lit chars).contains u

def isAlphanumeric (u : Nat) : Bool :=
  (48 ≤ u && u ≤ 57) || (97 ≤ lower u && lower u ≤ 122)

/-- `\s`. -/
def isSpace (u : Nat) : Bool :=
  (9 ≤ u && u ≤ 13) || u == 0x20 || u == 0xA0 || u == 0x1680 ||
    (0x2000 ≤ u && u ≤ 0x200A) || u == 0x2028 || u == 0x2029 ||
    u == 0x202F || u == 0x205F || u == 0x3000 || u == 0xFEFF

def word (s : String) : Regex Nat :=
  Regex.chars ((lit s).map fun c u => lower u == lower c)

def spaces : Regex Nat := .star (.one isSpace)

/-- `(?:bearer\s+|basic\s+|(?:sk|pk|rk)-)[a-z0-9._~+/=-]+`. -/
def bearerSecret : Regex Nat :=
  .seq
    (Regex.oneOf (.seq (word "bearer") (Regex.plus (.one isSpace)))
      [.seq (word "basic") (Regex.plus (.one isSpace)),
        .seq (Regex.oneOf (word "sk") [word "pk", word "rk"]) (word "-")])
    (Regex.plus (.one fun u => isAlphanumeric u || isOneOf "._~+/=-" u))

/-- `(?:token|secret|password|api[ _-]?key)\s*[:=]\s*[^\s,;]+`. -/
def namedSecret : Regex Nat :=
  .seq
    (Regex.oneOf (word "token") [word "secret", word "password",
      .seq (word "api")
        (.seq (Regex.opt (.one (isOneOf " _-"))) (word "key"))])
    (.seq spaces (.seq (.one (isOneOf ":=")) (.seq spaces
      (Regex.plus (.one fun u => !isSpace u && !isOneOf ",;" u)))))

/-- `INLINE_SECRET`. -/
def inlineSecret : Regex Nat := .alt bearerSecret namedSecret

/-- The group of `URL_SECRET_PARAM`. -/
def urlParameter : Regex Nat :=
  .seq (.one (isOneOf "?&;"))
    (.seq
      (.star (.seq (Regex.plus (.one isAlphanumeric)) (.one (isOneOf "_.-"))))
      (.seq
        (Regex.oneOf (word "key") [word "apikey", word "token", word "secret",
          word "signature", word "sig", word "password", word "passwd",
          word "pwd", word "credential", word "auth"])
        (word "=")))

/-- What follows the group of `URL_SECRET_PARAM`. -/
def urlValue : Regex Nat :=
  Regex.plus (.one fun u => !isSpace u && !isOneOf "&#\"'<>" u)

section

variable {α : Type} (view : α → Nat)

/-- The match of `ANY_SECRET` at the beginning of a text: the length of the
group, which stays, and of what is hidden. -/
def anySecret (text : List α) : Option (Nat × Nat) :=
  let urls := (Regex.rests view urlParameter text).flatMap fun value =>
    (Regex.rests view urlValue value).map fun rest => (value, rest)
  match urls with
  | (value, rest) :: _ =>
      some (text.length - value.length, value.length - rest.length)
  | [] =>
      match Regex.rests view inlineSecret text with
      | rest :: _ => some (0, text.length - rest.length)
      | [] => none

theorem anySecret_sound {text : List α} {kept hidden : Nat}
    (h : anySecret view text = some (kept, hidden)) :
    0 < hidden ∧ kept + hidden ≤ text.length := by
  rw [anySecret] at h
  split at h
  · next value rest more hurls =>
      obtain ⟨rfl, rfl⟩ := Prod.mk.inj (Option.some.inj h)
      have hmem : (value, rest) ∈
          (Regex.rests view urlParameter text).flatMap fun value =>
            (Regex.rests view urlValue value).map fun rest => (value, rest) :=
        hurls ▸ List.mem_cons_self
      obtain ⟨other, hvalue, hrest⟩ := List.mem_flatMap.mp hmem
      obtain ⟨left, hleft, hpair⟩ := List.mem_map.mp hrest
      obtain ⟨rfl, rfl⟩ := Prod.mk.inj hpair
      have hgroup := Regex.length_rests hvalue
      have hlength : left.length + 1 ≤ other.length := Regex.length_rests hleft
      omega
  · split at h
    · next rest more hrests =>
        obtain ⟨rfl, rfl⟩ := Prod.mk.inj (Option.some.inj h)
        have hmem : rest ∈ Regex.rests view inlineSecret text :=
          hrests ▸ List.mem_cons_self
        have hlength := Regex.length_rests hmem
        have hpos : 0 < inlineSecret.minLength := by decide
        omega
    · exact nomatch h

def secretFinder : Finder α where
  find := anySecret view
  sound := anySecret_sound view

/-- The credentials that `redactSecrets` removes. -/
def credentials (text : List α) : List (List α) :=
  blocks (secretFinder view) text

/-! ### Bounded text -/

def placeholder : Text := lit "[内容已隐藏]"

def ellipsis : Nat := 0x2026

variable (write : Nat → α)

def redactSecrets (text : List α) : List α :=
  redact (secretFinder view) (placeholder.map write) text

def boundText (text : List α) (max : Nat) : List α :=
  bound max (write ellipsis) text

def safeMessageText (text : List α) (max : Nat) : List α :=
  boundText write (redactSecrets view write text) max

/-! ### Assistant events -/

def maxTextChars : Nat := 4000

def assistantEvents : List String :=
  ["start", "text_start", "text_delta", "text_end", "thinking_start",
    "thinking_delta", "thinking_end", "toolcall_start", "toolcall_delta",
    "toolcall_end", "done", "error"]

def reasons : List String :=
  ["stop", "length", "toolUse", "deferred", "aborted", "error"]

/-- An assistant event without the tool call it may carry. -/
structure AssistantMessageEvent (α : Type) where
  type : String
  contentIndex : Option Int
  delta : Option (List α)
  content : Option (List α)
  reason : Option String

def AssistantMessageEvent.map {β : Type} (f : α → β)
    (event : AssistantMessageEvent α) : AssistantMessageEvent β where
  type := event.type
  contentIndex := event.contentIndex
  delta := event.delta.map (List.map f)
  content := event.content.map (List.map f)
  reason := event.reason

/-- `serializeAssistantMessageEvent`; `safeText` also hides paths. -/
def serializeAssistantMessageEvent (safeText : List α → Nat → List α)
    (raw : AssistantMessageEvent α) : Option (AssistantMessageEvent α) :=
  if raw.type ∈ assistantEvents then
    let text := if "text_".toList.isPrefixOf raw.type.toList
      then safeMessageText view write else safeText
    some
      { type := raw.type
        contentIndex := raw.contentIndex.filter fun index =>
          0 ≤ index && index < 1000
        delta := raw.delta.map fun delta => text delta maxTextChars
        content := raw.content.map fun content => text content maxTextChars
        reason := raw.reason.filter (· ∈ reasons) }
  else none

/-! ### Text deltas -/

/-- A `text_delta` of a live `message_update`.  `fits` says whether the update,
with the snapshot of the message it repeats, stays within `MAX_EVENT_BYTES`:
one that does not goes out as a minimal event. -/
structure TextDelta (α : Type) where
  contentIndex : Option Int
  text : List α
  fits : AssistantMessageEvent Nat → Bool

def TextDelta.raw (delta : TextDelta α) : AssistantMessageEvent α where
  type := "text_delta"
  contentIndex := delta.contentIndex
  delta := some delta.text
  content := none
  reason := none

/-- The event of a delta after its serialization. -/
def TextDelta.serialized (delta : TextDelta α) : AssistantMessageEvent α where
  type := "text_delta"
  contentIndex := delta.contentIndex.filter fun index =>
    0 ≤ index && index < 1000
  delta := some (safeMessageText view write delta.text maxTextChars)
  content := none
  reason := none

theorem serialize_raw (safeText : List α → Nat → List α)
    (delta : TextDelta α) :
    serializeAssistantMessageEvent view write safeText delta.raw =
      some (delta.serialized view write) := by
  have hknown : delta.raw.type ∈ assistantEvents := by
    show "text_delta" ∈ assistantEvents
    decide
  have htext : "text_".toList.isPrefixOf delta.raw.type.toList = true := by
    show "text_".toList.isPrefixOf "text_delta".toList = true
    decide
  rw [serializeAssistantMessageEvent, if_pos hknown]
  simp only [htext, if_true]
  rfl

/-- The delta that goes out over SSE. -/
def emitted (safeText : List α → Nat → List α) (delta : TextDelta α) :
    List α :=
  match serializeAssistantMessageEvent view write safeText delta.raw with
  | some event => if delta.fits (event.map view) then event.delta.getD []
    else []
  | none => []

/-- The assistant text, and what the deltas make of it. -/
def source (deltas : List (TextDelta α)) : List α :=
  deltas.flatMap (·.text)

def streamed (safeText : List α → Nat → List α) (deltas : List (TextDelta α)) :
    List α :=
  deltas.flatMap (emitted view write safeText)

end

end AiTeam.EventSse
