/-
`serializePiEvent` of `event-sse.ts`: what of a Pi event goes out to the
interface.  The objects of the event live on a heap and may be part of
themselves.
-/
import AiTeam.EventSse.Secrets
import AiTeam.Stringify

namespace AiTeam.PiEvent

open AiTeam.EventSse (isOneOf isSpace lower maxTextChars word)
open AiTeam.Stringify (Value)
open AiTeam.Unicode

/-! ### Values -/

/-- A number; `none` is one that is not finite. -/
abbrev Number := Option Rat

mutual

inductive Js where
  | undefined
  | null
  | bool (value : Bool)
  | num (value : Number)
  | str (text : Text)
  /-- A function, a symbol or a big integer. -/
  | other
  /-- An object that nothing else refers to. -/
  | fresh (cell : Cell)
  | shared (id : Nat)

/-- `plain` says whether the prototype is that of object literals or none. -/
inductive Cell where
  | array (items : List Js)
  | object (plain : Bool) (fields : List (Text × Js))

end

abbrev Fields := List (Text × Js)

/-- What the host provides: its objects, `homedir()`, `JSON.parse` and the text
of a finite number. -/
structure Host where
  heap : Nat → Cell
  home : Text
  parse : Text → Option Js
  numberText : Rat → Text

def Host.toText (host : Host) : Number → Text
  | none => lit "null"
  | some value => host.numberText value

def cell (host : Host) : Js → Option Cell
  | .fresh cell => some cell
  | .shared id => some (host.heap id)
  | _ => none

def asRecord (host : Host) (value : Js) : Option Fields :=
  match cell host value with
  | some (.object _ fields) => some fields
  | _ => none

def get (raw : Fields) (key : String) : Js :=
  ((raw.find? (·.1 == lit key)).map Prod.snd).getD .undefined

/-- `hasOwnProperty`. -/
def hasOwn (raw : Fields) (key : String) : Bool := raw.any (·.1 == lit key)

/-- An object that the serializer builds. -/
abbrev Record := List (Text × Value Number)

def put : Record → Text → Value Number → Record
  | [], key, value => [(key, value)]
  | (name, old) :: rest, key, value =>
      if name = key then (key, value) :: rest
      else (name, old) :: put rest key value

def putSome (record : Record) (key : String) (value : Option (Value Number)) :
    Record :=
  match value with
  | some value => put record (lit key) value
  | none => record

def field (record : Record) (key : Text) : Option (Value Number) :=
  (record.find? (·.1 == key)).map Prod.snd

mutual

/-- A value that was serialized, read again. -/
def Js.of : Value Number → Js
  | .null => .null
  | .bool value => .bool value
  | .num value => .num value
  | .str text => .str text
  | .list items => .fresh (.array (ofItems items))
  | .object fields => .fresh (.object true (ofFields fields))

def ofItems : List (Value Number) → List Js
  | [] => []
  | item :: rest => Js.of item :: ofItems rest

def ofFields : Record → Fields
  | [] => []
  | (key, value) :: rest => (key, Js.of value) :: ofFields rest

end

/-! ### The patterns, with the flag `i` -/

/-- `.test(text)` of a pattern without anchors. -/
def test (regex : Regex Nat) (text : Text) : Bool :=
  text.tails.any fun rest => !(Regex.rests id regex rest).isEmpty

/-- `.?`. -/
def gap : Regex Nat :=
  Regex.opt (.one fun u =>
    !(u == 0x0A || u == 0x0D || u == 0x2028 || u == 0x2029))

def twoWords (first last : String) : Regex Nat :=
  .seq (word first) (.seq gap (word last))

/-- `SECRET_KEY`. -/
def secretKey : Regex Nat :=
  Regex.oneOf (word "authorization")
    [twoWords "access" "token", twoWords "refresh" "token", word "token",
      twoWords "api" "key", word "credential", word "secret", word "password",
      twoWords "session" "file", word "workspace", word "cwd", word "path",
      word "filename", twoWords "file" "path", twoWords "private" "key"]

/-- `UNSAFE_VALUE_KEY`. -/
def unsafeValueKey (key : Text) : Bool :=
  [lit "api", lit "provider", lit "model", lit "raw", lit "headers",
    lit "request", lit "diagnostics", lit "session"].contains (key.map lower)

def pathUnits : Regex Nat :=
  .star (.one fun u =>
    !isSpace u && !isOneOf "\"'<>()[]\x7b\x7d，。；：！？、）】》」』" u)

/-- `INLINE_PATH`. -/
def inlinePath : Regex Nat :=
  .alt
    (.seq (word "/")
      (.seq
        (Regex.oneOf (word "Users") [word "Volumes", word "private",
          word "home", word "tmp", word "var", word "workspace", word "etc",
          word "root", word "opt", word "srv", word "mnt", word "data"])
        (.star (.seq (word "/") pathUnits))))
    (.seq (.one fun u => 97 ≤ lower u && lower u ≤ 122)
      (.seq (word ":\\") pathUnits))

/-- What `SENSITIVE_ARTIFACT_NAME` looks for between its separators. -/
def sensitiveWord : Regex Nat :=
  let mark : Regex Nat := Regex.opt (.one (isOneOf "_-"))
  Regex.oneOf (word "env") [word "secret", word "secrets", word "credential",
    word "credentials", word "password", word "passwd", word "token",
    word "private", .seq (word "api") (.seq mark (word "key")),
    .seq (word "access") (.seq mark (word "key"))]

/-- The letter that the flags `iu` compare, as far as it is from a to z. -/
def foldUnit (u : Nat) : Nat :=
  if u = 0x17F then 0x73 else if u = 0x212A then 0x6B else lower u

/-- `SENSITIVE_ARTIFACT_NAME.test(name)`. -/
def isSensitiveName (name : Text) : Bool :=
  let starts := name :: name.tails.filterMap fun
    | u :: rest => if isOneOf "._-" u then some rest else none
    | [] => none
  starts.any fun start =>
    (Regex.rests foldUnit sensitiveWord start).any fun rest =>
      rest.head?.all (isOneOf "._-")

/-! ### Texts -/

def redactSecrets (text : Text) : Text := EventSse.redactSecrets id id text

def boundText (text : Text) (max : Nat) : Text := EventSse.boundText id text max

def safeMessageText (text : Text) (max : Nat) : Text :=
  boundText (redactSecrets text) max

/-- `PATH_TRAILING_PUNCTUATION`. -/
def trailing (found : Text) : Text :=
  (found.reverse.takeWhile (isOneOf ".,;:!?")).reverse

def redactPathsFrom : Nat → Text → Text
  | 0, _ => []
  | _ + 1, [] => []
  | fuel + 1, c :: text =>
      match Regex.rests id inlinePath (c :: text) with
      | rest :: _ =>
          lit "[路径已隐藏]" ++
            trailing ((c :: text).take ((c :: text).length - rest.length)) ++
            redactPathsFrom fuel rest
      | [] => c :: redactPathsFrom fuel text

def redactInlinePaths (text : Text) : Text := redactPathsFrom text.length text

def safeText (text : Text) (max : Nat) : Text :=
  boundText (redactInlinePaths (redactSecrets text)) max

/-- The home directory followed by the end or by one of the separators. -/
def shortenFrom (root : Text) : Nat → Text → Text
  | 0, _ => []
  | _ + 1, [] => []
  | fuel + 1, c :: text =>
      let rest := (c :: text).drop root.length
      if root.isPrefixOf (c :: text) && rest.head?.all fun u =>
          isSpace u || isOneOf "\\/\"'<>()[]\x7b\x7d" u then
        lit "~" ++ shortenFrom root fuel rest
      else c :: shortenFrom root fuel text

def shortenHome (text home : Text) : Text :=
  let root := (home.reverse.dropWhile (isOneOf "\\/")).reverse
  if root.length < 2 then text else shortenFrom root text.length text

def maxFailureMessageChars : Nat := 1000

def failureText (host : Host) (text : Text) : Text :=
  boundText (shortenHome (redactSecrets text) host.home) maxFailureMessageChars

/-! ### Bounded values -/

def maxArrayItems : Nat := 32

def maxObjectKeys : Nat := 24

def maxJsonDepth : Nat := 4

section Bounded

variable (host : Host)

/-- An array or an object, its parts bounded by `part`. -/
def boundedCell (part : Text → List Nat → Js → Option (Value Number))
    (seen : List Nat) : Cell → Option (Value Number)
  | .array items =>
      some (.list ((items.take maxArrayItems).filterMap (part [] seen)))
  | .object false _ => some (.str (lit "[对象已省略]"))
  | .object true fields =>
      -- assigned, the key `__proto__` makes no field
      some (.object ((fields.take maxObjectKeys).filterMap fun (key, value) =>
        if key = lit "__proto__" then none
        else (part key seen value).map (key, ·)))

/-- A value, its object bounded by `object`.  `seen` holds the objects that
the value is part of. -/
def boundedNode (object : List Nat → Cell → Option (Value Number))
    (key : Text) (seen : List Nat) (value : Js) : Option (Value Number) :=
  if test secretKey key || unsafeValueKey key then none
  else
    match value with
    | .undefined => none
    | .other => none
    | .null => some .null
    | .bool value => some (.bool value)
    | .num value => some (.num value)
    | .str text => some (.str (safeText text maxTextChars))
    | .fresh cell => object seen cell
    | .shared id =>
        if seen.contains id then some (.str (lit "[内容已省略]"))
        else object (id :: seen) (host.heap id)

/-- `boundedValue` where the depth may still grow by `left`. -/
def boundedValue : Nat → Text → List Nat → Js → Option (Value Number)
  | 0 => boundedNode host fun _ _ => some (.str (lit "[内容已省略]"))
  | left + 1 => boundedNode host (boundedCell (boundedValue left))

end Bounded

end AiTeam.PiEvent
