/-
What LightRAG answers a query with, as decoded JSON, and how its fields are
read: a field may stand in the item, in its metadata, or in both.
-/
import Mathlib.Data.Rat.Defs
import AiTeam.Table
import AiTeam.Text

namespace AiTeam.Rag

abbrev Text := List Char

/-- A number with a fraction is kept as its shortest literal. -/
inductive Json where
  | null
  | bool (value : Bool)
  | int (value : Int)
  | float (literal : String)
  | str (value : String)
  | list (items : List Json)
  | object (fields : List (String × Json))

/-- What the service takes from its runtime: `str` of a list or an object,
`==` of two decoded values, `float` of a number when it is finite, `isoformat`
of a time, the digest of a text and whether a JSON answer fits its limit. -/
structure Runtime (Digest : Type) (Answer : Type) where
  repr : Json → String
  same : Json → Json → Bool
  float : Json → Option Rat
  isoformat : Int → String
  sha256 : String → Digest
  fits : Answer → Bool

namespace Json

def isNull : Json → Bool
  | .null => true
  | _ => false

/-- `value.get(name)` of an object. -/
def field (name : String) : Json → Option Json
  | .object fields => valueAt name fields
  | _ => none

/-- `str(value)`. -/
def text (repr : Json → String) : Json → String
  | .null => "None"
  | .bool true => "True"
  | .bool false => "False"
  | .int value => toString value
  | .float literal => literal
  | .str value => value
  | value => repr value

/-- The items of a list that are objects; nothing of any other value. -/
def objects : Option Json → List Json
  | some (.list items) => items.filter fun
      | .object _ => true
      | _ => false
  | _ => []

end Json

/-- `str.isspace` of one character. -/
def isSpace (c : Char) : Bool :=
  let code := c.toNat
  (9 ≤ code && code ≤ 13) || (28 ≤ code && code ≤ 32) || code == 133 ||
    code == 160 || code == 5760 || (8192 ≤ code && code ≤ 8202) ||
    code == 8232 || code == 8233 || code == 8239 || code == 8287 ||
    code == 12288

/-! ### Fields of an item -/

/-- `_upstream_value`. -/
inductive UpstreamValue where
  | absent
  | ambiguous
  | value (value : Json)

/-- A field that is missing or null. -/
def present (value : Option Json) : Option Json :=
  value.filter (!·.isNull)

def upstreamValue (same : Json → Json → Bool) (item : Json) (name : String) :
    UpstreamValue :=
  let value := present (item.field name)
  let metadataValue :=
    present ((item.field "metadata").bind (Json.field name))
  match value, metadataValue with
  | some value, some metadataValue =>
      if same value metadataValue then .value value else .ambiguous
  | some value, none => .value value
  | none, some metadataValue => .value metadataValue
  | none, none => .absent

/-- `item.get("content", item.get("text"))`. -/
def rawContent (item : Json) : Option Json :=
  (item.field "content").or (item.field "text")

def contentText (item : Json) : Text :=
  match rawContent item with
  | some (.str value) => value.toList
  | _ => []

/-- `_content_value`. -/
def contentValue (item : Json) : Text :=
  match rawContent item with
  | some (.str value) => value.toList
  | some (.list items) =>
      List.intercalate ['\n'] (items.filterMap fun
        | .str value => some value.toList
        | _ => none)
  | _ => []

/-- `_score_value`: the first finite number. -/
def scoreValue (float : Json → Option Rat) (item : Json)
    (fallback : Option Json) : Rat :=
  let score (source : Json) : Option Rat :=
    match source.field "score" with
    | some (.int value) => float (.int value)
    | some (.float literal) => float (.float literal)
    | _ => none
  ((score item).or (fallback.bind score)).getD 0

/-- The chunk id, when it can be used. -/
def chunkId (same : Json → Json → Bool) (item : Json) : Option String :=
  match upstreamValue same item "chunk_id" with
  | .value (.str value) =>
      if value.toList.all isSpace || 1024 < value.length ||
          value.toList.any (fun c => c == '\r' || c == '\n') then none
      else some value
  | _ => none

/-- `order` and `order_invalid`. -/
inductive Order where
  | absent
  | invalid
  | position (index : Nat)
deriving DecidableEq

def chunkOrder (same : Json → Json → Bool) (item : Json) : Order :=
  let order := match upstreamValue same item "chunk_order_index" with
    | .absent => upstreamValue same item "chunk_index"
    | order => order
  match order with
  | .absent => .absent
  | .value (.int value) =>
      if 0 ≤ value ∧ value ≤ 999999999 then .position value.toNat
      else .invalid
  | _ => .invalid

end AiTeam.Rag
