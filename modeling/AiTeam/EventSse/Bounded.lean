/-
The bounds of what goes out: of a single value, and of a whole event.
-/
import AiTeam.EventSse.Event

namespace AiTeam.PiEvent

open AiTeam.EventSse (maxTextChars)
open AiTeam.JsonText (escapeUnits quoteUnits shortEscape unicodeEscape)
open AiTeam.Stringify (Value stringify writeFields)
open AiTeam.Unicode

/-! ### Bounded values -/

/-- Nested at most `left` deep, with bounded arrays, objects and strings, and
without a secret key. -/
def Within : Nat → Value Number → Prop
  | _, .null => True
  | _, .bool _ => True
  | _, .num _ => True
  | _, .str text => text.length ≤ maxTextChars
  | 0, .list _ => False
  | 0, .object _ => False
  | left + 1, .list items =>
      items.length ≤ maxArrayItems ∧ ∀ item ∈ items, Within left item
  | left + 1, .object fields =>
      fields.length ≤ maxObjectKeys ∧ ∀ field ∈ fields,
        test secretKey field.1 = false ∧ Within left field.2

theorem boundText_length (text : Text) {max : Nat} (h : 0 < max) :
    (boundText text max).length ≤ max := by
  rw [boundText, EventSse.boundText, Redaction.bound]
  split
  · assumption
  · rw [List.length_append, List.length_take, List.length_singleton]
    omega

theorem safeText_length (text : Text) {max : Nat} (h : 0 < max) :
    (safeText text max).length ≤ max := boundText_length _ h

variable {text key : Text} {left : Nat} {value : Js} {record : Record}

theorem within_str (h : text.length ≤ maxTextChars) :
    Within left (.str text) := by
  cases left <;> exact h

theorem boundedNode_within {host : Host}
    {object : List Nat → Cell → Option (Value Number)}
    (hobject : ∀ seen cell, ∀ value ∈ object seen cell, Within left value)
    {seen : List Nat} :
    ∀ result ∈ boundedNode host object key seen value,
      test secretKey key = false ∧ Within left result := by
  intro result hresult
  unfold boundedNode at hresult
  split at hresult
  · cases hresult
  · rename_i hkey
    rw [Bool.or_eq_true, not_or, Bool.not_eq_true] at hkey
    refine ⟨hkey.1, ?_⟩
    cases value with
    | undefined => cases hresult
    | other => cases hresult
    | null => cases hresult; cases left <;> trivial
    | bool value => cases hresult; cases left <;> trivial
    | num value => cases hresult; cases left <;> trivial
    | str text =>
        cases hresult
        exact within_str (safeText_length text (by decide))
    | fresh cell => exact hobject seen cell result hresult
    | shared id =>
        dsimp only at hresult
        split at hresult
        · cases hresult
          exact within_str (by decide)
        · exact hobject _ _ result hresult

theorem boundedCell_within
    {part : Text → List Nat → Js → Option (Value Number)}
    (hpart : ∀ key seen value, ∀ result ∈ part key seen value,
      test secretKey key = false ∧ Within left result) {seen : List Nat}
    {cell : Cell} :
    ∀ result ∈ boundedCell part seen cell, Within (left + 1) result := by
  intro result hresult
  rcases cell with items | ⟨_ | _, fields⟩
  · cases hresult
    constructor
    · exact (List.length_filterMap_le _ _).trans (List.length_take_le _ _)
    · intro item hitem
      obtain ⟨value, -, hvalue⟩ := List.mem_filterMap.mp hitem
      exact (hpart _ _ _ item hvalue).2
  · cases hresult
    exact within_str (by decide)
  · cases hresult
    constructor
    · exact (List.length_filterMap_le _ _).trans (List.length_take_le _ _)
    · intro field hfield
      obtain ⟨⟨key, value⟩, -, hvalue⟩ := List.mem_filterMap.mp hfield
      dsimp only at hvalue
      split at hvalue
      · cases hvalue
      · obtain ⟨clean, hclean, rfl⟩ := Option.map_eq_some_iff.mp hvalue
        exact hpart key seen value clean hclean

theorem boundedValue_within (host : Host) (left : Nat) (key : Text)
    (seen : List Nat) (value : Js) :
    ∀ result ∈ boundedValue host left key seen value,
      test secretKey key = false ∧ Within left result := by
  induction left generalizing key seen value with
  | zero =>
      apply boundedNode_within
      intro _ _ result hresult
      cases hresult
      exact within_str (by decide)
  | succ left ih =>
      apply boundedNode_within
      intro _ _ result hresult
      exact boundedCell_within ih result hresult

/-! ### Bytes -/

/-- A bound on the bytes that each code unit takes. -/
def weight (text : Text) : Nat :=
  (text.map fun u => if u < 0x80 then 1 else 4).sum

@[simp] theorem weight_append (a b : Text) :
    weight (a ++ b) = weight a + weight b := by
  simp [weight]

@[simp] theorem weight_cons (u : Nat) (text : Text) :
    weight (u :: text) = (if u < 0x80 then 1 else 4) + weight text := by
  simp [weight]

theorem utf8Char_length (c : Nat) :
    (utf8Char c).length ≤ if c < 0x80 then 1 else 4 := by
  rw [utf8Char]
  split_ifs <;> simp

theorem replaced_length (u : Nat) :
    (utf8Char (replaced u)).length ≤ if u < 0x80 then 1 else 4 := by
  have hany : ∀ c, (utf8Char c).length ≤ 4 := by
    intro c
    have hc := utf8Char_length c
    split at hc <;> omega
  by_cases hu : u < 0x80
  · have hscalar : isScalar u = true :=
      JsonText.scalar_of_plain (JsonText.isPlain_of_lt hu)
    rw [replaced, if_pos hscalar]
    exact utf8Char_length u
  · rw [if_neg hu]
    exact hany _

theorem bufferFrom_length (text : Text) :
    (bufferFrom text).length ≤ weight text := by
  induction text using points.induct with
  | case1 => exact Nat.le_refl 0
  | case2 u =>
      have hu := replaced_length u
      simpa [bufferFrom, points, utf8, weight] using hu
  | case3 u v rest hpair ih =>
      have hhigh : ¬u < 0x80 ∧ ¬v < 0x80 := by
        simp only [isHigh, isLow, Bool.and_eq_true, decide_eq_true_eq] at hpair
        omega
      have hchar := replaced_length
        (0x10000 + (u - 0xD800) * 0x400 + (v - 0xDC00))
      rw [if_neg (by omega)] at hchar
      rw [bufferFrom, utf8, List.flatMap_map] at ih ⊢
      rw [points, if_pos hpair, List.flatMap_cons, List.length_append,
        weight_cons, weight_cons, if_neg hhigh.1, if_neg hhigh.2]
      omega
  | case4 u v rest hpair ih =>
      have hu := replaced_length u
      rw [bufferFrom, utf8, List.flatMap_map] at ih ⊢
      rw [points, if_neg hpair, List.flatMap_cons, List.length_append,
        weight_cons]
      omega

theorem unicodeEscape_weight (c : Nat) : weight (unicodeEscape c) = 6 := by
  have hdigit : ∀ n, JsonText.hexDigit (n % 16) < 0x80 := fun n =>
    JsonText.hexDigit_lt (Nat.mod_lt n (by decide))
  have hmark : weight (lit "\\u") = 2 := by decide
  simp only [unicodeEscape, weight_append, weight_cons, hmark, hdigit,
    if_true]
  rfl

theorem escapeUnits_weight (c : Nat) : weight (escapeUnits c) ≤ 8 := by
  rw [escapeUnits]
  cases hshort : shortEscape c with
  | some text =>
      rw [Option.getD_some]
      unfold shortEscape at hshort
      split_ifs at hshort <;> cases hshort <;> decide
  | none =>
      rw [Option.getD_none]
      split
      · rw [unicodeEscape_weight]
        decide
      · rw [codeUnits]
        split <;> simp only [weight_cons] <;> split_ifs <;> decide

theorem points_length (text : Text) : (points text).length ≤ text.length := by
  induction text using points.induct with
  | case1 => exact Nat.le_refl 0
  | case2 u => exact Nat.le_refl 1
  | case3 u v rest hpair ih =>
      rw [points, if_pos hpair, List.length_cons, List.length_cons,
        List.length_cons]
      omega
  | case4 u v rest hpair ih =>
      rw [points, if_neg hpair, List.length_cons, List.length_cons]
      omega

theorem quoteUnits_weight (text : Text) :
    weight (quoteUnits text) ≤ 8 * text.length + 2 := by
  have hescaped : ∀ text : Text,
      weight (text.flatMap escapeUnits) ≤ 8 * text.length := by
    intro text
    induction text with
    | nil => exact Nat.le_refl 0
    | cons c text ih =>
        have hc := escapeUnits_weight c
        rw [List.flatMap_cons, weight_append, List.length_cons]
        omega
  have hmark : weight (lit "\"") = 1 := by decide
  have hpoints := points_length text
  have htext := hescaped (points text)
  rw [quoteUnits, weight_append, weight_append, hmark]
  omega

/-! ### Records -/

section Records

variable (host : Host)

/-- The weight of the text of a value. -/
def size (value : Value Number) : Nat := weight (stringify host.toText value)

theorem size_str (h : text.length ≤ maxIdentifierChars) :
    size host (.str text) ≤ 2050 := by
  have htext := quoteUnits_weight text
  rw [maxIdentifierChars] at h
  rw [size, stringify]
  omega

theorem size_bool (value : Bool) : size host (.bool value) ≤ 2050 := by
  have hweight : weight (lit "true") = 4 ∧ weight (lit "false") = 5 := by
    decide
  cases value
  · rw [size, stringify, hweight.2]
    decide
  · rw [size, stringify, hweight.1]
    decide

/-- What a record has for a minimal event is small. -/
def Small (record : Record) : Prop :=
  ∀ field ∈ record, field.1 ∈ minimalKeys → size host field.2 ≤ 2050

theorem Small.ite {host : Host} {c : Prop} [Decidable c] {other : Record}
    (h : Small host record) (hother : Small host other) :
    Small host (if c then record else other) := by
  split
  · exact h
  · exact hother

theorem mem_put {value : Value Number} {field : Text × Value Number}
    (h : field ∈ put record key value) :
    field = (key, value) ∨ field ∈ record := by
  induction record with
  | nil => exact .inl (List.mem_singleton.mp h)
  | cons first rest ih =>
      rw [put] at h
      split at h
      · rcases List.mem_cons.mp h with rfl | h
        · exact .inl rfl
        · exact .inr (List.mem_cons_of_mem _ h)
      · rcases List.mem_cons.mp h with rfl | h
        · exact .inr List.mem_cons_self
        · exact (ih h).imp_right (List.mem_cons_of_mem _)

variable {host}

theorem Small.put {value : Value Number} (h : Small host record)
    (hvalue : key ∈ minimalKeys → size host value ≤ 2050) :
    Small host (put record key value) := by
  intro field hfield hkey
  rcases mem_put hfield with rfl | hfield
  · exact hvalue hkey
  · exact h field hfield hkey

theorem Small.putSome (key : String) (value : Option (Value Number))
    (h : Small host record) (hkey : lit key ∉ minimalKeys) :
    Small host (putSome record key value) := by
  cases value with
  | none => exact h
  | some value => exact h.put fun hmem => absurd hmem hkey

theorem Small.putText (key : String) (value : Option Text)
    (h : Small host record)
    (hvalue : ∀ text ∈ value, text.length ≤ maxIdentifierChars) :
    Small host (putText record key value) := by
  cases value with
  | none => exact h
  | some text =>
      rw [PiEvent.putText]
      split
      · exact h
      · exact h.put fun _ => size_str host (hvalue text rfl)

theorem boundedIdentifier_length {max : Nat} (h : 0 < max)
    (hmax : max ≤ maxIdentifierChars) :
    ∀ text ∈ boundedIdentifier value max, text.length ≤ maxIdentifierChars := by
  intro text htext
  cases value with
  | str shown =>
      dsimp only [boundedIdentifier] at htext
      split at htext
      · cases htext
      · cases htext
        exact (safeText_length shown h).trans hmax
  | _ => cases htext

theorem Small.copyIdentifier (raw : Fields) (key : String)
    (h : Small host record) : Small host (copyIdentifier raw record key) :=
  h.putText key _ (boundedIdentifier_length (by decide) (Nat.le_refl _))

theorem Small.copyIdentifiers (raw : Fields) (keys : List String)
    (h : Small host record) :
    Small host (keys.foldl (PiEvent.copyIdentifier raw) record) := by
  induction keys generalizing record with
  | nil => exact h
  | cons key keys ih => exact ih (h.copyIdentifier raw key)

theorem Small.copyToolName (raw : Fields) (h : Small host record) :
    Small host (copyToolName record raw) :=
  h.putText "toolName" _ (boundedIdentifier_length (by decide) (by decide))

theorem Small.copyWith (shown : Text → Text) (raw : Fields) (key : String)
    (h : Small host record) (hkey : lit key ∉ minimalKeys) :
    Small host (copyWith shown raw record key) := by
  rw [PiEvent.copyWith]
  split
  · exact h.put fun hmem => absurd hmem hkey
  · exact h

theorem Small.copyInteger (raw : Fields) (key : String) (h : Small host record)
    (hkey : lit key ∉ minimalKeys) :
    Small host (copyInteger raw record key) := by
  rw [PiEvent.copyInteger]
  split
  · split
    · exact h.put fun hmem => absurd hmem hkey
    · exact h
  · exact h

theorem Small.copyBoolean (raw : Fields) (key : String) (h : Small host record)
    : Small host (copyBoolean raw record key) := by
  rw [PiEvent.copyBoolean]
  split
  · exact h.put fun _ => size_bool host _
  · exact h

theorem oneOfTexts_mem {values : List String}
    (h : text ∈ oneOfTexts values value) :
    ∃ known ∈ values, text = lit known := by
  cases value with
  | str shown =>
      dsimp only [oneOfTexts] at h
      split at h
      · cases h
        rename_i hany
        obtain ⟨known, hknown, heq⟩ := List.any_eq_true.mp hany
        exact ⟨known, hknown, (beq_iff_eq.mp heq).symm⟩
      · cases h
  | _ => cases h

theorem Small.copyOneOf (values : List String) (raw : Fields) (key : String)
    (h : Small host record)
    (hvalues : ∀ known ∈ values, (lit known).length ≤ maxIdentifierChars) :
    Small host (copyOneOf values raw record key) := by
  rw [PiEvent.copyOneOf]
  cases htext : oneOfTexts values (get raw key) with
  | none => exact h
  | some text =>
      obtain ⟨known, hknown, rfl⟩ := oneOfTexts_mem htext
      exact h.put fun _ => size_str host (hvalues known hknown)

theorem toolFileName_length (host : Host) (raw : Fields) :
    ∀ text ∈ toolFileName host raw, text.length ≤ maxIdentifierChars := by
  intro text htext
  unfold toolFileName at htext
  split at htext
  · dsimp only at htext
    split at htext
    · cases htext
    · split at htext
      · cases htext
      · split at htext
        · cases htext
          rename_i hsafe
          rw [← hsafe]
          exact (safeText_length _ (by decide)).trans (by decide)
        · cases htext
  · cases htext

theorem classifyToolKind_length (toolName : Js) :
    ∀ text ∈ classifyToolKind toolName, text.length ≤ maxIdentifierChars := by
  intro text htext
  unfold classifyToolKind at htext
  split_ifs at htext <;> cases htext <;> decide

/-! ### Events -/

theorem Small.serializeMetadata (extra : Fields) (h : Small host record) :
    Small host (serializeMetadata record extra) := by
  apply Small.copyOneOf
  · exact (h.copyIdentifiers extra _).putText _ _
      (boundedIdentifier_length (by decide) (by decide))
  · decide

theorem Small.serializeToolEvent (type : String) (raw : Fields)
    (h : Small host record) :
    Small host (serializeToolEvent host type record raw) := by
  have hnamed := ((h.copyIdentifier raw "toolCallId").copyToolName raw).putText
    "tool_kind" _ (classifyToolKind_length (get raw "toolName"))
  unfold PiEvent.serializeToolEvent
  apply Small.ite
  · have hresult := Small.ite (c := hasOwn raw "result" = true)
      (hnamed.putSome "result" (safeToolResult host (get raw "result"))
        (by decide)) hnamed
    exact hresult.copyBoolean raw "isError"
  · have hargs := Small.ite (c := hasOwn raw "args" = true)
      (hnamed.putSome "args" (safeToolValue host (get raw "args"))
        (by decide)) hnamed
    have hfile := hargs.putText "file_name" _ (toolFileName_length host raw)
    exact Small.ite (hfile.putSome "partialResult" _ (by decide)) hfile

theorem Small.serializeApproval (raw : Fields) (h : Small host record) :
    Small host (serializeApproval host record raw) := by
  have hids := (h.copyIdentifiers raw ["toolCallId", "approvalId",
    "approval_id", "approvalBatchId", "argsHash"]).copyInteger raw
    "decisionRevision" (by decide)
  have htexts := ((hids.copyWith (safeText · maxTextChars) raw "expiresAt"
    (by decide)).copyWith (safeMessageText · maxTextChars) raw "summary"
    (by decide)).copyWith (safeText · maxTextChars) raw "riskLevel" (by decide)
  have hnamed := (htexts.copyToolName raw).putText "tool_kind" _
    (classifyToolKind_length (get raw "toolName"))
  exact Small.ite (hnamed.putSome "args" _ (by decide)) hnamed

theorem Small.serializeFields (type : String) (raw : Fields)
    (h : Small host record) :
    Small host (serializeFields host type record raw) := by
  have hfailed : ∀ {record : Record}, Small host record →
      Small host (PiEvent.copyFailure host raw (PiEvent.copyIdentifier raw
        (PiEvent.copyBoolean raw record "failed") "error_code")
          "error_message") := fun h =>
    ((h.copyBoolean raw "failed").copyIdentifier raw "error_code").copyWith
      _ raw "error_message" (by decide)
  have hreason : Small host (copyReason record raw) :=
    h.copyOneOf _ raw "reason" (by decide)
  unfold PiEvent.serializeFields
  apply Small.ite
  · exact h.serializeToolEvent type raw
  · split
    · exact (h.putSome "message" _ (by decide)).putSome
        "assistantMessageEvent" _ (by decide)
    · exact h.putSome "message" _ (by decide)
    · apply hfailed
      split
      · exact h.put fun hmem => absurd hmem (by decide)
      · exact h
    · exact hfailed h
    · exact (((h.copyInteger raw "attempt" (by decide)).copyInteger raw
        "maxAttempts" (by decide)).copyInteger raw "delayMs"
          (by decide)).copyWith _ raw "errorMessage" (by decide)
    · exact ((h.copyBoolean raw "success").copyInteger raw "attempt"
        (by decide)).copyWith _ raw "finalError" (by decide)
    · exact hreason
    · exact ((hreason.copyBoolean raw "aborted").copyBoolean raw
        "willRetry").copyWith _ raw "errorMessage" (by decide)
    · exact h.serializeApproval raw
    · exact h

/-! ### The minimal event -/

def fieldCost (host : Host) (field : Text × Value Number) : Nat :=
  weight (quoteUnits field.1) + size host field.2 + 2

theorem writeFields_weight (fields : Record) :
    weight (writeFields host.toText fields) ≤
      (fields.map (fieldCost host)).sum + 1 := by
  induction fields with
  | nil => exact Nat.le_refl 1
  | cons field rest ih =>
      rw [writeFields, List.map_cons, List.sum_cons, fieldCost, size]
      simp only [weight_cons, weight_append]
      rw [if_pos (by decide), if_pos (by decide)]
      omega

theorem size_object (fields : Record) :
    size host (.object fields) ≤ (fields.map (fieldCost host)).sum + 2 := by
  cases fields with
  | nil => exact Nat.le_refl 2
  | cons field rest =>
      have hrest := @writeFields_weight host rest
      rw [size, stringify, List.map_cons, List.sum_cons, fieldCost, size]
      simp only [weight_cons, weight_append]
      rw [if_pos (by decide), if_pos (by decide)]
      omega

theorem field_mem {value : Value Number} (h : field record key = some value) :
    (key, value) ∈ record := by
  obtain ⟨⟨name, found⟩, hfind, rfl⟩ := Option.map_eq_some_iff.mp h
  have hkey := List.find?_some hfind
  rw [beq_iff_eq] at hkey
  rw [← hkey]
  exact List.mem_of_find?_eq_some hfind

theorem minimal_cost (h : Small host record) (keys : List Text)
    (hkeys : ∀ key ∈ keys, key ∈ minimalKeys) :
    ((keys.filterMap fun key => (field record key).map fun value =>
      (key, value)).map (fieldCost host)).sum ≤
        (keys.map fun key => weight (quoteUnits key) + 2052).sum := by
  induction keys with
  | nil => exact Nat.le_refl 0
  | cons key keys ih =>
      have hrest := ih fun key hkey => hkeys key (List.mem_cons_of_mem _ hkey)
      rw [List.map_cons, List.sum_cons, List.filterMap_cons]
      cases hfield : field record key with
      | none =>
          dsimp only [Option.map_none]
          omega
      | some value =>
          have hvalue := h _ (field_mem hfield) (hkeys key List.mem_cons_self)
          dsimp only [Option.map_some] at hvalue ⊢
          rw [List.map_cons, List.sum_cons, fieldCost]
          dsimp only
          omega

theorem minimalEvent_bytes (h : Small host record) :
    jsonBytes host (.object (minimalEvent record)) ≤ maxEventBytes := by
  have hkeys : (minimalKeys.map fun key =>
      weight (quoteUnits key) + 2052).sum + 2 ≤ maxEventBytes := by decide
  have hcost := minimal_cost h minimalKeys fun _ hkey => hkey
  calc
    jsonBytes host (.object (minimalEvent record)) ≤
        size host (.object (minimalEvent record)) := bufferFrom_length _
    _ ≤ ((minimalEvent record).map (fieldCost host)).sum + 2 :=
      size_object _
    _ ≤ (minimalKeys.map fun key => weight (quoteUnits key) + 2052).sum + 2 :=
      Nat.add_le_add_right hcost 2
    _ ≤ maxEventBytes := hkeys

theorem boundEvent_budgeted (h : Small host record) :
    budgeted host (boundEvent host record) ≤ maxEventBytes := by
  rw [boundEvent]
  split
  · assumption
  · have hbytes := minimalEvent_bytes h
    rw [budgeted]
    omega

end Records

/-! ### Bodies -/

section Bodies

variable {record : Record} {key : String} {other : Text}

theorem field_put_of_ne {name : Text} (h : name ≠ other)
    {value : Value Number} :
    field (put record name value) other = field record other := by
  induction record with
  | nil => simp [put, field, h]
  | cons first rest ih =>
      obtain ⟨found, old⟩ := first
      rw [put]
      split
      · next hfound => simp [field, hfound, h]
      · simp only [field, List.find?_cons] at ih ⊢
        split
        · rfl
        · exact ih

theorem field_put_self {name : Text} {value : Value Number} :
    field (put record name value) name = some value := by
  induction record with
  | nil => simp [put, field]
  | cons first rest ih =>
      obtain ⟨found, old⟩ := first
      rw [put]
      split
      · simp [field]
      · next hfound => simpa [field, hfound] using ih

theorem field_putSome (h : lit key ≠ other) (value : Option (Value Number)) :
    field (putSome record key value) other = field record other := by
  cases value with
  | none => rfl
  | some value => exact field_put_of_ne h

theorem field_putSome_self (value : Option (Value Number)) :
    field (putSome record key value) (lit key) =
      value.or (field record (lit key)) := by
  cases value with
  | none => rfl
  | some value => rw [putSome, field_put_self, Option.some_or]

theorem field_putText (h : lit key ≠ other) (value : Option Text) :
    field (putText record key value) other = field record other := by
  cases value with
  | none => rfl
  | some text =>
      rw [putText]
      split
      · rfl
      · exact field_put_of_ne h

theorem field_copyWith (h : lit key ≠ other) (shown : Text → Text)
    (raw : Fields) :
    field (copyWith shown raw record key) other = field record other := by
  rw [copyWith]
  split
  · exact field_put_of_ne h
  · rfl

theorem field_copyInteger (h : lit key ≠ other) (raw : Fields) :
    field (copyInteger raw record key) other = field record other := by
  rw [copyInteger]
  split
  · split
    · exact field_put_of_ne h
    · rfl
  · rfl

theorem field_copyBoolean (h : lit key ≠ other) (raw : Fields) :
    field (copyBoolean raw record key) other = field record other := by
  rw [copyBoolean]
  split
  · exact field_put_of_ne h
  · rfl

/-- A content that `bodyBytes` may count, its parts few and their texts
short. -/
def CappedContent : Value Number → Prop
  | .str text => text.length ≤ maxMessageTextChars
  | .list items => items.length ≤ maxArrayItems ∧ ∀ item ∈ items,
      ∀ text, field (fieldsOf item) (lit "text") = some (.str text) →
        text.length ≤ maxMessageTextChars
  | _ => True

def Capped (message : Value Number) : Prop :=
  ∀ content ∈ field (fieldsOf message) (lit "content"), CappedContent content

variable {host : Host}

theorem serializeToolCall_text {raw : Fields} {item : Value Number}
    (h : item ∈ serializeToolCall host raw) :
    field (fieldsOf item) (lit "text") = none := by
  unfold serializeToolCall at h
  dsimp only at h
  split at h
  · cases h
  · cases h
    rw [fieldsOf]
    split
    · rw [field_putSome (by decide), field_putText (by decide),
        field_putText (by decide), copyOneOf, field_putSome (by decide)]
      rfl
    · rw [field_putText (by decide), field_putText (by decide), copyOneOf,
        field_putSome (by decide)]
      rfl

theorem serializePart_text {body : Bool} {shown : Text → Text} {max : Nat}
    {part : Js} {item : Value Number}
    (h : item ∈ serializePart host body shown max part)
    (htext : field (fieldsOf item) (lit "text") = some (.str text)) :
    ∃ content, text = shown content := by
  have htype : lit "type" ≠ lit "text" := by decide
  have hthinking : lit "thinking" ≠ lit "text" := by decide
  obtain ⟨raw, -, h⟩ := Option.bind_eq_some_iff.mp h
  split at h
  · split_ifs at h
    · split at h
      · next content _ =>
          cases h
          refine ⟨content, ?_⟩
          split at htext
          · rw [fieldsOf, field_put_of_ne (by decide)] at htext
            simpa [field, htype] using htext.symm
          · simpa [field, fieldsOf, htype] using htext.symm
      · cases h
    · split at h
      · cases h
        simp [field, fieldsOf, htype, hthinking] at htext
      · cases h
    · rw [serializeToolCall_text h] at htext
      cases htext
    · cases h
      simp [field, fieldsOf, htype] at htext
  · cases h

theorem serializeContent_capped {body : Bool} {max : Nat} (hmax : 0 < max)
    (hle : max ≤ maxMessageTextChars) :
    ∀ content ∈ serializeContent host value body max,
      CappedContent content := by
  have hshown : ∀ text : Text, (if body then safeMessageText text max
      else safeText text max).length ≤ maxMessageTextChars := by
    intro text
    split
    · exact (boundText_length _ hmax).trans hle
    · exact (safeText_length _ hmax).trans hle
  intro content hcontent
  unfold serializeContent at hcontent
  dsimp only at hcontent
  split at hcontent
  · cases hcontent
    exact hshown _
  · split at hcontent
    · cases hcontent
      refine ⟨(List.length_filterMap_le _ _).trans (List.length_take_le _ _),
        fun item hitem text htext => ?_⟩
      obtain ⟨part, -, hpart⟩ := List.mem_filterMap.mp hitem
      obtain ⟨shown, rfl⟩ := serializePart_text hpart htext
      exact hshown shown
    · cases hcontent

theorem serializeMessage_capped {bodyMax : Nat} (hmax : 0 < bodyMax)
    (hle : bodyMax ≤ maxMessageTextChars) :
    ∀ message ∈ serializeMessage host value bodyMax, Capped message := by
  intro message hmessage content hcontent
  obtain ⟨raw, _, hmessage⟩ := Option.bind_eq_some_iff.mp hmessage
  obtain ⟨role, _, hmessage⟩ := Option.bind_eq_some_iff.mp hmessage
  dsimp only at hmessage
  have hshown : ∀ content ∈ (if role = lit "toolResult"
      then serializeContent host (get raw "content") false maxTextChars
      else serializeContent host (get raw "content") true bodyMax),
      CappedContent content := by
    split
    · exact serializeContent_capped (by decide) (by decide)
    · exact serializeContent_capped hmax hle
  generalize (if role = lit "toolResult"
    then serializeContent host (get raw "content") false maxTextChars
    else serializeContent host (get raw "content") true bodyMax) = shown
    at hshown hmessage
  have hrole : field [(lit "role", Value.str role)] (lit "content") =
    (none : Option (Value Number)) := rfl
  -- what is put before and after the content has other keys
  have hkept : field (fieldsOf message) (lit "content") = shown := by
    split_ifs at hmessage with hassistant herror hresult
    on_goal 3 => split at hmessage
    all_goals
      cases hmessage
      simp (disch := decide) only [fieldsOf, copyFailure, copyOneOf,
        copyToolName, copyIdentifier, field_put_of_ne, field_copyWith,
        field_putSome, field_putText, field_copyBoolean, field_putSome_self]
      split
      · rw [field_put_of_ne (by decide), hrole, Option.or_none]
      · rw [hrole, Option.or_none]
  exact hshown content (hkept ▸ hcontent)

theorem message_serializeMetadata (extra : Fields) :
    field (serializeMetadata record extra) (lit "message") =
      field record (lit "message") := by
  simp (disch := decide) only [serializeMetadata, List.foldl, copyOneOf,
    copyIdentifier, field_putSome, field_putText]

theorem message_serializeToolEvent (type : String) (raw : Fields) :
    field (serializeToolEvent host type record raw) (lit "message") =
      field record (lit "message") := by
  simp (disch := decide) only [serializeToolEvent, copyIdentifier, copyToolName,
    apply_ite (field · (lit "message")), field_putSome, field_putText,
    field_copyBoolean, ite_self]

theorem message_serializeApproval (raw : Fields) :
    field (serializeApproval host record raw) (lit "message") =
      field record (lit "message") := by
  simp (disch := decide) only [serializeApproval, List.foldl, copyIdentifier,
    copyToolName, copyText, copyApprovalSummary,
    apply_ite (field · (lit "message")), field_putSome, field_putText,
    field_copyWith, field_copyInteger, ite_self]

/-- Only the two events of a message have one. -/
theorem message_serializeFields (type : String) (raw : Fields)
    (h : field record (lit "message") = none) :
    ∀ message ∈ field (serializeFields host type record raw) (lit "message"),
      Capped message := by
  intro message hmessage
  unfold serializeFields at hmessage
  dsimp only at hmessage
  split at hmessage
  · rw [message_serializeToolEvent, h] at hmessage
    cases hmessage
  · split at hmessage
    · rw [field_putSome (by decide), field_putSome_self, h,
        Option.or_none] at hmessage
      exact serializeMessage_capped (by decide) (by decide) message hmessage
    · rw [field_putSome_self, h, Option.or_none] at hmessage
      exact serializeMessage_capped (by decide) (by decide) message hmessage
    · simp (disch := decide) only [copyIdentifier, copyFailure, field_putText,
        field_copyWith, field_copyBoolean] at hmessage
      split at hmessage
      · rw [field_put_of_ne (by decide), h] at hmessage
        cases hmessage
      · rw [h] at hmessage
        cases hmessage
    all_goals
      simp (disch := decide) only [copyIdentifier, copyFailure, copyText,
        copyReason, copyOneOf, List.foldl, field_putSome, field_putText,
        field_copyWith, field_copyInteger, field_copyBoolean, h,
        message_serializeApproval, Option.not_mem_none] at hmessage

theorem message_boundEvent :
    ∀ message ∈ field (boundEvent host record) (lit "message"),
      message ∈ field record (lit "message") := by
  intro message hmessage
  rw [boundEvent] at hmessage
  split at hmessage
  · exact hmessage
  · obtain ⟨key, hkey, hfield⟩ := List.mem_filterMap.mp (field_mem hmessage)
    obtain ⟨value, hvalue, heq⟩ := Option.map_eq_some_iff.mp hfield
    cases heq
    exact hvalue

end Bodies

/-- Whatever the value and the objects it refers to, the bounded value is
nested at most four deep, has bounded arrays, objects and strings and no secret
key; and of whatever event, what goes out is within the budget for all but the
bodies of messages, and these have bounded texts. -/
theorem serializePiEvent_bounded (host : Host) :
    (∀ (key : Text) (seen : List Nat) (value : Js),
      ∀ result ∈ boundedValue host maxJsonDepth key seen value,
        Within maxJsonDepth result) ∧
      ∀ (event : Js) (extra : Fields),
        ∀ out ∈ serializePiEvent host event extra,
          budgeted host out ≤ maxEventBytes ∧
            ∀ message ∈ field out (lit "message"), Capped message := by
  constructor
  · intro key seen value result hresult
    exact (boundedValue_within host _ key seen value result hresult).2
  · intro event extra out hout
    obtain ⟨raw, -, hout⟩ := Option.bind_eq_some_iff.mp hout
    obtain ⟨type, htype, hout⟩ := Option.bind_eq_some_iff.mp hout
    have hlength : ∀ type ∈ allowedEvents,
        (lit type).length ≤ maxIdentifierChars := by decide
    have hfirst : Small host [(lit "type", .str (lit type))] := by
      intro field hfield _
      obtain rfl := List.mem_singleton.mp hfield
      exact size_str host (hlength type (List.mem_of_find?_eq_some htype))
    have hnone : field (serializeMetadata [(lit "type", .str (lit type))] extra)
        (lit "message") = none := message_serializeMetadata extra
    cases hout
    refine ⟨boundEvent_budgeted
      ((hfirst.serializeMetadata extra).serializeFields type raw), ?_⟩
    exact fun message hmessage => message_serializeFields type raw hnone message
      (message_boundEvent message hmessage)

namespace BoundedWitness

/-- One object, which is part of itself and has a secret. -/
def host : Host where
  heap _ := .object true [(lit "self", .shared 0), (lit "token", .str (lit "t"))]
  home := lit "/home/m"
  parse _ := none
  numberText _ := lit "0"

/-- A tool that answers with the object, and a message. -/
def answer : Js :=
  .fresh (.object true [(lit "type", .str (lit "tool_execution_end")),
    (lit "result", .shared 0)])

def ended : Js :=
  .fresh (.object true [(lit "type", .str (lit "message_end")),
    (lit "message", .fresh (.object true [(lit "role", .str (lit "user")),
      (lit "content", .str (lit "hello"))]))])

end BoundedWitness

open BoundedWitness in
theorem serializePiEvent_bounded_cycle :
    ((serializePiEvent host answer []).any fun out =>
        (field out (lit "result")).isSome) = true ∧
      (∀ out ∈ serializePiEvent host answer [],
        budgeted host out ≤ maxEventBytes) ∧
      ((serializePiEvent host ended []).any fun out =>
        (field out (lit "message")).isSome) = true ∧
      ∀ out ∈ serializePiEvent host ended [],
        ∀ message ∈ field out (lit "message"), Capped message :=
  have h := (serializePiEvent_bounded host).2
  ⟨by decide +kernel, fun out hout => (h answer [] out hout).1,
    by decide +kernel, fun out hout => (h ended [] out hout).2⟩

end AiTeam.PiEvent
