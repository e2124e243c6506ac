/-
Signing keys of the tenants: the rows of `tenant_signing_key`, the statements
of `TenantKeyStore`, and the calls that interleave over them.
-/
import AiTeam.Machine
import AiTeam.Table

namespace AiTeam.SigningKey

abbrev Text := List Char

/-- Clock readings count microseconds. -/
def second : Nat := 1000000

/-- `ROTATION_GRACE_SECONDS`. -/
def rotationGraceSeconds : Nat := 86400

/-- `AUTH_SESSION_TTL_SECONDS`. -/
def authSessionTtlSeconds : Nat := 2592000

/-- A row of `tenant_signing_key`.  The two texts of a key pair carry the
number the pair was drawn with. -/
structure KeyRow where
  tenantId : Text
  kid : Text
  privatePem : Nat
  publicPem : Nat
  isCurrent : Bool
  version : Nat
  retiredAt : Option Nat
deriving DecidableEq

/-! ### Key ids -/

/-- `f"{tenant_id}:{version}"`. -/
def kidOf (tenantId : Text) (version : Nat) : Text :=
  tenantId ++ ':' :: Nat.toDigits 10 version

/-- `kid.split(":")[-1]`. -/
def lastPart (kid : Text) : Text :=
  (kid.reverse.takeWhile (· != ':')).reverse

/-- `int(text)` of a text of digits; any other one raises. -/
def parseInt (text : Text) : Option Nat :=
  if text ≠ [] ∧ text.all Char.isDigit then some (Nat.ofDigitChars 10 text 0)
  else none

/-- The version `rotate` counts on from. -/
def currentVersion (current : KeyRow) : Nat :=
  (parseInt (lastPart current.kid)).getD
    (if current.version ≠ 0 then current.version else 1)

theorem digits_no_colon {version : Nat} {c : Char}
    (h : c ∈ Nat.toDigits 10 version) : c ≠ ':' := by
  have hdigit := Nat.isDigit_of_mem_toDigits (by decide) (by decide) h
  rintro rfl
  exact absurd hdigit (by decide)

theorem lastPart_kidOf (tenantId : Text) (version : Nat) :
    lastPart (kidOf tenantId version) = Nat.toDigits 10 version := by
  have hdigits : ∀ c ∈ (Nat.toDigits 10 version).reverse,
      (c != ':') = true := by
    intro c hc
    simpa using digits_no_colon (List.mem_reverse.mp hc)
  rw [lastPart, kidOf, List.reverse_append, List.reverse_cons,
    List.append_assoc, List.takeWhile_append_of_pos hdigits]
  simp

theorem parseInt_toDigits (version : Nat) :
    parseInt (Nat.toDigits 10 version) = some version := by
  have hdigits : (Nat.toDigits 10 version).all Char.isDigit = true :=
    List.all_eq_true.mpr fun c hc =>
      Nat.isDigit_of_mem_toDigits (by decide) (by decide) hc
  rw [parseInt, if_pos ⟨Nat.toDigits_ne_nil, hdigits⟩,
    Nat.ofDigitChars_ten_toDigits]

theorem currentVersion_kidOf {current : KeyRow} {tenantId : Text}
    {version : Nat} (h : current.kid = kidOf tenantId version) :
    currentVersion current = version := by
  rw [currentVersion, h, lastPart_kidOf, parseInt_toDigits, Option.getD_some]

/-- `kid.split(":", 1)[0]`, when there is a colon. -/
def tenantOfKid (kid : Text) : Option Text :=
  if ':' ∈ kid then some (kid.takeWhile (· != ':')) else none

theorem tenantOfKid_kidOf {tenantId : Text} (h : ':' ∉ tenantId)
    (version : Nat) :
    tenantOfKid (kidOf tenantId version) = some tenantId := by
  have hplain : ∀ c ∈ tenantId, (c != ':') = true := by
    intro c hc
    have hne : c ≠ ':' := fun heq => h (heq ▸ hc)
    simpa using hne
  have hcolon : ':' ∈ kidOf tenantId version := by simp [kidOf]
  rw [tenantOfKid, if_pos hcolon, kidOf, List.takeWhile_append_of_pos hplain]
  simp

theorem kidOf_inj {tenantId other : Text} {version number : Nat}
    (htenant : ':' ∉ tenantId) (hother : ':' ∉ other)
    (h : kidOf tenantId version = kidOf other number) :
    tenantId = other ∧ version = number := by
  have hleft := tenantOfKid_kidOf htenant version
  have hright := tenantOfKid_kidOf hother number
  have hlast := lastPart_kidOf tenantId version
  rw [h, hright] at hleft
  rw [h, lastPart_kidOf] at hlast
  have hparse := parseInt_toDigits version
  rw [← hlast, parseInt_toDigits] at hparse
  exact ⟨(Option.some.inj hleft).symm, (Option.some.inj hparse).symm⟩

/-! ### Statements -/

def currentRows (rows : List KeyRow) (tenantId : Text) : List KeyRow :=
  rows.filter fun row => row.tenantId == tenantId && row.isCurrent

/-- `_current_row`.  The query has no order: `pick` stands for the current row
that the database happens to answer with. -/
def currentRow (rows : List KeyRow) (tenantId : Text) (pick : Nat) :
    Option KeyRow :=
  (currentRows rows tenantId)[pick % (currentRows rows tenantId).length]?

/-- What PostgreSQL takes for a `uuid`, and the seconds of the intervals of
`_active_public_rows` and `resolved_public_key_for_kid`.  In both the
placeholder stands inside a quoted literal, `interval '%s seconds'`: a client
that puts the value in asks for `ROTATION_GRACE_SECONDS`, one whose parameters
are bound by the server sends `'$2 seconds'` and `'$3 seconds'`. -/
structure Database where
  isUuid : Text → Bool
  activeSeconds : Nat
  resolvedSeconds : Nat

/-- `is_current = true OR retired_at > now() - interval`. -/
def KeyRow.verifiable (seconds now : Nat) (row : KeyRow) : Bool :=
  row.isCurrent || row.retiredAt.any fun retiredAt =>
    decide (now < retiredAt + seconds * second)

/-- `_active_public_rows`, which is what `jwks` serves. -/
def activePublicRows (db : Database) (rows : List KeyRow) (tenantId : Text)
    (now : Nat) : List (Text × Nat) :=
  (rows.filter fun row => row.tenantId == tenantId &&
    row.verifiable db.activeSeconds now).map fun row => (row.kid, row.publicPem)

/-- `resolved_public_key_for_kid`. -/
def resolvedPublicKeyForKid (db : Database) (rows : List KeyRow)
    (kid : Text) (now : Nat) : Option (Text × Nat) :=
  match tenantOfKid kid with
  | none => none
  | some tenantId =>
      if db.isUuid tenantId then
        (rows.find? fun row => row.tenantId == tenantId && row.kid == kid &&
          row.verifiable db.resolvedSeconds now).map fun row =>
            (row.tenantId, row.publicPem)
      else none

def newRow (tenantId : Text) (version keyPair : Nat) : KeyRow where
  tenantId := tenantId
  kid := kidOf tenantId version
  privatePem := keyPair
  publicPem := keyPair
  isCurrent := true
  version := version
  retiredAt := none

@[simp] theorem newRow_tenantId (tenantId : Text) (version keyPair : Nat) :
    (newRow tenantId version keyPair).tenantId = tenantId := rfl

@[simp] theorem newRow_version (tenantId : Text) (version keyPair : Nat) :
    (newRow tenantId version keyPair).version = version := rfl

/-- `INSERT`: the primary key is `kid`. -/
def insertRow (rows : List KeyRow) (row : KeyRow) : Option (List KeyRow) :=
  if rows.any (·.kid == row.kid) then none else some (rows ++ [row])

/-- `UPDATE ... SET is_current = false, retired_at = now()`. -/
def retireRow (rows : List KeyRow) (tenantId kid : Text) (now : Nat) :
    List KeyRow :=
  updateWhere (fun row => row.tenantId == tenantId && row.kid == kid)
    (fun row => { row with isCurrent := false, retiredAt := some now }) rows

/-! ### Calls -/

inductive Goal where
  | ensure
  | rotate
  | issue
  | jwks
deriving DecidableEq

/-- The statement a call runs next. -/
inductive Stage where
  | ensureRead
  | ensureInsert
  | readCurrent
  | insertKey (current : KeyRow)
  | retire (current : KeyRow) (version : Nat)
  | sign (row : KeyRow)
  | serve
  | returned
  | failed
deriving DecidableEq

/-- A call.  `startedAt` is the `issued_at` of `_issue`. -/
structure Call where
  tenantId : Text
  goal : Goal
  startedAt : Nat
  stage : Stage
deriving DecidableEq

/-- A signed token: `signedWith` is the number of the private key, `jti` the
call whose session it belongs to, and `exp` counts seconds. -/
structure Token where
  tenantId : Text
  kid : Text
  signedWith : Nat
  exp : Nat
  jti : Nat
deriving DecidableEq

structure State where
  now : Nat
  rows : List KeyRow
  calls : List Call
  tokens : List Token
  /-- The sessions with a `revoked_at`. -/
  revoked : List Nat
deriving DecidableEq

inductive Event where
  | rotated (tenantId : Text) (version : Nat)
  | issued (token : Token)
  | served (tenantId : Text) (keys : List (Text × Nat))
deriving DecidableEq

inductive Action where
  | begin (tenantId : Text) (goal : Goal)
  /-- A call runs its next statement. -/
  | advance (call pick keyPair : Nat)
  | crash (call : Nat)
  | revoke (jti : Nat)
  | tick (microseconds : Nat)
deriving DecidableEq

/-- What follows `ensure` in the call that ran it. -/
def Goal.afterEnsure : Goal → Stage
  | .ensure => .returned
  | .rotate => .readCurrent
  | .issue => .readCurrent
  | .jwks => .serve

def signToken (index : Nat) (call : Call) (row : KeyRow) : Token where
  tenantId := call.tenantId
  kid := row.kid
  signedWith := row.privatePem
  exp := (call.startedAt + authSessionTtlSeconds * second) / second
  jti := index

/-- The next statement of a call: the rows it leaves, the stage it reaches and
what it returns. -/
def runStage (db : Database) (rows : List KeyRow)
    (now index pick keyPair : Nat) (call : Call) : List KeyRow × Stage × List Event :=
  match call.stage with
  | .ensureRead =>
      match currentRow rows call.tenantId pick with
      | some _ => (rows, call.goal.afterEnsure, [])
      | none => (rows, .ensureInsert, [])
  | .ensureInsert =>
      -- `ON CONFLICT (kid) DO NOTHING`
      ((insertRow rows (newRow call.tenantId 1 keyPair)).getD rows,
        call.goal.afterEnsure, [])
  | .readCurrent =>
      match currentRow rows call.tenantId pick with
      | none => (rows, .failed, [])
      | some row =>
          (rows, if call.goal = .rotate then .insertKey row else .sign row, [])
  | .insertKey current =>
      let version := currentVersion current + 1
      match insertRow rows (newRow call.tenantId version keyPair) with
      | none => (rows, .failed, [])
      | some next => (next, .retire current version, [])
  | .retire current version =>
      (retireRow rows call.tenantId current.kid now, .returned,
        [.rotated call.tenantId version])
  | .sign row => (rows, .returned, [.issued (signToken index call row)])
  | .serve =>
      (rows, .returned, [.served call.tenantId
        (activePublicRows db rows call.tenantId now)])
  | .returned => (rows, .returned, [])
  | .failed => (rows, .failed, [])

def issuedTokens (events : List Event) : List Token :=
  events.filterMap fun event =>
    match event with
    | .issued token => some token
    | _ => none

def advance (db : Database) (state : State) (index pick keyPair : Nat) :
    State × List Event :=
  match state.calls[index]? with
  | none => (state, [])
  | some call =>
      let (rows, stage, events) :=
        runStage db state.rows state.now index pick keyPair call
      ({ state with
        rows, calls := state.calls.set index { call with stage }
        tokens := state.tokens ++ issuedTokens events }, events)

/-- The texts of a `uuid` column have no colon. -/
def isTenant (db : Database) (tenantId : Text) : Bool :=
  db.isUuid tenantId && !tenantId.contains ':'

def step (db : Database) (state : State) :
    Action → State × List Event
  | .begin tenantId goal =>
      if isTenant db tenantId then
        ({ state with calls := state.calls ++
          [⟨tenantId, goal, state.now, .ensureRead⟩] }, [])
      else (state, [])
  | .advance index pick keyPair =>
      advance db state index pick keyPair
  | .crash index =>
      match state.calls[index]? with
      | none => (state, [])
      | some call =>
          ({ state with
            calls := state.calls.set index { call with stage := .failed } },
            [])
  | .revoke jti => ({ state with revoked := jti :: state.revoked }, [])
  | .tick microseconds =>
      ({ state with now := state.now + microseconds }, [])

def machine (db : Database) : Machine State Action Event where
  step := step db

def initial (now : Nat) : State := ⟨now, [], [], [], []⟩

end AiTeam.SigningKey
