/-
`ManagerJwksAuthenticator`: the cached key sets, the downloads and the calls of
the Agent's server, as steps between two awaits.  Every `Date.now()` is a
reading of its own.
-/
import Mathlib.Logic.Function.Basic
import AiTeam.FixedWindow
import AiTeam.Jwks.Token
import AiTeam.Machine
import AiTeam.Text

namespace AiTeam.Jwks

/-- `TTL_MS`. -/
def ttlMs : Int := 60000

/-- `COOLDOWN_MS`. -/
def cooldownMs : Int := 5000

def maxEntries : Nat := 256

def maxActive : Nat := 4

def maxRequests : Nat := 16

/-- `pending` is the download under way. -/
structure Entry where
  keys : List JwtJwk
  expires : Int
  attempted : Int
  pending : Option Nat
deriving DecidableEq

/-- How far a download is: sent, answered with a body, its keys stored or its
failure raised, and cleared from its entry. -/
inductive Progress where
  | requested
  | answered (body : Text) (result : Except String (List JwtJwk))
  | completed (failure : Option String)
  | settled (failure : Option String)

structure Download where
  tenant : String
  entry : Nat
  progress : Progress

/-- What an authentication has found out before it awaits. -/
structure Job where
  token : Text
  tenant : String
  kid : String
  entry : Nat
deriving DecidableEq

/-- Why a call rejects its token. -/
inductive Reason where
  | missingBearer
  | malformed (token : Text) (detail : String)
  | tenantMismatch (token : Text) (expectedTenant : String)
  | cacheBusy (token : Text) (tenant : String)
  | notAdmitted (token : Text) (tenant : String)
  | keysExpired (token : Text)
  | unverified (token : Text) (tenant : String) (keys : List JwtJwk)
      (now : Int) (managerNow : Rat) (detail : String)
  | revoked (token : Text)
deriving DecidableEq

def Reason.message : Reason → String
  | .missingBearer => "Missing bearer token"
  | .malformed _ detail => detail
  | .tenantMismatch _ _ => "Manager token tenant mismatch"
  | .cacheBusy _ _ => "Manager public key cache busy"
  | .notAdmitted _ _ => "Tenant requires Manager login"
  | .keysExpired _ => "Manager public keys expired"
  | .unverified _ _ _ _ _ detail => detail
  | .revoked _ => "Manager authentication session is revoked"

def Reason.token : Reason → Option Text
  | .missingBearer => none
  | .malformed token _ => some token
  | .tenantMismatch token _ => some token
  | .cacheBusy token _ => some token
  | .notAdmitted token _ => some token
  | .keysExpired token => some token
  | .unverified token _ _ _ _ _ => some token
  | .revoked token => some token

/-- A call that waits: for a download, for its turn after a refresh that was
skipped, or for Manager's verdict on the session of a token that verified. -/
inductive Phase where
  | idle
  | waiting (job : Job) (download : Nat)
  | ready (job : Job)
  | confirming (job : Job) (caller : AuthenticatedCaller) (keys : List JwtJwk)
      (verified : Int)
  | finished

inductive Event where
  | started (download : Nat) (tenant : String) (now : Int)
  | served (tenant : String) (body : Text)
  | completed (tenant : String) (body : Text) (keys : List JwtJwk) (now : Int)
  | accepted (call : Nat) (job : Job) (caller : AuthenticatedCaller)
      (keys : List JwtJwk) (verified : Int)
  | rejected (call : Nat) (reason : Reason)
  | unavailable (call : Nat) (detail : String)

/-- `published` is what Manager answers a tenant's download with. -/
structure State where
  published : String → Text
  entries : List (String × Nat)
  heap : Nat → Entry
  allocated : Nat
  downloads : List Download
  calls : Nat → Phase
  active : Nat
  quota : FixedWindow.Counter
  now : Int

/-- Two readings of `Date.now()` and one of Manager's clock. -/
structure Clock where
  first : Int
  second : Int
  manager : Rat
deriving DecidableEq

/-! ### The download -/

/-- How a download request ends, but for the body. -/
inductive Answer where
  | failed (reason : String)
  | response (ok : Bool) (contentType : Option String) (hasBody : Bool)
deriving DecidableEq

/-- The keys of a key set that is well formed and in the tenant's scope. -/
def acceptedKeys (runtime : Runtime) (tenant : String) (body : Text) :
    Except String (List JwtJwk) :=
  if 65536 < (body.map Char.utf8Size).sum then
    .error "Manager public key response too large"
  else do
    let keys ← parsePublicJwks runtime body
    if 32 < keys.length || keys.any fun key => !scopedKid key.kid tenant then
      .error "Manager public key tenant scope invalid"
    else .ok keys

def download (runtime : Runtime) (tenant : String) (body : Text) :
    Answer → Except String (List JwtJwk)
  | .failed reason => .error reason
  | .response ok contentType hasBody =>
      if ok && contentType.any (fun type =>
          Text.occurs type.toList "application/json".toList) && hasBody then
        acceptedKeys runtime tenant body
      else .error "Manager public key response invalid"

def unavailableKeys (reason : String) : String :=
  "Manager public keys are unavailable: " ++ reason

/-! ### A call -/

def setPhase (call : Nat) (phase : Phase) (state : State) : State :=
  { state with calls := Function.update state.calls call phase }

def reject (call : Nat) (reason : Reason) (state : State) :
    State × List Event :=
  (setPhase call .finished state, [.rejected call reason])

def fail (call : Nat) (detail : String) (state : State) :
    State × List Event :=
  (setPhase call .finished state, [.unavailable call detail])

inductive Refresh where
  | pending (download : Nat)
  | skipped
  | refused (detail : String)
deriving DecidableEq

/-- `refresh`. -/
def refresh (tenant : String) (entry : Nat) (now : Int) (state : State) :
    State × List Event × Refresh :=
  let found := state.heap entry
  match found.pending with
  | some download => (state, [], .pending download)
  | none =>
      let fresh := decide (now < found.expires)
      if now - found.attempted < cooldownMs then
        (state, [], if fresh then .skipped
          else .refused "Manager public key refresh cooling down")
      else
        let quota := FixedWindow.roll (now / 1000) state.quota
        if maxActive ≤ state.active || maxRequests ≤ quota.used then
          ({ state with quota }, [], if fresh then .skipped
            else .refused "Manager public key refresh busy")
        else
          let id := state.downloads.length
          ({ state with
              heap := Function.update state.heap entry
                { found with attempted := now, pending := some id }
              active := state.active + 1
              quota := FixedWindow.take quota
              downloads := state.downloads ++ [⟨tenant, entry, .requested⟩] },
            [.started id tenant now], .pending id)

/-- What `authenticate` does once its keys are there. -/
def judge (runtime : Runtime) (options : Options) (call : Nat) (job : Job)
    (now : Int) (managerNow : Rat) (state : State) : State × List Event :=
  let entry := state.heap job.entry
  if entry.expires ≤ now then reject call (.keysExpired job.token) state
  else
    match verifyJwt runtime options job.token entry.keys managerNow with
    | .error detail =>
        reject call (.unverified job.token job.tenant entry.keys now
          managerNow detail) state
    | .ok caller =>
        (setPhase call (.confirming job caller entry.keys now) state, [])

/-- The token of `Bearer` authorization. -/
def bearer (authorization : Option Text) : Option Text :=
  authorization.bind fun value =>
    if "Bearer ".toList.isPrefixOf value then some (value.drop 7) else none

/-- `authenticate`, up to its first await. -/
def authenticate (runtime : Runtime) (options : Options) (call : Nat)
    (authorization : Option Text) (clock : Clock) (state : State) :
    State × List Event :=
  match bearer authorization with
  | none => reject call .missingBearer state
  | some token =>
      match selector runtime token with
      | .error detail => reject call (.malformed token detail) state
      | .ok (tenant, kid) =>
          match valueAt tenant state.entries with
          | none => reject call (.notAdmitted token tenant) state
          | some id =>
              let entry := state.heap id
              let job : Job := ⟨token, tenant, kid, id⟩
              if entry.expires ≤ clock.first ||
                  (keyOf entry.keys kid).isNone then
                match refresh tenant id clock.second state with
                | (state, events, .pending download) =>
                    (setPhase call (.waiting job download) state, events)
                | (state, events, .skipped) =>
                    (setPhase call (.ready job) state, events)
                | (state, events, .refused detail) =>
                    let (state, failure) := fail call detail state
                    (state, events ++ failure)
              else
                judge runtime options call job clock.second clock.manager state

/-- A slot for one more tenant: the first entry without a download goes when
the cache is full. -/
def makeRoom (state : State) : Option (List (String × Nat)) :=
  if maxEntries ≤ state.entries.length then
    (state.entries.find? fun entry => (state.heap entry.2).pending.isNone).map
      fun idle => discard idle.1 state.entries
  else some state.entries

def addEntry (tenant : String) (entries : List (String × Nat)) (state : State) :
    State :=
  { state with
    entries := entries ++ [(tenant, state.allocated)]
    heap := Function.update state.heap state.allocated ⟨[], 0, 0, none⟩
    allocated := state.allocated + 1 }

/-- `verifyLoginToken`, up to its first await. -/
def verifyLoginToken (runtime : Runtime) (options : Options) (call : Nat)
    (token : Text) (expectedTenant : String) (clock : Clock) (state : State) :
    State × List Event :=
  match selector runtime token with
  | .error detail => reject call (.malformed token detail) state
  | .ok (tenant, _) =>
      if tenant != expectedTenant then
        reject call (.tenantMismatch token expectedTenant) state
      else
        let authorization := some ("Bearer ".toList ++ token)
        match valueAt tenant state.entries with
        | some _ =>
            authenticate runtime options call authorization clock state
        | none =>
            match makeRoom state with
            | none => reject call (.cacheBusy token tenant) state
            | some entries =>
                authenticate runtime options call authorization clock
                  (addEntry tenant entries state)

/-! ### The steps -/

inductive SessionReply where
  | failed
  | status (code : Nat)
deriving DecidableEq

inductive Action where
  | authenticate (call : Nat) (authorization : Option Text) (clock : Clock)
  | verifyLoginToken (call : Nat) (token : Text) (expectedTenant : String)
      (clock : Clock)
  | rotate (tenant : String) (body : Text)
  | serve (download : Nat) (answer : Answer)
  | complete (download : Nat) (now : Int)
  | settle (download : Nat)
  | resume (call : Nat) (now : Int) (managerNow : Rat)
  | confirm (call : Nat) (reply : SessionReply)

def setProgress (id : Nat) (progress : Progress) (state : State) : State :=
  { state with
    downloads := state.downloads.modify id fun download =>
      { download with progress } }

/-- Manager answers the request. -/
def serve (runtime : Runtime) (id : Nat) (answer : Answer) (state : State) :
    State × List Event :=
  match state.downloads[id]? with
  | some ⟨tenant, _, .requested⟩ =>
      let body := state.published tenant
      (setProgress id (.answered body (download runtime tenant body answer))
        state, [.served tenant body])
  | _ => (state, [])

/-- The handlers of the download's promise. -/
def complete (id : Nat) (now : Int) (state : State) : State × List Event :=
  match state.downloads[id]? with
  | some ⟨tenant, entry, .answered body (.ok keys)⟩ =>
      ({ setProgress id (.completed none) state with
          heap := Function.update state.heap entry
            { state.heap entry with keys, expires := now + ttlMs } },
        [.completed tenant body keys now])
  | some ⟨_, _, .answered _ (.error reason)⟩ =>
      (setProgress id (.completed (some (unavailableKeys reason))) state, [])
  | _ => (state, [])

/-- `finally`. -/
def settle (id : Nat) (state : State) : State × List Event :=
  match state.downloads[id]? with
  | some ⟨_, entry, .completed failure⟩ =>
      ({ setProgress id (.settled failure) state with
          active := state.active - 1
          heap := Function.update state.heap entry
            { state.heap entry with pending := none } }, [])
  | _ => (state, [])

/-- `authenticate` after it has awaited `refresh`. -/
def resume (runtime : Runtime) (options : Options) (call : Nat) (now : Int)
    (managerNow : Rat) (state : State) : State × List Event :=
  match state.calls call with
  | .ready job => judge runtime options call job now managerNow state
  | .waiting job download =>
      match state.downloads[download]? with
      | some ⟨_, _, .settled none⟩ =>
          judge runtime options call job now managerNow state
      | some ⟨_, _, .settled (some detail)⟩ => fail call detail state
      | _ => (state, [])
  | _ => (state, [])

/-- `verifyManagerSession` and the end of `authenticate`. -/
def confirm (call : Nat) (reply : SessionReply) (state : State) :
    State × List Event :=
  match state.calls call with
  | .confirming job caller keys verified =>
      match reply with
      | .failed =>
          fail call "Manager authentication session is unavailable" state
      | .status code =>
          if 200 ≤ code && code ≤ 299 then
            (setPhase call .finished state,
              [.accepted call job caller keys verified])
          else if code == 401 || code == 403 then
            reject call (.revoked job.token) state
          else fail call "Manager authentication session check failed" state
  | _ => (state, [])

def isIdle (call : Nat) (state : State) : Bool :=
  match state.calls call with
  | .idle => true
  | _ => false

def step (runtime : Runtime) (options : Options) (state : State) :
    Action → State × List Event
  | .authenticate call authorization clock =>
      let state := { state with now := clock.second }
      if isIdle call state then
        authenticate runtime options call authorization clock state
      else (state, [])
  | .verifyLoginToken call token expectedTenant clock =>
      let state := { state with now := clock.second }
      if isIdle call state then
        verifyLoginToken runtime options call token expectedTenant clock state
      else (state, [])
  | .rotate tenant body =>
      ({ state with published := Function.update state.published tenant body },
        [])
  | .serve id answer => serve runtime id answer state
  | .complete id now => complete id now { state with now }
  | .settle id => settle id state
  | .resume call now managerNow =>
      resume runtime options call now managerNow { state with now }
  | .confirm call reply => confirm call reply state

def machine (runtime : Runtime) (options : Options) :
    Machine State Action Event where
  step := step runtime options

def initial (published : String → Text) (now : Nat) : State where
  published := published
  entries := []
  heap _ := ⟨[], 0, 0, none⟩
  allocated := 0
  downloads := []
  calls _ := .idle
  active := 0
  quota := ⟨0, 0⟩
  now := now

/-- No reading of the clock is before an earlier one. -/
def Forward (state : State) : Action → Prop
  | .authenticate _ _ clock =>
      state.now ≤ clock.first ∧ clock.first ≤ clock.second
  | .verifyLoginToken _ _ _ clock =>
      state.now ≤ clock.first ∧ clock.first ≤ clock.second
  | .complete _ now => state.now ≤ now
  | .resume _ now _ => state.now ≤ now
  | _ => True

instance (state : State) : DecidablePred (Forward state)
  | .authenticate _ _ _ => inferInstanceAs (Decidable (_ ∧ _))
  | .verifyLoginToken _ _ _ _ => inferInstanceAs (Decidable (_ ∧ _))
  | .complete _ _ => inferInstanceAs (Decidable (_ ≤ _))
  | .resume _ _ _ => inferInstanceAs (Decidable (_ ≤ _))
  | .rotate _ _ => isTrue trivial
  | .serve _ _ => isTrue trivial
  | .settle _ => isTrue trivial
  | .confirm _ _ => isTrue trivial

end AiTeam.Jwks
