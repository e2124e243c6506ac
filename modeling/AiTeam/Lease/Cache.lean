/-
`RuntimeLeaseCache`: the maps of the cache, its synchronous methods, and
`getOrLoad` as a machine whose calls interleave at their awaits.  Clock
readings and the outcomes of loaders are inputs.
-/
import Mathlib.Data.List.Dedup
import AiTeam.Machine
import AiTeam.Table

namespace AiTeam.Lease

variable {V : Type}

def maxRuntimeLeaseTtlMs : Int := 300000

def maxRuntimeLeaseEntries : Int := 128

structure Entry (V : Type) where
  key : String
  value : V
  loadedAt : Int
  expiresAt : Int
  ttlMs : Int
  loadedMonotonic : Int
  generation : Nat
deriving DecidableEq

/-- `RuntimeLeasePutOptions`. -/
structure PutOptions where
  now : Option Int
  userJwtExpiresAt : Option Int
  upstreamExpiresAt : Option Int
  maxTtlMs : Option Int
  loadedMonotonic : Option Int
deriving DecidableEq

structure Config where
  maxEntries : Option Int
  maxTtlMs : Option Int
deriving DecidableEq

/-- One reading of both clocks. -/
structure Clock where
  now : Int
  monotonic : Int
deriving DecidableEq

/-- The three maps.  `pending` maps a key to the number of its load. -/
structure Cache (V : Type) where
  entries : List (Entry V)
  generations : List (String × Nat)
  pending : List (String × Nat)
deriving DecidableEq

def generationIn (generations : List (String × Nat)) (key : String) : Nat :=
  ((lookup Prod.fst key generations).map Prod.snd).getD 0

def generation (cache : Cache V) (key : String) : Nat :=
  generationIn cache.generations key

def boundedLeaseTtl (now : Int) (userJwtExpiresAt upstreamExpiresAt :
    Option Int) (maxTtlMs : Option Int) : Option Int :=
  match userJwtExpiresAt, upstreamExpiresAt with
  | some jwt, some upstream =>
      let ttl := min (min (min (max (maxTtlMs.getD maxRuntimeLeaseTtlMs) 1)
        maxRuntimeLeaseTtlMs) (jwt - now)) (upstream - now)
      if 0 < ttl then some ttl else none
  | _, _ => none

/-- `get`: an invalid entry is dropped, a valid one becomes the newest. -/
def get (cache : Cache V) (key : String) (clock : Clock) :
    Cache V × Option (Entry V) :=
  match lookup Entry.key key cache.entries with
  | none => (cache, none)
  | some entry =>
      let others := cache.entries.filter (·.key != key)
      if entry.generation != generation cache key ||
          entry.expiresAt ≤ clock.now ||
          entry.ttlMs ≤ clock.monotonic - entry.loadedMonotonic then
        ({ cache with entries := others }, none)
      else ({ cache with entries := others ++ [entry] }, some entry)

/-- `evict`: the oldest entries go. -/
def evict (config : Config) (entries : List (Entry V)) : List (Entry V) :=
  let limit := min (max (config.maxEntries.getD maxRuntimeLeaseEntries) 1)
    maxRuntimeLeaseEntries
  entries.drop (entries.length - limit.toNat)

def put (config : Config) (cache : Cache V) (key : String) (value : V)
    (options : PutOptions) (clock : Clock) : Cache V × Option (Entry V) :=
  let now := options.now.getD clock.now
  match boundedLeaseTtl now options.userJwtExpiresAt options.upstreamExpiresAt
      (options.maxTtlMs.or config.maxTtlMs) with
  | none => (cache, none)
  | some ttl =>
      let entry : Entry V := {
        key, value, loadedAt := now, expiresAt := now + ttl, ttlMs := ttl,
        loadedMonotonic := options.loadedMonotonic.getD clock.monotonic,
        generation := generation cache key }
      ({ cache with
          entries := evict config
            (cache.entries.filter (·.key != key) ++ [entry]) }, some entry)

/-! ### Clearing -/

/-- `generations.set(key, generation + 1)`. -/
def bump (generations : List (String × Nat)) (key : String) :
    List (String × Nat) :=
  generations.filter (·.1 != key) ++ [(key, generationIn generations key + 1)]

/-- Drop the entries and the pending loads of the keys and move their
generations on. -/
def invalidate (cache : Cache V) (keys : List String) : Cache V where
  entries := cache.entries.filter (!keys.contains ·.key)
  pending := cache.pending.filter (!keys.contains ·.1)
  generations := keys.foldl bump cache.generations

/-- The keys of the three maps. -/
def knownKeys (cache : Cache V) : List String :=
  (cache.entries.map Entry.key ++ cache.generations.map Prod.fst ++
    cache.pending.map Prod.fst).dedup

inductive Clear where
  | clear (key : String)
  | clearOwner (scope : String)
  | clearAll
deriving DecidableEq

/-- The keys a clearing call is meant for. -/
def Clear.covers : Clear → String → Bool
  | .clear key, other => other == key
  | .clearOwner scope, other =>
      other == scope || other.startsWith (scope ++ "|")
  | .clearAll, _ => true

def clear (cache : Cache V) (key : String) : Cache V := invalidate cache [key]

def clearOwner (cache : Cache V) (scope : String) : Cache V :=
  invalidate cache ((knownKeys cache).filter (Clear.clearOwner scope).covers)

def clearAll (cache : Cache V) : Cache V := invalidate cache (knownKeys cache)

def applyClear (cache : Cache V) : Clear → Cache V
  | .clear key => Lease.clear cache key
  | .clearOwner scope => Lease.clearOwner cache scope
  | .clearAll => Lease.clearAll cache

/-! ### Loads -/

/-- How the loader settled; for an error, what the predicates of the options
say of it. -/
inductive Outcome (V : Type) where
  | value (value : V)
  | failed (denial retryable : Bool)
deriving DecidableEq

inductive Failure where
  /-- The error of the loader. -/
  | loader
  /-- `RuntimeLeaseInvalidatedError`. -/
  | invalidated
deriving DecidableEq

structure Request (V : Type) where
  key : String
  putOptions : V → Int → PutOptions
  allowReuseOnFailure : Bool
  forceRefresh : Bool

/-- An `operation`: `result` once its promise is settled, `finished` once the
call that started it has continued. -/
structure Load (V : Type) where
  id : Nat
  request : Request V
  generation : Nat
  loadedAt : Int
  loadedMonotonic : Int
  fallback : Option V
  owner : Nat
  result : Option (Except Failure V)
  finished : Bool

/-- A call that awaits the pending load of another one. -/
structure Joined where
  caller : Nat
  load : Nat
deriving DecidableEq

structure State (V : Type) where
  cache : Cache V
  loads : List (Load V)
  joined : List Joined
  nextLoad : Nat

def getLoad (state : State V) (id : Nat) : Option (Load V) :=
  lookup Load.id id state.loads

/-- What callers and observers of the cache see. -/
inductive Event (V : Type) where
  /-- The call resolved with a cached value. -/
  | hit (caller : Nat) (key : String) (value : V)
  /-- The call resolved with the value of a load. -/
  | resolved (caller load : Nat) (value : V)
  | rejected (caller load : Nat) (failure : Failure)
  /-- A load put its value into the cache. -/
  | stored (load : Nat) (key : String)
deriving DecidableEq

inductive Action (V : Type) where
  | getOrLoad (caller : Nat) (request : Request V) (clock : Clock)
  /-- The loader settles and the operation continues. -/
  | settle (load : Nat) (outcome : Outcome V) (clock : Clock)
  /-- The call that started the load continues. -/
  | continueOwner (load : Nat) (clock : Clock)
  /-- A joined call continues. -/
  | continueJoined (joined : Joined)
  | get (key : String) (clock : Clock)
  | put (key : String) (value : V) (options : PutOptions) (clock : Clock)
  | clear (clear : Clear)

/-- The part of `getOrLoad` before its first await. -/
def beginLoad (state : State V) (caller : Nat) (request : Request V)
    (clock : Clock) : State V × List (Event V) :=
  let (cache, cached) := get state.cache request.key clock
  let state := { state with cache }
  match cached.filter fun _ => !request.forceRefresh with
  | some entry => (state, [.hit caller request.key entry.value])
  | none =>
      match lookup Prod.fst request.key cache.pending with
      | some (_, load) =>
          ({ state with joined := state.joined ++ [⟨caller, load⟩] }, [])
      | none =>
          let load : Load V := {
            id := state.nextLoad, request,
            generation := generation cache request.key,
            loadedAt := clock.now, loadedMonotonic := clock.monotonic,
            fallback := cached.map Entry.value, owner := caller,
            result := none, finished := false }
          ({ state with
              cache := { cache with
                pending := cache.pending ++ [(request.key, state.nextLoad)] },
              loads := state.loads ++ [load],
              nextLoad := state.nextLoad + 1 }, [])

/-- The body of the operation after its loader has settled. -/
def operationResult (cache : Cache V) (load : Load V) (outcome : Outcome V)
    (clock : Clock) : Cache V × Except Failure V :=
  match outcome with
  | .value value => (cache, .ok value)
  | .failed true _ => (clear cache load.request.key, .error .loader)
  | .failed false retryable =>
      if generation cache load.request.key != load.generation then
        (cache, .error .invalidated)
      else if load.request.allowReuseOnFailure && retryable then
        match load.fallback with
        | some value => (cache, .ok value)
        | none =>
            match get cache load.request.key clock with
            | (cache, some current) => (cache, .ok current.value)
            | (cache, none) => (cache, .error .loader)
      else (cache, .error .loader)

/-- `UPDATE` of one load. -/
def setLoad (state : State V) (id : Nat) (change : Load V → Load V) :
    List (Load V) :=
  updateWhere (·.id == id) change state.loads

theorem getLoad_setLoad (state : State V) (id : Nat)
    (change : Load V → Load V) (hid : ∀ load, (change load).id = load.id)
    (other : Nat) :
    lookup Load.id other (setLoad state id change) =
      (getLoad state other).map fun load =>
        if load.id == id then change load else load :=
  lookup_updateWhere Load.id other _ change hid state.loads

/-- `finally`: the pending entry goes if it is still this load. -/
def detach (cache : Cache V) (key : String) (load : Nat) : Cache V :=
  { cache with
    pending := cache.pending.filter (fun entry => entry != (key, load)) }

/-- The part of `getOrLoad` after `await operation`. -/
def finishLoad (config : Config) (state : State V) (load : Load V)
    (result : Except Failure V) (clock : Clock) :
    State V × List (Event V) :=
  let key := load.request.key
  let loads := setLoad state load.id fun load => { load with finished := true }
  match result with
  | .error failure =>
      ({ state with cache := detach state.cache key load.id, loads },
        [.rejected load.owner load.id failure])
  | .ok value =>
      if generation state.cache key != load.generation then
        ({ state with cache := detach state.cache key load.id, loads },
          [.rejected load.owner load.id .invalidated])
      else
        let options := { load.request.putOptions value load.loadedAt with
          loadedMonotonic := some load.loadedMonotonic }
        let (cache, entry) := put config state.cache key value options clock
        ({ state with cache := detach cache key load.id, loads },
          (if entry.isSome then [.stored load.id key] else []) ++
            [.resolved load.owner load.id value])

def step (config : Config) (state : State V) :
    Action V → State V × List (Event V)
  | .getOrLoad caller request clock => beginLoad state caller request clock
  | .settle id outcome clock =>
      match getLoad state id with
      | some load =>
          if load.result.isSome then (state, [])
          else
            let (cache, result) := operationResult state.cache load outcome
              clock
            ({ state with
                cache, loads := setLoad state id fun load =>
                  { load with result := some result } }, [])
      | none => (state, [])
  | .continueOwner id clock =>
      match getLoad state id with
      | some load =>
          match load.result, load.finished with
          | some result, false => finishLoad config state load result clock
          | _, _ => (state, [])
      | none => (state, [])
  | .continueJoined joined =>
      if state.joined.contains joined then
        match (getLoad state joined.load).bind Load.result with
        | some result =>
            ({ state with joined := state.joined.erase joined },
              [match result with
                | .ok value => .resolved joined.caller joined.load value
                | .error failure =>
                    .rejected joined.caller joined.load failure])
        | none => (state, [])
      else (state, [])
  | .get key clock =>
      ({ state with cache := (Lease.get state.cache key clock).1 }, [])
  | .put key value options clock =>
      ({ state with
        cache := (Lease.put config state.cache key value options clock).1 },
        [])
  | .clear clear =>
      ({ state with cache := applyClear state.cache clear }, [])

def machine (config : Config) : Machine (State V) (Action V) (Event V) where
  step := step config

def initial : State V := ⟨⟨[], [], []⟩, [], [], 0⟩

end AiTeam.Lease
