/-
How long a runtime lease lives: what `getOrLoad` returns was loaded at most
`maxRuntimeLeaseTtlMs` ago and has not expired.  One step is one turn of the
event loop: a load that completes, the call that started it and the calls that
joined it continue at one clock reading.
-/
import AiTeam.Lease.Cache

namespace AiTeam.Lease

variable {V : Type}

/-! ### Turns -/

/-- What `ensureRuntimeModel` passes as `putOptions`; `expiry` is
`expiryMillis(value.expires_at)` and `jwt` the expiry of the caller's token. -/
def runtimePutOptions (expiry : V → Option Int) (jwt : Option Int) (value : V)
    (loadedAt : Int) : PutOptions where
  now := some loadedAt
  userJwtExpiresAt := jwt
  upstreamExpiresAt := expiry value
  maxTtlMs := none
  loadedMonotonic := none

inductive Turn (V : Type) where
  | call (caller : Nat) (key : String) (jwt : Option Int)
      (forceRefresh allowReuseOnFailure : Bool) (clock : Clock)
  | complete (load : Nat) (outcome : Outcome V) (clock : Clock)
  | clear (clear : Clear) (clock : Clock)

def Turn.now : Turn V → Int
  | .call _ _ _ _ _ clock => clock.now
  | .complete _ _ clock => clock.now
  | .clear _ clock => clock.now

/-- What an observer with a watch sees. -/
inductive Seen (V : Type) where
  /-- A loader resolved, for a caller with this token expiry. -/
  | loaded (time : Int) (jwt : Option Int) (value : V)
  /-- A call returned the value. -/
  | returned (time : Int) (caller : Nat) (value : V)
deriving DecidableEq

def Seen.time : Seen V → Int
  | .loaded time _ _ => time
  | .returned time _ _ => time

structure Timed (V : Type) where
  lease : State V
  now : Int

/-- The load while its loader runs. -/
def inFlight (state : State V) (id : Nat) : Option (Load V) :=
  (getLoad state id).filter fun load => load.result.isNone

/-- The steps of the cache in one turn. -/
def turnActions (expiry : V → Option Int) (state : State V) :
    Turn V → List (Action V)
  | .call caller key jwt forceRefresh allowReuseOnFailure clock =>
      [.getOrLoad caller
        { key, putOptions := runtimePutOptions expiry jwt,
          allowReuseOnFailure, forceRefresh } clock]
  | .complete id outcome clock =>
      if (inFlight state id).isSome then
        .settle id outcome clock :: .continueOwner id clock ::
          (state.joined.filter (·.load == id)).map .continueJoined
      else []
  | .clear clear _ => [.clear clear]

def loadedBy (state : State V) : Turn V → List (Seen V)
  | .complete id (.value value) clock =>
      match inFlight state id with
      | some load =>
          [.loaded clock.now
            (load.request.putOptions value load.loadedAt).userJwtExpiresAt
            value]
      | none => []
  | _ => []

def returnedBy (time : Int) : Event V → Option (Seen V)
  | .hit caller _ value => some (.returned time caller value)
  | .resolved caller _ value => some (.returned time caller value)
  | .rejected _ _ _ => none
  | .stored _ _ => none

/-- `getOrLoad` at the pace of the event loop. -/
def timed (config : Config) (expiry : V → Option Int) :
    Machine (Timed V) (Turn V) (Seen V) where
  step state turn :=
    let actions := turnActions expiry state.lease turn
    (⟨(machine config).run state.lease actions, turn.now⟩,
      loadedBy state.lease turn ++
        ((machine config).trace state.lease actions).filterMap
          (returnedBy turn.now))

/-! ### What is promised -/

/-- The sighting is a load of the value that lets it live until then. -/
def Seen.Bounds (expiry : V → Option Int) (time : Int) (value : V) :
    Seen V → Prop
  | .loaded loadedAt jwt found =>
      found = value ∧ time ≤ loadedAt + maxRuntimeLeaseTtlMs ∧
        (∀ e ∈ jwt, time ≤ e) ∧ ∀ e ∈ expiry value, time ≤ e
  | .returned _ _ _ => False

instance [DecidableEq V] (expiry : V → Option Int) (time : Int) (value : V) :
    DecidablePred (Seen.Bounds expiry time value)
  | .loaded _ _ _ => inferInstanceAs (Decidable (_ ∧ _))
  | .returned _ _ _ => inferInstanceAs (Decidable False)

/-- An earlier load of the value lets a call return it at this time. -/
def Covered (expiry : V → Option Int) (past : List (Seen V)) (time : Int)
    (value : V) : Prop :=
  ∃ seen ∈ past, seen.time ≤ time ∧ seen.Bounds expiry time value

instance [DecidableEq V] (expiry : V → Option Int) (past : List (Seen V))
    (time : Int) (value : V) : Decidable (Covered expiry past time value) :=
  inferInstanceAs (Decidable (∃ seen ∈ past, _))

/-- The failed load would answer with a value it did not load. -/
def fallsBack (cache : Cache V) (load : Load V) (clock : Clock) : Bool :=
  generation cache load.request.key == load.generation &&
    load.request.allowReuseOnFailure &&
    (load.fallback.isSome || (get cache load.request.key clock).2.isSome)

/-- Time does not run backwards. -/
def Forward (state : Timed V) (turn : Turn V) : Prop := state.now ≤ turn.now

instance (state : Timed V) (turn : Turn V) : Decidable (Forward state turn) :=
  inferInstanceAs (Decidable (_ ≤ _))

/-- No failed load falls back on a cached value, and no load completes with
material that has expired by then. -/
def FreshOutcome (expiry : V → Option Int) (cache : Cache V) (clock : Clock)
    (load : Load V) : Outcome V → Prop
  | .failed denial retryable =>
      denial = true ∨ retryable = false ∨ fallsBack cache load clock = false
  | .value value =>
      (∀ e ∈ (load.request.putOptions value load.loadedAt).userJwtExpiresAt,
        clock.now ≤ e) ∧ ∀ e ∈ expiry value, clock.now ≤ e

instance (expiry : V → Option Int) (cache : Cache V) (clock : Clock)
    (load : Load V) : DecidablePred (FreshOutcome expiry cache clock load)
  | .failed _ _ => inferInstanceAs (Decidable (_ ∨ _))
  | .value _ => inferInstanceAs (Decidable (_ ∧ _))

def Fresh (expiry : V → Option Int) (state : Timed V) : Turn V → Prop
  | .complete id outcome clock =>
      ∀ load ∈ inFlight state.lease id,
        FreshOutcome expiry state.lease.cache clock load outcome
  | _ => True

instance (expiry : V → Option Int) (state : Timed V) :
    DecidablePred (Fresh expiry state)
  | .complete _ _ _ => inferInstanceAs (Decidable (∀ load ∈ _, _))
  | .call _ _ _ _ _ _ => isTrue trivial
  | .clear _ _ => isTrue trivial

/-! ### The entries of the cache -/

theorem get_entries {cache : Cache V} {key : String} {clock : Clock}
    {entry : Entry V} (h : entry ∈ (get cache key clock).1.entries) :
    entry ∈ cache.entries := by
  unfold get at h
  cases hfound : lookup Entry.key key cache.entries with
  | none => simpa [hfound] using h
  | some found =>
      simp only [hfound] at h
      split at h
      · exact (List.mem_filter.mp h).1
      · rcases List.mem_append.mp h with hother | hsame
        · exact (List.mem_filter.mp hother).1
        · rw [List.mem_singleton.mp hsame]
          exact lookup_mem hfound

variable {clock : Clock} {entry : Entry V} {cache : Cache V} {key : String}
  {value : V} {load : Load V} {seen : Seen V} {id : Nat} {turn : Turn V}

theorem get_some (h : (get cache key clock).2 = some entry) :
    entry ∈ cache.entries ∧ clock.now < entry.expiresAt := by
  unfold get at h
  cases hfound : lookup Entry.key key cache.entries with
  | none => simp [hfound] at h
  | some found =>
      simp only [hfound] at h
      split at h
      · exact absurd h (Option.some_ne_none entry).symm
      · next hvalid =>
          rw [← Option.some.inj h]
          simp only [Bool.or_eq_true, decide_eq_true_eq, not_or] at hvalid
          exact ⟨lookup_mem hfound, Int.not_le.mp hvalid.1.2⟩

theorem mem_evict {config : Config} {entries : List (Entry V)}
    (h : entry ∈ evict config entries) : entry ∈ entries :=
  List.mem_of_mem_drop h

theorem boundedLeaseTtl_some {now : Int} {jwt upstream maxTtlMs : Option Int}
    {ttl : Int} (h : boundedLeaseTtl now jwt upstream maxTtlMs = some ttl) :
    ttl ≤ maxRuntimeLeaseTtlMs ∧ (∀ e ∈ jwt, now + ttl ≤ e) ∧
      ∀ e ∈ upstream, now + ttl ≤ e := by
  cases jwt with
  | none => simp [boundedLeaseTtl] at h
  | some jwt =>
      cases upstream with
      | none => simp [boundedLeaseTtl] at h
      | some upstream =>
          simp only [boundedLeaseTtl, Option.ite_none_right_eq_some,
            Option.some.injEq] at h
          simp only [Option.mem_some_iff, forall_eq']
          omega

/-- A put keeps old entries and adds one within the bounds of its options. -/
theorem put_entries {config : Config} {options : PutOptions}
    (h : entry ∈ (put config cache key value options clock).1.entries) :
    entry ∈ cache.entries ∨
      (entry.value = value ∧
        entry.expiresAt ≤ options.now.getD clock.now + maxRuntimeLeaseTtlMs ∧
        (∀ e ∈ options.userJwtExpiresAt, entry.expiresAt ≤ e) ∧
        ∀ e ∈ options.upstreamExpiresAt, entry.expiresAt ≤ e) := by
  unfold put at h
  simp only at h
  split at h
  · exact Or.inl h
  · next ttl httl =>
      rcases List.mem_append.mp (mem_evict h) with hold | hnew
      · exact Or.inl (List.mem_filter.mp hold).1
      · obtain ⟨hmax, hjwt, hupstream⟩ := boundedLeaseTtl_some httl
        rw [List.mem_singleton.mp hnew]
        exact Or.inr ⟨rfl, Int.add_le_add_left hmax _, hjwt, hupstream⟩

theorem applyClear_entries {clear : Clear}
    (h : entry ∈ (applyClear cache clear).entries) : entry ∈ cache.entries := by
  cases clear <;> exact (List.mem_filter.mp h).1

theorem operationResult_entries {outcome : Outcome V}
    (h : entry ∈ (operationResult cache load outcome clock).1.entries) :
    entry ∈ cache.entries := by
  unfold operationResult at h
  split at h
  · exact h
  · exact (List.mem_filter.mp h).1
  · split at h
    · exact h
    split at h
    · split at h
      · exact h
      · have hget := @get_entries V cache load.request.key clock entry
        split at h <;> simp_all
    · exact h

/-- A failed load that does not fall back rejects. -/
theorem operationResult_failed {denial retryable : Bool}
    (h : denial = true ∨ retryable = false ∨
      fallsBack cache load clock = false) (value : V) :
    (operationResult cache load (.failed denial retryable) clock).2 ≠
      .ok value := by
  unfold operationResult
  cases denial with
  | true => simp
  | false =>
      simp only
      split
      · simp
      · next hgeneration =>
          split
          · next hreuse =>
              simp only [Bool.and_eq_true] at hreuse
              simp only [bne_iff_ne, ne_eq, Decidable.not_not] at hgeneration
              have hnone : fallsBack cache load clock = false := by
                simpa [hreuse.2] using h
              simp only [fallsBack, hgeneration, beq_self_eq_true, hreuse.1,
                Bool.and_true, Bool.true_and, Bool.or_eq_false_iff,
                Option.isSome_eq_false_iff, Option.isNone_iff_eq_none] at hnone
              have hget := hnone.2
              rw [hnone.1]
              simp only
              split
              · next hsome => rw [hsome] at hget; simp at hget
              · simp
          · simp

/-! ### The invariant -/

variable {expiry : V → Option Int}

theorem Seen.Bounds.mono {time later : Int}
    (h : seen.Bounds expiry later value) (hle : time ≤ later) :
    seen.Bounds expiry time value := by
  cases seen with
  | returned => exact h
  | loaded loadedAt jwt found =>
      obtain ⟨hvalue, hmax, hjwt, hexpiry⟩ := h
      exact ⟨hvalue, by omega, fun e he => Int.le_trans hle (hjwt e he),
        fun e he => Int.le_trans hle (hexpiry e he)⟩

theorem Covered.append {past : List (Seen V)} {time : Int}
    (h : Covered expiry past time value) (more : List (Seen V)) :
    Covered expiry (past ++ more) time value := by
  obtain ⟨seen, hseen, hcovers⟩ := h
  exact ⟨seen, List.mem_append_left more hseen, hcovers⟩

/-- Loads started in the past for a caller of `ensureRuntimeModel`, and every
entry expires while a load that was seen lets its value live. -/
structure Leased (expiry : V → Option Int) (past : List (Seen V)) (now : Int)
    (state : State V) : Prop where
  seen_le : ∀ seen ∈ past, seen.time ≤ now
  entries : ∀ entry ∈ state.cache.entries,
    ∃ seen ∈ past, seen.Bounds expiry entry.expiresAt entry.value
  loads : ∀ load ∈ state.loads, load.loadedAt ≤ now ∧
    ∃ jwt, load.request.putOptions = runtimePutOptions expiry jwt

theorem leased_initial (now : Int) : Leased expiry [] now (initial : State V) :=
  ⟨fun _ h => (nomatch h), fun _ h => (nomatch h), fun _ h => (nomatch h)⟩

variable {past : List (Seen V)} {now : Int} {state : State V}

section

variable (h : Leased expiry past now state)
include h

theorem Leased.later {time : Int} (hle : now ≤ time) :
    Leased expiry past time state :=
  ⟨fun seen hseen => Int.le_trans (h.seen_le seen hseen) hle, h.entries,
    fun load hload =>
      ⟨Int.le_trans (h.loads load hload).1 hle, (h.loads load hload).2⟩⟩

theorem Leased.append {more : List (Seen V)}
    (hmore : ∀ seen ∈ more, seen.time ≤ now) :
    Leased expiry (past ++ more) now state := by
  refine ⟨?_, ?_, h.loads⟩
  · intro seen hseen
    rcases List.mem_append.mp hseen with hold | hnew
    · exact h.seen_le seen hold
    · exact hmore seen hnew
  · intro entry hentry
    obtain ⟨seen, hseen, hbounds⟩ := h.entries entry hentry
    exact ⟨seen, List.mem_append_left more hseen, hbounds⟩

/-- A step that adds no entry and no load. -/
theorem Leased.shrink {after : State V}
    (hentries : ∀ entry ∈ after.cache.entries, entry ∈ state.cache.entries)
    (hloads : after.loads = state.loads) : Leased expiry past now after :=
  ⟨h.seen_le, fun entry hentry => h.entries entry (hentries entry hentry),
    hloads ▸ h.loads⟩

/-- An entry the cache hands out covers the call that gets it. -/
theorem Leased.covered_get (hnow : now ≤ clock.now)
    (hget : (get state.cache key clock).2 = some entry) :
    Covered expiry past clock.now entry.value := by
  obtain ⟨hmem, hlive⟩ := get_some hget
  obtain ⟨seen, hseen, hbounds⟩ := h.entries entry hmem
  exact ⟨seen, hseen, Int.le_trans (h.seen_le seen hseen) hnow,
    hbounds.mono (Int.le_of_lt hlive)⟩

theorem Leased.setLoad (id : Nat) (cache : Cache V) (change : Load V → Load V)
    (hchange : ∀ load, (change load).loadedAt = load.loadedAt ∧
      (change load).request = load.request)
    (hentries : ∀ entry ∈ cache.entries,
      ∃ seen ∈ past, seen.Bounds expiry entry.expiresAt entry.value) :
    Leased expiry past now
      { state with cache, loads := setLoad state id change } := by
  refine ⟨h.seen_le, hentries, ?_⟩
  intro load hload
  obtain ⟨old, hold, rfl⟩ := List.mem_map.mp hload
  have hkept := h.loads old hold
  simp only
  split
  · rw [(hchange old).1, (hchange old).2]
    exact hkept
  · exact hkept

/-! ### One turn -/

/-- A call returns a cached value or starts or joins a load. -/
theorem Leased.beginLoad (caller : Nat) (request : Request V) (clock : Clock)
    (hnow : now ≤ clock.now) {jwt : Option Int}
    (hrequest : request.putOptions = runtimePutOptions expiry jwt) :
    Leased expiry past clock.now
        (Lease.beginLoad state caller request clock).1 ∧
      ∀ seen ∈ (Lease.beginLoad state caller request clock).2.filterMap
        (returnedBy clock.now),
        ∃ value, seen = .returned clock.now caller value ∧
          Covered expiry past clock.now value := by
  have hlater := h.later hnow
  have hshrunk : ∀ entry ∈ (get state.cache request.key clock).1.entries,
      entry ∈ state.cache.entries := fun entry => get_entries
  unfold Lease.beginLoad
  simp only
  cases hcached : (get state.cache request.key clock).2.filter
      fun _ => !request.forceRefresh with
  | some entry =>
      have hget := (Option.filter_eq_some_iff.mp hcached).1
      refine ⟨hlater.shrink hshrunk rfl, ?_⟩
      intro seen hseen
      have hseen : seen = .returned clock.now caller entry.value := by
        simpa [returnedBy] using hseen
      exact ⟨entry.value, hseen, h.covered_get hnow hget⟩
  | none =>
      simp only
      cases hpending : lookup Prod.fst request.key
          (get state.cache request.key clock).1.pending with
      | some found =>
          exact ⟨hlater.shrink hshrunk rfl, fun _ hseen => by cases hseen⟩
      | none =>
          refine ⟨⟨hlater.seen_le, ?_, ?_⟩, fun _ hseen => by cases hseen⟩
          · exact fun entry hentry =>
              hlater.entries entry (hshrunk entry hentry)
          · intro load hload
            rcases List.mem_append.mp hload with hold | hnew
            · exact hlater.loads load hold
            · rw [List.mem_singleton.mp hnew]
              exact ⟨Int.le_refl _, jwt, hrequest⟩

end

/-- The load, if it resolved, did so now with live material. -/
def Delivers (expiry : V → Option Int) (past : List (Seen V)) (now : Int)
    (load : Load V) : Prop :=
  ∀ value, load.result = some (.ok value) →
    ∃ jwt, load.request.putOptions = runtimePutOptions expiry jwt ∧
      .loaded now jwt value ∈ past ∧ (∀ e ∈ jwt, now ≤ e) ∧
      ∀ e ∈ expiry value, now ≤ e

theorem Delivers.covered (h : Delivers expiry past now load)
    (hresult : load.result = some (.ok value)) :
    Covered expiry past now value := by
  obtain ⟨jwt, _, hmem, hjwt, hexpiry⟩ := h value hresult
  have hmax : now ≤ now + maxRuntimeLeaseTtlMs := by
    simp only [maxRuntimeLeaseTtlMs]
    omega
  exact ⟨_, hmem, Int.le_refl now, rfl, hmax, hjwt, hexpiry⟩

/-- What the calls that wait for the load keep true. -/
structure Settled (expiry : V → Option Int) (past : List (Seen V)) (now : Int)
    (id : Nat) (state : State V) : Prop where
  leased : Leased expiry past now state
  delivers : ∀ load, getLoad state id = some load →
    Delivers expiry past now load

/-- The call that started the load stores its value and returns it. -/
theorem Settled.finishLoad (config : Config)
    (h : Settled expiry past now id state) (clock : Clock)
    (hload : getLoad state id = some load) {result : Except Failure V}
    (hresult : load.result = some result) :
    Settled expiry past now id
        (Lease.finishLoad config state load result clock).1 ∧
      ∀ seen ∈ (Lease.finishLoad config state load result clock).2.filterMap
        (returnedBy now), ∃ caller value, seen = .returned now caller value ∧
          Covered expiry past now value := by
  have hid : load.id = id := lookup_key hload
  have hdelivers := h.delivers load hload
  have hfinished : ∀ cache : Cache V,
      (∀ entry ∈ cache.entries,
        ∃ seen ∈ past, seen.Bounds expiry entry.expiresAt entry.value) →
      Settled expiry past now id { state with
        cache, loads := Lease.setLoad state load.id fun load =>
          { load with finished := true } } := by
    intro cache hentries
    refine ⟨h.leased.setLoad load.id cache _ (fun _ => ⟨rfl, rfl⟩) hentries, ?_⟩
    intro after hafter
    change lookup Load.id id (Lease.setLoad state load.id _) = _ at hafter
    rw [getLoad_setLoad, hload, Option.map_some, beq_self_eq_true,
      if_pos rfl] at hafter
    · rw [← Option.some.inj hafter]
      exact hdelivers
    · exact fun _ => rfl
  unfold Lease.finishLoad
  cases result with
  | error failure =>
      exact ⟨hfinished _ h.leased.entries, fun _ hseen => by
        simp [returnedBy] at hseen⟩
  | ok value =>
      simp only
      split
      · exact ⟨hfinished _ h.leased.entries, fun _ hseen => by
          simp [returnedBy] at hseen⟩
      · obtain ⟨jwt, hrequest, hmem, _, _⟩ := hdelivers value hresult
        refine ⟨hfinished _ ?_, ?_⟩
        · intro entry hentry
          rcases put_entries hentry with hold | ⟨hvalue, hmax, hjwt, hup⟩
          · exact h.leased.entries entry hold
          · rw [hrequest] at hmax hjwt hup
            have hstarted := (h.leased.loads load (lookup_mem hload)).1
            refine ⟨_, hmem, hvalue.symm, ?_, hjwt, ?_⟩
            · exact Int.le_trans hmax (Int.add_le_add_right hstarted _)
            · rw [hvalue]
              exact hup
        · intro seen hseen
          rw [List.filterMap_append, List.filterMap_eq_nil_iff.mpr] at hseen
          · exact ⟨_, value, List.mem_singleton.mp hseen,
              hdelivers.covered hresult⟩
          · intro event hevent
            split at hevent
            · rw [List.mem_singleton.mp hevent]
              rfl
            · exact nomatch hevent

/-- A call that joined the load returns its value. -/
theorem Settled.continueJoined (config : Config)
    (h : Settled expiry past now id state) (joined : Joined)
    (hid : joined.load = id) :
    Settled expiry past now id (step config state (.continueJoined joined)).1 ∧
      ∀ seen ∈ (step config state (.continueJoined joined)).2.filterMap
        (returnedBy now), ∃ caller value, seen = .returned now caller value ∧
          Covered expiry past now value := by
  simp only [step]
  split
  · cases hfound : (getLoad state joined.load).bind Load.result with
    | none => exact ⟨h, fun _ hseen => nomatch hseen⟩
    | some result =>
        obtain ⟨load, hload, hresult⟩ := Option.bind_eq_some_iff.mp hfound
        rw [hid] at hload
        refine ⟨⟨h.leased.shrink (fun _ hentry => hentry) rfl, h.delivers⟩, ?_⟩
        intro seen hseen
        cases result with
        | error failure => simp [returnedBy] at hseen
        | ok value =>
            have hseen : seen = .returned now joined.caller value := by
              simpa [returnedBy] using hseen
            exact ⟨_, value, hseen, (h.delivers load hload).covered hresult⟩
  · exact ⟨h, fun _ hseen => nomatch hseen⟩

theorem Settled.joinedRun (config : Config) (joined : List Joined)
    (h : Settled expiry past now id state)
    (hid : ∀ call ∈ joined, call.load = id) :
    Settled expiry past now id
        ((machine config).run state (joined.map .continueJoined)) ∧
      ∀ seen ∈ ((machine config).trace state
        (joined.map .continueJoined)).filterMap (returnedBy now),
        ∃ caller value, seen = .returned now caller value ∧
          Covered expiry past now value := by
  induction joined generalizing state with
  | nil => exact ⟨h, fun _ hseen => nomatch hseen⟩
  | cons call rest ih =>
      obtain ⟨hnext, hcall⟩ := h.continueJoined config call
        (hid call List.mem_cons_self)
      obtain ⟨hrun, hrest⟩ := ih hnext fun other hother =>
        hid other (List.mem_cons_of_mem _ hother)
      refine ⟨hrun, ?_⟩
      intro seen hseen
      simp only [List.map_cons, Machine.trace, List.filterMap_append,
        List.mem_append] at hseen
      exact hseen.elim (hcall seen) (hrest seen)

/-- The loader settles: afterwards its load delivers live material or
rejects. -/
theorem Leased.settle (config : Config) (h : Leased expiry past now state)
    (hload : inFlight state id = some load) (outcome : Outcome V)
    (hnow : clock.now = now)
    (hfresh : FreshOutcome expiry state.cache clock load outcome)
    (hseen : ∀ value, outcome = .value value → .loaded clock.now
      (load.request.putOptions value load.loadedAt).userJwtExpiresAt value ∈
        past) :
    Settled expiry past now id
      (step config state (.settle id outcome clock)).1 := by
  obtain ⟨hfound, hopen⟩ := Option.filter_eq_some_iff.mp hload
  have hid : load.id = id := lookup_key hfound
  simp only [step, hfound]
  rw [if_neg (by simpa using hopen)]
  refine ⟨h.setLoad id _ _ (fun _ => ⟨rfl, rfl⟩) ?_, ?_⟩
  · exact fun entry hentry => h.entries entry (operationResult_entries hentry)
  intro after hafter value hresult
  change lookup Load.id id (Lease.setLoad state id _) = _ at hafter
  rw [getLoad_setLoad, hfound, Option.map_some, hid, beq_self_eq_true,
    if_pos rfl] at hafter
  · obtain ⟨_, jwt, hrequest⟩ := h.loads load (lookup_mem hfound)
    rw [← Option.some.inj hafter] at hresult ⊢
    have hok := Option.some.inj hresult
    cases outcome with
    | failed denial retryable =>
        exact absurd hok (operationResult_failed hfresh value)
    | value loaded =>
        have hsame : loaded = value := Except.ok.inj hok
        subst hsame
        have hmem := hseen _ rfl
        obtain ⟨hjwt, hexpiry⟩ := hfresh
        rw [hrequest] at hmem hjwt
        rw [hnow] at hmem hjwt hexpiry
        exact ⟨jwt, hrequest, hmem, hjwt, hexpiry⟩
  · exact fun _ => rfl

/-- All turns: time only moves on and no turn reaches back for a value. -/
def Lively (expiry : V → Option Int) (state : Timed V) (turn : Turn V) :
    Prop :=
  Forward state turn ∧ Fresh expiry state turn

instance (expiry : V → Option Int) (state : Timed V) (turn : Turn V) :
    Decidable (Lively expiry state turn) :=
  inferInstanceAs (Decidable (_ ∧ _))

theorem loadedBy_time (h : seen ∈ loadedBy state turn) :
    seen.time = turn.now := by
  unfold loadedBy at h
  split at h
  · split at h
    · rw [List.mem_singleton.mp h]
      rfl
    · exact nomatch h
  · exact nomatch h

theorem returnedBy_time {events : List (Event V)}
    (h : seen ∈ events.filterMap (returnedBy turn.now)) :
    seen.time = turn.now := by
  obtain ⟨event, _, hreturned⟩ := List.mem_filterMap.mp h
  unfold returnedBy at hreturned
  split at hreturned
  all_goals first
    | exact absurd hreturned (Option.some_ne_none seen).symm
    | rw [← Option.some.inj hreturned]; rfl

/-- What a turn shows of returned values is covered by what was loaded up to
it. -/
theorem Leased.complete (config : Config) (h : Leased expiry past now state)
    (id : Nat) (outcome : Outcome V) (clock : Clock)
    (hnow : now ≤ clock.now) (hfresh : Fresh expiry ⟨state, now⟩
      (.complete id outcome clock)) :
    let turn := Turn.complete id outcome clock
    let actions := turnActions expiry state turn
    Leased expiry (past ++ loadedBy state turn) clock.now
        ((machine config).run state actions) ∧
      ∀ seen ∈ ((machine config).trace state actions).filterMap
        (returnedBy clock.now),
        ∃ caller value, seen = .returned clock.now caller value ∧
          Covered expiry (past ++ loadedBy state turn) clock.now value := by
  intro turn actions
  have hlater : Leased expiry (past ++ loadedBy state turn) clock.now state :=
    (h.later hnow).append fun seen hseen =>
      Int.le_of_eq (loadedBy_time hseen)
  cases hload : inFlight state id with
  | none =>
      have hactions : actions = [] := by
        simp [actions, turn, turnActions, hload]
      rw [hactions]
      exact ⟨hlater, fun _ hseen => nomatch hseen⟩
  | some load =>
      have hactions : actions = .settle id outcome clock ::
          .continueOwner id clock ::
            (state.joined.filter (·.load == id)).map .continueJoined := by
        simp [actions, turn, turnActions, hload]
      have hsettled := hlater.settle config hload outcome rfl
        (hfresh load hload) (by
          intro value hvalue
          apply List.mem_append_right
          simp [turn, hvalue, loadedBy, hload])
      have howner : ∀ after : State V,
          Settled expiry (past ++ loadedBy state turn) clock.now id after →
          Settled expiry (past ++ loadedBy state turn) clock.now id
              (step config after (.continueOwner id clock)).1 ∧
            ∀ seen ∈ (step config after (.continueOwner id clock)).2.filterMap
              (returnedBy clock.now),
              ∃ caller value, seen = .returned clock.now caller value ∧
                Covered expiry (past ++ loadedBy state turn) clock.now
                  value := by
        intro after hafter
        simp only [step]
        cases hfound : getLoad after id with
        | none => exact ⟨hafter, fun _ hseen => nomatch hseen⟩
        | some found =>
            simp only
            split
            · next result _ hresult _ =>
                exact hafter.finishLoad config clock hfound hresult
            · exact ⟨hafter, fun _ hseen => nomatch hseen⟩
      obtain ⟨howned, hreturned⟩ := howner _ hsettled
      obtain ⟨hrun, hrest⟩ := howned.joinedRun config
        (state.joined.filter (·.load == id)) (by
          intro call hcall
          exact beq_iff_eq.mp (List.mem_filter.mp hcall).2)
      rw [hactions]
      refine ⟨hrun.leased, ?_⟩
      intro seen hseen
      have hsilent : (machine config).emit state (.settle id outcome clock) =
          [] := by
        simp only [Machine.emit, machine, step]
        split
        · split <;> rfl
        · rfl
      simp only [Machine.trace, hsilent, List.nil_append,
        List.filterMap_append, List.mem_append] at hseen
      exact hseen.elim (hreturned seen) (hrest seen)

/-! ### Runs -/

/-- Every value was returned while a load seen before let it live. -/
def AllCovered (expiry : V → Option Int) (past : List (Seen V)) : Prop :=
  ∀ before time caller value after,
    past = before ++ .returned time caller value :: after →
      Covered expiry before time value

theorem AllCovered.append (h : AllCovered expiry past) {more : List (Seen V)}
    (hmore : ∀ time caller value, .returned time caller value ∈ more →
      Covered expiry past time value) :
    AllCovered expiry (past ++ more) := by
  intro before time caller value after hsplit
  rcases List.append_eq_append_iff.mp hsplit with
    ⟨middle, hbefore, hrest⟩ | ⟨middle, hpast, hrest⟩
  · rw [hbefore]
    apply Covered.append
    apply hmore time caller value
    rw [hrest]
    exact List.mem_append_right _ List.mem_cons_self
  · cases middle with
    | nil =>
        rw [List.append_nil] at hpast
        rw [← hpast]
        apply hmore time caller value
        rw [← List.nil_append more, ← hrest]
        exact List.mem_cons_self
    | cons head tail =>
        rw [List.cons_append, List.cons.injEq] at hrest
        exact h before time caller value tail (by rw [hpast, hrest.1])

theorem loadedBy_not_returned {time : Int} {caller : Nat} :
    .returned time caller value ∉ loadedBy state turn := by
  intro h
  unfold loadedBy at h
  split at h
  · split at h
    · exact nomatch List.mem_singleton.mp h
    · exact nomatch h
  · exact nomatch h

theorem timed_step (config : Config) {state : Timed V}
    (h : Leased expiry past state.now state.lease) (turn : Turn V)
    (hturn : Lively expiry state turn) :
    Leased expiry (past ++ loadedBy state.lease turn) turn.now
        ((timed config expiry).next state turn).lease ∧
      ∀ seen ∈ ((machine config).trace state.lease
        (turnActions expiry state.lease turn)).filterMap
          (returnedBy turn.now),
        ∃ caller value, seen = .returned turn.now caller value ∧
          Covered expiry (past ++ loadedBy state.lease turn) turn.now
            value := by
  obtain ⟨hforward, hfresh⟩ := hturn
  cases turn with
  | call caller key jwt forceRefresh allowReuseOnFailure clock =>
      have hcall := h.beginLoad caller
        { key, putOptions := runtimePutOptions expiry jwt,
          allowReuseOnFailure, forceRefresh } clock hforward rfl
      refine ⟨hcall.1.append (fun _ hseen => by cases hseen), ?_⟩
      intro seen hseen
      simp only [turnActions, Machine.trace, List.append_nil] at hseen
      obtain ⟨value, hvalue, hcovered⟩ := hcall.2 seen hseen
      exact ⟨caller, value, hvalue, hcovered.append _⟩
  | complete id outcome clock =>
      exact h.complete config id outcome clock hforward hfresh
  | clear clear clock =>
      have hcleared : Leased expiry past clock.now { state.lease with
          cache := applyClear state.lease.cache clear } :=
        (h.later hforward).shrink (fun entry => applyClear_entries) rfl
      refine ⟨hcleared.append (fun _ hseen => by cases hseen), ?_⟩
      exact fun _ hseen => by cases hseen

/-- Every value a call returns was loaded before, at most
`maxRuntimeLeaseTtlMs` ago, and neither the token it was loaded for nor the
material itself has expired. -/
theorem lease_lifetime (config : Config) (expiry : V → Option Int)
    (start : Int) (turns : List (Turn V))
    (hrun : (timed config expiry).Admissible (Lively expiry)
      ⟨initial, start⟩ turns) :
    AllCovered expiry ((timed config expiry).trace ⟨initial, start⟩ turns) := by
  have hinv := (timed config expiry).invariant_from
    (fun state past => Leased expiry past state.now state.lease ∧
      AllCovered expiry past) (by
      intro state past turn ⟨hleased, hall⟩ hturn
      obtain ⟨hnext, hreturned⟩ := timed_step config hleased turn hturn
      have hemit : (timed config expiry).emit state turn =
          loadedBy state.lease turn ++ ((machine config).trace state.lease
            (turnActions expiry state.lease turn)).filterMap
              (returnedBy turn.now) := rfl
      rw [hemit, ← List.append_assoc]
      refine ⟨hnext.append fun _ hseen =>
        Int.le_of_eq (returnedBy_time hseen), ?_⟩
      refine AllCovered.append (hall.append ?_) ?_
      · exact fun _ _ _ hseen => absurd hseen loadedBy_not_returned
      · intro time caller value hseen
        obtain ⟨_, _, hsame, hcovered⟩ := hreturned _ hseen
        cases hsame
        exact hcovered) turns
    ⟨leased_initial start, by
      intro before time caller value after hsplit
      simp at hsplit⟩ hrun
  simpa using hinv.2

namespace LifetimeWitness

/-- Leases are named by the time their material expires. -/
def carried (value : Int) : Option Int := some value

def config : Config := ⟨none, none⟩

def epoch : Timed Int := ⟨initial, 0⟩

def call (caller : Nat) (forceRefresh : Bool) (now : Int) : Turn Int :=
  .call caller "runtime" (some 900000) forceRefresh true ⟨now, now⟩

/-- A load, a hit, and a forced refresh that succeeds. -/
def refreshing : List (Turn Int) :=
  [call 1 false 0, .complete 0 (.value 600000) ⟨10, 10⟩, call 2 false 200000,
    call 3 true 250000, .complete 1 (.value 800000) ⟨250010, 250010⟩,
    call 4 false 400000]

/-- The forced refresh fails and the first value is put back. -/
def reviving : List (Turn Int) :=
  [call 1 false 0, .complete 0 (.value 600000) ⟨10, 10⟩, call 2 true 200000,
    .complete 1 (.failed false true) ⟨200010, 200010⟩, call 3 false 400000]

end LifetimeWitness

open LifetimeWitness in
theorem lease_lifetime_refreshing :
    (timed config carried).Admissible (Lively carried) epoch refreshing ∧
      .returned 400000 4 800000 ∈
        (timed config carried).trace epoch refreshing ∧
      AllCovered carried ((timed config carried).trace epoch refreshing) := by
  have hrun : (timed config carried).Admissible (Lively carried) epoch
      refreshing := by decide
  exact ⟨hrun, by decide, lease_lifetime config carried 0 refreshing hrun⟩

open LifetimeWitness in
/-- After a failed forced refresh the old value is cached as if it had been
loaded then: it is returned more than 300 s after it was loaded. -/
theorem revived_lease_outlives_its_load :
    (timed config carried).Admissible Forward epoch reviving ∧
      ¬ AllCovered carried ((timed config carried).trace epoch reviving) := by
  refine ⟨by decide, ?_⟩
  intro hall
  have hlate : (timed config carried).trace epoch reviving =
      [.loaded 10 (some 900000) 600000, .returned 10 1 600000,
        .returned 200010 2 600000] ++ .returned 400000 3 600000 :: [] := by
    decide
  exact absurd (hall _ _ _ _ _ hlate) (by decide)

end AiTeam.Lease
