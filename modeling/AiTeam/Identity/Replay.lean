/-
Service assertions are single use: `ServiceIdentityReplayCache` under any
sequence of `verify` calls.  An accepted assertion is accepted again before it
has expired only if the full cache evicted it in between.
-/
import AiTeam.Identity.Assertion
import AiTeam.Machine
import AiTeam.Remembered

namespace AiTeam.Identity

open Remembered

/-- `_max_entries`, as the constructor accepts it. -/
structure CacheLimit where
  maxEntries : Nat
  positive : 1 ≤ maxEntries

/-- `_seen`: key id and `jti` with the expiry. -/
abbrev Seen := List ((String × String) × Int)

/-- `check_and_store`; the second part is the entry it popped to make room. -/
def checkAndStore (limit : CacheLimit) (now : Rat) (kid jti : String)
    (expiresAt : Int) (seen : Seen) :
    Bool × Option ((String × String) × Int) × Seen :=
  let seen := prune maxClockSkewSeconds (truncate now) seen
  if seen.any (·.1 == (kid, jti)) then (false, none, seen)
  else (true, crowded limit.maxEntries seen,
    remember limit.maxEntries (kid, jti) expiresAt seen)

inductive Event where
  | accepted (time : Rat) (kid jti : String) (expiresAt : Int)
  /-- The cache popped the entry although it had not expired. -/
  | evicted (kid jti : String) (expiresAt : Int)
  | rejected (failure : Failure)
deriving DecidableEq

structure Call where
  request : Request
  clock : Clock
deriving DecidableEq

/-- The cache and the last reading of the clock. -/
structure State where
  seen : Seen
  now : Rat
deriving DecidableEq

def popped : Option ((String × String) × Int) → List Event
  | some entry => [.evicted entry.1.1 entry.1.2 entry.2]
  | none => []

def verified (time : Rat) (assertion : Assertion) : Event :=
  match principal assertion with
  | .ok principal => .accepted time principal.kid principal.jti principal.exp
  | .error failure => .rejected failure

/-- `verify`. -/
def verify (runtime : Runtime) (verifier : Verifier) (limit : CacheLimit)
    (seen : Seen) (call : Call) : Seen × List Event :=
  match checkAssertion runtime verifier call.request call.clock with
  | .error failure => (seen, [.rejected failure])
  | .ok assertion =>
      match checkAndStore limit call.clock.replay assertion.kid assertion.jti
          assertion.window.expiresAt seen with
      | (false, _, seen) =>
          (seen, [.rejected (.unauthorized
            "service identity replay detected")])
      | (true, gone, seen) =>
          (seen, popped gone ++ [verified call.clock.replay assertion])

def machine (runtime : Runtime) (verifier : Verifier) (limit : CacheLimit) :
    Machine State Call Event where
  step state call :=
    let (seen, events) := verify runtime verifier limit state.seen call
    (⟨seen, call.clock.replay⟩, events)

/-- Time does not run backwards, between calls and within one. -/
def Forward (state : State) (call : Call) : Prop :=
  state.now ≤ call.clock.verify ∧ call.clock.verify ≤ call.clock.decode ∧
    call.clock.decode ≤ call.clock.replay

instance (state : State) (call : Call) : Decidable (Forward state call) :=
  inferInstanceAs (Decidable (_ ∧ _))

/-- Whenever an assertion is accepted twice, its time window and the skew had
passed by then. -/
def SingleUse (verifier : Verifier) (events : List Event) : Prop :=
  ∀ before middle after kid jti (first : Rat) (firstExpiry : Int)
    (second : Rat) (secondExpiry : Int),
    events = before ++ .accepted first kid jti firstExpiry :: middle ++
      .accepted second kid jti secondExpiry :: after →
    (firstExpiry + verifier.clockSkewSeconds : Rat) < second

/-- The same, unless the entry was evicted in between. -/
def SingleUseUnlessEvicted (verifier : Verifier) (events : List Event) :
    Prop :=
  ∀ before middle after kid jti (first : Rat) (firstExpiry : Int)
    (second : Rat) (secondExpiry : Int),
    events = before ++ .accepted first kid jti firstExpiry :: middle ++
      .accepted second kid jti secondExpiry :: after →
    (firstExpiry + verifier.clockSkewSeconds : Rat) < second ∨
      .evicted kid jti firstExpiry ∈ middle

/-! ### One call -/

variable {time : Rat} {event : Event} {expiresAt : Int} {kid jti : String}

theorem truncate_lt {bound : Int} (h : bound < truncate time) :
    (bound : Rat) < time := by
  unfold truncate at h
  split at h
  · exact lt_of_lt_of_le (by exact_mod_cast h) (Rat.floor_le time)
  · have hle : bound + 1 ≤ time.ceil := h
    by_contra hge
    have hceil : time.ceil ≤ bound := Rat.ceil_le_iff.mpr (not_lt.mp hge)
    omega

/-- What a call can do. -/
theorem verify_cases (runtime : Runtime) (verifier : Verifier)
    (limit : CacheLimit) (seen : Seen) (call : Call) :
    (∃ kept failure, verify runtime verifier limit seen call =
        (kept, [.rejected failure]) ∧
      (kept = seen ∨ kept =
        prune maxClockSkewSeconds (truncate call.clock.replay) seen)) ∨
    ∃ kid jti expiresAt gone event,
      verify runtime verifier limit seen call =
        (remember limit.maxEntries (kid, jti) expiresAt
          (prune maxClockSkewSeconds (truncate call.clock.replay) seen),
          popped gone ++ [event]) ∧
      gone = crowded limit.maxEntries
        (prune maxClockSkewSeconds (truncate call.clock.replay) seen) ∧
      (∀ entry ∈ prune maxClockSkewSeconds (truncate call.clock.replay) seen,
        entry.1 ≠ (kid, jti)) ∧
      (event = .accepted call.clock.replay kid jti expiresAt ∨
        ∃ failure, event = .rejected failure) := by
  unfold verify
  cases hchecked : checkAssertion runtime verifier call.request call.clock with
  | error failure => exact Or.inl ⟨seen, failure, rfl, Or.inl rfl⟩
  | ok assertion =>
      simp only [checkAndStore]
      split
      · next hstored =>
          split at hstored
          · cases hstored
            exact Or.inl ⟨_, _, rfl, Or.inr rfl⟩
          · exact nomatch hstored
      · next hstored =>
          split at hstored
          · exact nomatch hstored
          · next hfresh =>
              cases hstored
              refine Or.inr ⟨assertion.kid, assertion.jti,
                assertion.window.expiresAt, _, _, rfl, rfl, ?_, ?_⟩
              · simpa only [List.any_eq_true, beq_iff_eq, not_exists, not_and]
                  using hfresh
              · unfold verified principal
                split
                · next hprincipal =>
                    split at hprincipal
                    · split at hprincipal
                      · exact nomatch hprincipal
                      · cases hprincipal
                        exact Or.inl rfl
                    · exact nomatch hprincipal
                · exact Or.inr ⟨_, rfl⟩

/-! ### What the cache remembers -/

/-- Every accepted assertion is still in the cache, has expired or was evicted
after it was accepted. -/
def Held (state : State) (past : List Event) : Prop :=
  ∀ before after time kid jti expiresAt,
    past = before ++ .accepted time kid jti expiresAt :: after →
    ((kid, jti), expiresAt) ∈ state.seen ∨
      (expiresAt + maxClockSkewSeconds : Rat) < state.now ∨
      .evicted kid jti expiresAt ∈ after

structure Inv (verifier : Verifier) (state : State) (past : List Event) :
    Prop where
  unique : Unique state.seen
  held : Held state past
  single : SingleUseUnlessEvicted verifier past

theorem mem_popped {gone : Option ((String × String) × Int)}
    (h : event ∈ popped gone) :
    ∃ entry, gone = some entry ∧
      event = .evicted entry.1.1 entry.1.2 entry.2 := by
  cases gone with
  | none => exact nomatch h
  | some entry => exact ⟨entry, rfl, List.mem_singleton.mp h⟩

/-- Nothing is accepted in front of the last event of a call. -/
theorem accepted_last {gone : Option ((String × String) × Int)}
    {front after : List Event}
    (h : popped gone ++ [event] =
      front ++ .accepted time kid jti expiresAt :: after) :
    event = .accepted time kid jti expiresAt ∧ front = popped gone := by
  rcases split_append h with ⟨rest, hpopped, _⟩ | ⟨more, hfront, hlast⟩
  · have hmem : Event.accepted time kid jti expiresAt ∈ popped gone := by
      rw [hpopped]
      simp
    obtain ⟨entry, _, heq⟩ := mem_popped hmem
    exact nomatch heq
  · cases more with
    | nil =>
        simp only [List.nil_append, List.cons.injEq] at hlast
        exact ⟨hlast.1, by rw [hfront, List.append_nil]⟩
    | cons head tail => simp at hlast

theorem rejected_not_accepted {failure : Failure} {front after : List Event} :
    [Event.rejected failure] ≠
      front ++ .accepted time kid jti expiresAt :: after := by
  intro h
  have hpopped : popped none ++ [Event.rejected failure] =
      front ++ .accepted time kid jti expiresAt :: after := h
  exact nomatch (accepted_last hpopped).1

variable {verifier : Verifier} {state : State} {past : List Event}

/-- A call that accepts nothing and drops at most what has expired. -/
theorem Inv.reject (h : Inv verifier state past) {call : Call} {kept : Seen}
    (failure : Failure) (hforward : Forward state call)
    (hkept : kept = state.seen ∨ kept =
      prune maxClockSkewSeconds (truncate call.clock.replay) state.seen) :
    Inv verifier ⟨kept, call.clock.replay⟩ (past ++ [.rejected failure]) := by
  have hnow : state.now ≤ call.clock.replay :=
    hforward.1.trans (hforward.2.1.trans hforward.2.2)
  refine ⟨?_, ?_, ?_⟩
  · apply h.unique.of_subset
    intro entry hentry
    rcases hkept with rfl | rfl
    · exact hentry
    · exact (mem_prune.mp hentry).1
  · intro before after time kid jti expiresAt hsplit
    rcases split_append hsplit with ⟨rest, hpast, rfl⟩ | ⟨_, _, hnew⟩
    · rcases h.held before rest time kid jti expiresAt hpast with
        hseen | hlate | hgone
      · rcases hkept with rfl | rfl
        · exact Or.inl hseen
        · by_cases hfresh : truncate call.clock.replay ≤
              expiresAt + maxClockSkewSeconds
          · exact Or.inl (mem_prune.mpr ⟨hseen, hfresh⟩)
          · right; left
            exact_mod_cast truncate_lt (Int.not_le.mp hfresh)
      · exact Or.inr (Or.inl (hlate.trans_le hnow))
      · exact Or.inr (Or.inr (List.mem_append_left _ hgone))
    · exact absurd hnew rejected_not_accepted
  · intro before middle after kid jti first firstExpiry second secondExpiry
      hsplit
    rcases split_append hsplit with ⟨rest, hpast, _⟩ | ⟨_, _, hnew⟩
    · exact h.single before middle rest kid jti first firstExpiry second
        secondExpiry hpast
    · exact absurd hnew rejected_not_accepted

/-- An entry survives a new one unless it has expired or made room. -/
theorem kept_or_popped (limit : CacheLimit) (now : Rat) {seen : Seen}
    (hunique : Unique seen) {key : String × String}
    (hmem : (key, expiresAt) ∈ seen) (other : String × String) (expiry : Int) :
    (key, expiresAt) ∈ remember limit.maxEntries other expiry
        (prune maxClockSkewSeconds (truncate now) seen) ∨
      (expiresAt + maxClockSkewSeconds : Rat) < now ∨
      crowded limit.maxEntries (prune maxClockSkewSeconds (truncate now)
        seen) = some (key, expiresAt) := by
  by_cases hfresh : truncate now ≤ expiresAt + maxClockSkewSeconds
  · have hpruned := mem_prune.mpr ⟨hmem, hfresh⟩
    have hsub : Unique (prune maxClockSkewSeconds (truncate now) seen) :=
      hunique.of_subset fun entry hentry => (mem_prune.mp hentry).1
    have hroom : _ ∨ crowded limit.maxEntries _ = _ :=
      mem_makeRoom_or hsub hpruned
    rcases hroom with hroom | hgone
    · exact Or.inl (List.mem_append_left _ hroom)
    · exact Or.inr (Or.inr hgone)
  · right; left
    exact_mod_cast truncate_lt (Int.not_le.mp hfresh)

/-- A call that stores a new assertion, whether or not its principal can be
built afterwards. -/
theorem Inv.store (h : Inv verifier state past) {call : Call}
    (limit : CacheLimit) (hforward : Forward state call)
    (hfresh : ∀ entry ∈ prune maxClockSkewSeconds
      (truncate call.clock.replay) state.seen, entry.1 ≠ (kid, jti))
    (hevent : event = .accepted call.clock.replay kid jti expiresAt ∨
      ∃ failure, event = .rejected failure) :
    Inv verifier
      ⟨remember limit.maxEntries (kid, jti) expiresAt
        (prune maxClockSkewSeconds (truncate call.clock.replay) state.seen),
        call.clock.replay⟩
      (past ++ (popped (crowded limit.maxEntries
        (prune maxClockSkewSeconds (truncate call.clock.replay)
          state.seen)) ++ [event])) := by
  have hnow : state.now ≤ call.clock.replay :=
    hforward.1.trans (hforward.2.1.trans hforward.2.2)
  refine ⟨?_, ?_, ?_⟩
  · refine Unique.remember (h.unique.of_subset ?_) hfresh
    exact fun entry hentry => (mem_prune.mp hentry).1
  · intro before after time kid' jti' expiresAt' hsplit
    rcases split_append hsplit with ⟨rest, hpast, rfl⟩ | ⟨_, _, hnew⟩
    · rcases h.held before rest time kid' jti' expiresAt' hpast with
        hseen | hlate | hgone
      · rcases kept_or_popped limit call.clock.replay h.unique hseen (kid, jti)
            expiresAt with hkept | hlate | hgone
        · exact Or.inl hkept
        · exact Or.inr (Or.inl hlate)
        · rw [hgone]
          exact Or.inr (Or.inr (by simp [popped]))
      · exact Or.inr (Or.inl (hlate.trans_le hnow))
      · exact Or.inr (Or.inr (List.mem_append_left _ hgone))
    · have hlast := (accepted_last hnew).1
      rcases hevent with hevent | ⟨_, hevent⟩
      · rw [hevent] at hlast
        cases hlast
        exact Or.inl (List.mem_append_right _ List.mem_cons_self)
      · rw [hevent] at hlast
        exact nomatch hlast
  · intro before middle after kid' jti' first firstExpiry second secondExpiry
      hsplit
    rcases split_append hsplit with ⟨rest, hpast, _⟩ | ⟨front, hfront, hnew⟩
    · exact h.single before middle rest kid' jti' first firstExpiry second
        secondExpiry hpast
    · obtain ⟨hlast, rfl⟩ := accepted_last hnew
      rcases hevent with hevent | ⟨_, hevent⟩
      · rw [hevent] at hlast
        cases hlast
        -- the first acceptance is older: nothing is accepted in one call twice
        rcases split_append hfront.symm with
          ⟨rest, hpast, rfl⟩ | ⟨front, _, hpopped⟩
        · have hskew : (firstExpiry + verifier.clockSkewSeconds : Rat) ≤
              firstExpiry + maxClockSkewSeconds := by
            exact_mod_cast Int.add_le_add_left verifier.skewBounded.2
              firstExpiry
          rcases h.held before rest first kid jti firstExpiry hpast with
            hseen | hlate | hgone
          · by_cases hpruned : truncate call.clock.replay ≤
                firstExpiry + maxClockSkewSeconds
            · exact absurd rfl (hfresh _ (mem_prune.mpr ⟨hseen, hpruned⟩))
            · left
              refine hskew.trans_lt ?_
              exact_mod_cast truncate_lt (Int.not_le.mp hpruned)
          · exact Or.inl (hskew.trans_lt (hlate.trans_le hnow))
          · exact Or.inr (List.mem_append_left _ hgone)
        · have hmem : Event.accepted first kid jti firstExpiry ∈
              front ++ .accepted first kid jti firstExpiry :: middle :=
            List.mem_append_right front List.mem_cons_self
          rw [← hpopped] at hmem
          obtain ⟨_, _, heq⟩ := mem_popped hmem
          exact nomatch heq
      · rw [hevent] at hlast
        exact nomatch hlast

theorem step_inv (runtime : Runtime) (limit : CacheLimit)
    (h : Inv verifier state past) (call : Call)
    (hforward : Forward state call) :
    Inv verifier ((machine runtime verifier limit).next state call)
      (past ++ (machine runtime verifier limit).emit state call) := by
  change Inv verifier
    ⟨(verify runtime verifier limit state.seen call).1, call.clock.replay⟩
    (past ++ (verify runtime verifier limit state.seen call).2)
  rcases verify_cases runtime verifier limit state.seen call with
    ⟨kept, failure, hverify, hkept⟩ |
    ⟨kid, jti, expiresAt, gone, event, hverify, hgone, hfresh, hevent⟩
  · rw [hverify]
    exact h.reject failure hforward hkept
  · rw [hverify, hgone]
    exact h.store limit hforward hfresh hevent

theorem initial_inv (start : Rat) : Inv verifier ⟨[], start⟩ [] where
  unique := fun _ hfirst => nomatch hfirst
  held := fun before after time kid jti expiresAt hsplit => by
    simp at hsplit
  single := fun before middle after kid jti first firstExpiry second
      secondExpiry hsplit => by simp at hsplit

/-- An entry is evicted only when the cache is full of assertions that have
not expired, none of which expires earlier. -/
theorem evicted_full (runtime : Runtime) (limit : CacheLimit) {call : Call}
    (h : .evicted kid jti expiresAt ∈
      (machine runtime verifier limit).emit state call) :
    limit.maxEntries ≤ (prune maxClockSkewSeconds
        (truncate call.clock.replay) state.seen).length ∧
      ∀ entry ∈ prune maxClockSkewSeconds (truncate call.clock.replay)
        state.seen, expiresAt ≤ entry.2 := by
  change _ ∈ (verify runtime verifier limit state.seen call).2 at h
  rcases verify_cases runtime verifier limit state.seen call with
    ⟨kept, failure, hverify, _⟩ |
    ⟨_, _, _, gone, event, hverify, hgone, _, hevent⟩
  · rw [hverify] at h
    exact nomatch List.mem_singleton.mp h
  · rw [hverify] at h
    rcases List.mem_append.mp h with hpopped | hlast
    · obtain ⟨entry, hsome, heq⟩ := mem_popped hpopped
      cases heq
      obtain ⟨hfull, _, hleast⟩ := crowded_spec (hgone.symm.trans hsome)
      exact ⟨hfull, hleast⟩
    · rw [List.mem_singleton] at hlast
      rcases hevent with rfl | ⟨_, rfl⟩ <;> exact nomatch hlast

/-- In every run an assertion is accepted again before its expiry and the skew
have passed only if its entry was evicted in between, and only a full cache
evicts: the entry that expires first. -/
theorem assertions_single_use (runtime : Runtime) (verifier : Verifier)
    (limit : CacheLimit) (start : Rat) (calls : List Call)
    (hrun : (machine runtime verifier limit).Admissible Forward ⟨[], start⟩
      calls) :
    SingleUseUnlessEvicted verifier
        ((machine runtime verifier limit).trace ⟨[], start⟩ calls) ∧
      ∀ before call after, calls = before ++ call :: after →
        ∀ kid jti expiresAt, .evicted kid jti expiresAt ∈
          (machine runtime verifier limit).emit
            ((machine runtime verifier limit).run ⟨[], start⟩ before) call →
        let unexpired := prune maxClockSkewSeconds
          (truncate call.clock.replay)
          ((machine runtime verifier limit).run ⟨[], start⟩ before).seen
        limit.maxEntries ≤ unexpired.length ∧
          ∀ entry ∈ unexpired, expiresAt ≤ entry.2 := by
  refine ⟨?_, ?_⟩
  · have hinv := (machine runtime verifier limit).invariant_from
      (Inv verifier) (fun state past call h hforward =>
        step_inv runtime limit h call hforward)
      calls (initial_inv start) hrun
    simpa using hinv.single
  · intro before call after _ kid jti expiresAt hgone
    exact evicted_full runtime limit hgone

namespace ReplayWitness

def claimsOf (jti : String) : Claims :=
  [("iss", .str "manager"), ("sub", .str "manager"), ("aud", .str "operator"),
    ("purpose", .str "service"), ("deployment_id", .str "d"),
    ("iat", .int 100), ("nbf", .int 100), ("exp", .int 130),
    ("jti", .str jti), ("path", .str "/rollup")]

/-- The signer issues one assertion for each token, named by it. -/
def sampleRuntime : Runtime where
  getUnverifiedHeader _ := some [("alg", .str "RS256"), ("kid", .str "k")]
  decode token _ _ _ leeway now :=
    if 130 ≤ now - leeway then .error .expiredSignature
    else if now + leeway < 100 then .error .immatureSignature
    else .ok (claimsOf token)
  urlsplit _ := .error "Invalid URL"
  lower := id
  sha256 _ := ""

def trusted : TrustedServiceKey where
  publicKey := "pem"
  issuer := some "manager"
  subject := some "manager"
  deploymentId := some "d"
  audiences := ["operator"]
  origins := []
  enterpriseIds := []
  tenantIds := []
  targetBindings := []
  scopes := []
  provisioningCapabilities := []
  status := none
  notBefore := none
  expiresAt := none
  revokedAt := none

def sampleVerifier : Verifier where
  keys := [("k", trusted)]
  expectedIssuer := none
  expectedAudience := some "operator"
  expectedOrigin := none
  allowedOrigins := []
  allowedEnterprises := []
  allowedTenants := []
  allowedScopes := []
  requireScopeBinding := false
  requireOriginBinding := false
  singleInstance := true
  clockSkewSeconds := 30
  skewBounded := by decide

def call (token : String) (time : Rat) : Call where
  request := ⟨token, "/rollup", none, none, none, none, false, false, none,
    none, none, none, none⟩
  clock := ⟨time, time, time⟩

def roomy : CacheLimit := ⟨10000, by decide⟩

def single : CacheLimit := ⟨1, by decide⟩

/-- An assertion, a replay, another assertion, and a replay that is late. -/
def replayed : List Call :=
  [call "a.a.a" 101, call "a.a.a" 102, call "b.b.b" 103, call "a.a.a" 160]

/-- The second assertion takes the only place of the first one. -/
def flooded : List Call :=
  [call "a.a.a" 101, call "b.b.b" 102, call "a.a.a" 103]

end ReplayWitness

open ReplayWitness in
theorem assertions_single_use_replayed :
    (machine sampleRuntime sampleVerifier roomy).Admissible Forward ⟨[], 100⟩
        replayed ∧
      (machine sampleRuntime sampleVerifier roomy).trace ⟨[], 100⟩ replayed =
        [.accepted 101 "k" "a.a.a" 130,
          .rejected (.unauthorized "service identity replay detected"),
          .accepted 103 "k" "b.b.b" 130,
          .rejected (.unauthorized "service identity expired")] ∧
      SingleUseUnlessEvicted sampleVerifier
        ((machine sampleRuntime sampleVerifier roomy).trace ⟨[], 100⟩
          replayed) := by
  have hrun : (machine sampleRuntime sampleVerifier roomy).Admissible Forward
      ⟨[], 100⟩ replayed := by decide
  exact ⟨hrun, by decide +kernel,
    (assertions_single_use sampleRuntime sampleVerifier roomy 100 replayed
      hrun).1⟩

open ReplayWitness in
/-- A cache of one entry forgets an assertion that is still acceptable. -/
theorem evicted_assertion_is_accepted_again :
    (machine sampleRuntime sampleVerifier single).Admissible Forward
        ⟨[], 100⟩ flooded ∧
      ¬ SingleUse sampleVerifier
        ((machine sampleRuntime sampleVerifier single).trace ⟨[], 100⟩
          flooded) := by
  refine ⟨by decide, ?_⟩
  intro hsingle
  have htrace : (machine sampleRuntime sampleVerifier single).trace ⟨[], 100⟩
      flooded = [] ++ .accepted 101 "k" "a.a.a" 130 ::
        [.evicted "k" "a.a.a" 130,
          .accepted 102 "k" "b.b.b" 130, .evicted "k" "b.b.b" 130] ++
        .accepted 103 "k" "a.a.a" 130 :: [] := by
    decide +kernel
  exact absurd (hsingle _ _ _ _ _ _ _ _ _ htrace) (by decide +kernel)

end AiTeam.Identity
