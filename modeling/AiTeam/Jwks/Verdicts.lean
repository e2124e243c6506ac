/-
What the Agent accepts and rejects under Manager's keys, in every run: accepted
tokens verified with fresh keys of their tenant, and a token of a tenant in the
cache is rejected by a verdict of Manager, be it one that has changed since.
-/
import AiTeam.Jwks.Invariant

namespace AiTeam.Jwks

open FixedWindow (Counts)

/-- The token carries a signature of the key. -/
def SignedBy (runtime : Runtime) (token : Text) (key : JwtJwk) : Prop :=
  ∃ first second third, parts token = [first, second, third] ∧
    runtime.verify key (first ++ '.' :: second) third = true

/-- The token verifies with the key set that Manager publishes now. -/
def Honest (runtime : Runtime) (options : Options) (state : State)
    (token : Text) (tenant : String) (managerNow : Rat) : Prop :=
  ∃ current caller,
    acceptedKeys runtime tenant (state.published tenant) = .ok current ∧
      verifyJwt runtime options token current managerNow = .ok caller

/-- The call starts here. -/
def Action.begins : Action → Bool
  | .authenticate _ _ _ => true
  | .verifyLoginToken _ _ _ _ => true
  | _ => false

/-- The tenant has its entry when a call for it starts. -/
def Admitted (state : State) (action : Action) (tenant : String) : Prop :=
  action.begins = true → (valueAt tenant state.entries).isSome = true

/-- A token is rejected by a verdict of Manager: its session is revoked, or a
fresh key set of its tenant does not verify it.  The keys may expire while the
call is under way, and a login for another tenant is none for this one. -/
def Judged (runtime : Runtime) (options : Options) (state : State)
    (past : List Event) (token : Text) (tenant : String) (reason : Reason) :
    Prop :=
  reason = .revoked token ∨ reason = .keysExpired token ∨
    (∃ expected, expected ≠ tenant ∧
      reason = .tenantMismatch token expected) ∨
    ∃ keys now managerNow detail,
      reason = .unverified token tenant keys now managerNow detail ∧
      ∃ body completed, Downloaded runtime past tenant body keys completed ∧
        completed ≤ now ∧ now < completed + ttlMs ∧
        (Honest runtime options state token tenant managerNow →
          body ≠ state.published tenant)

variable {runtime : Runtime} {options : Options} {owner : Nat → String}
  {state : State} {past : List Event} {call other : Nat}
  {reason found : Reason} {now : Int} {job : Job} {managerNow : Rat}

theorem reject_mem
    (h : Event.rejected other found ∈ (reject call reason state).2) :
    found = reason := by
  cases List.mem_singleton.mp h
  rfl

theorem fail_mem {detail : String} :
    Event.rejected other found ∉ (fail call detail state).2 :=
  fun h => nomatch List.mem_singleton.mp h

theorem refresh_mem {tenant : String} {entry : Nat} :
    Event.rejected call found ∉ (refresh tenant entry now state).2.1 := by
  intro h
  unfold refresh at h
  simp only at h
  split at h
  · exact nomatch h
  · split at h
    · exact nomatch h
    · split at h
      · exact nomatch h
      · exact nomatch List.mem_singleton.mp h

/-- A call that refreshes its keys first rejects nothing yet. -/
theorem refreshed_mem {tenant : String} {entry : Nat} :
    Event.rejected other found ∉
      (match refresh tenant entry now state with
        | (state, events, .pending download) =>
            (setPhase call (.waiting job download) state, events)
        | (state, events, .skipped) =>
            (setPhase call (.ready job) state, events)
        | (state, events, .refused detail) =>
            let (state, failure) := fail call detail state
            (state, events ++ failure)).2 := by
  have hquiet : Event.rejected other found ∉
      (refresh tenant entry now state).2.1 := refresh_mem
  generalize refresh tenant entry now state = result at hquiet
  obtain ⟨next, events, outcome⟩ := result
  cases outcome with
  | pending download => exact hquiet
  | skipped => exact hquiet
  | refused detail =>
      intro hmem
      rcases List.mem_append.mp hmem with hevents | hfailed
      · exact hquiet hevents
      · exact fail_mem hfailed

theorem judge_token
    (hmem : Event.rejected other reason ∈
      (judge runtime options call job now managerNow state).2) :
    reason.token = some job.token := by
  unfold judge at hmem
  simp only at hmem
  split at hmem
  · rw [reject_mem hmem]
    rfl
  · split at hmem
    · rw [reject_mem hmem]
      rfl
    · exact nomatch hmem

theorem authenticate_token {authorization : Option Text} {clock : Clock}
    {token : Text} (hbearer : bearer authorization = some token)
    (hmem : Event.rejected other reason ∈
      (authenticate runtime options call authorization clock state).2) :
    reason.token = some token := by
  unfold authenticate at hmem
  rw [hbearer] at hmem
  simp only at hmem
  split at hmem
  · rw [reject_mem hmem]
    rfl
  · split at hmem
    · rw [reject_mem hmem]
      rfl
    · split at hmem
      · exact absurd hmem refreshed_mem
      · exact judge_token hmem

/-- What is wrong with a job that is rejected was served by Manager. -/
theorem judge_rejected (h : Inv runtime options owner state past) {call : Nat}
    {job : Job} (hjob : JobOk runtime owner state job) {managerNow : Rat}
    {other : Nat} {reason : Reason}
    (hmem : Event.rejected other reason ∈
      (judge runtime options call job state.now managerNow state).2) :
    Judged runtime options state past job.token job.tenant reason := by
  unfold judge at hmem
  simp only at hmem
  split at hmem
  · rw [reject_mem hmem]
    exact Or.inr (Or.inl rfl)
  · next hfresh =>
      split at hmem
      · next detail hunverified =>
          rw [reject_mem hmem]
          refine Or.inr (Or.inr (Or.inr ⟨_, _, _, _, rfl, ?_⟩))
          rcases h.keys job.entry with
            hnone | ⟨body, completed, hdownloaded, hle, hexpires⟩
          · exact absurd (hnone.trans h.epoch) hfresh
          · rw [hjob.1] at hdownloaded
            refine ⟨body, completed, hdownloaded, hle, ?_, ?_⟩
            · rw [← hexpires]
              exact Int.not_le.mp hfresh
            · intro ⟨current, caller, hcurrent, hverified⟩ hsame
              -- the keys are those published now
              rw [← hsame, hdownloaded.2.2, Except.ok.injEq] at hcurrent
              rw [hcurrent, hverified] at hunverified
              exact nomatch hunverified
      · exact nomatch hmem

theorem authenticate_rejected (h : Inv runtime options owner state past)
    {authorization : Option Text} {first : Int} {token : Text}
    {tenant kid : String}
    (hmem : Event.rejected other reason ∈
      (authenticate runtime options call authorization
        ⟨first, state.now, managerNow⟩ state).2)
    (htoken : reason.token = some token)
    (hselector : selector runtime token = .ok (tenant, kid))
    (hadmitted : (valueAt tenant state.entries).isSome = true) :
    Judged runtime options state past token tenant reason := by
  unfold authenticate at hmem
  cases hbearer : bearer authorization with
  | none =>
      rw [hbearer] at hmem
      rw [reject_mem hmem] at htoken
      cases htoken
  | some presented =>
      rw [hbearer] at hmem
      simp only at hmem
      cases hpresented : selector runtime presented with
      | error detail =>
          rw [hpresented] at hmem
          rw [reject_mem hmem] at htoken
          cases htoken
          rw [hpresented] at hselector
          cases hselector
      | ok selected =>
          obtain ⟨tenant', kid'⟩ := selected
          rw [hpresented] at hmem
          simp only at hmem
          cases hentry : valueAt tenant' state.entries with
          | none =>
              rw [hentry] at hmem
              rw [reject_mem hmem] at htoken
              cases htoken
              rw [hpresented] at hselector
              cases hselector
              rw [hentry] at hadmitted
              cases hadmitted
          | some id =>
              rw [hentry] at hmem
              simp only at hmem
              split at hmem
              · exact absurd hmem refreshed_mem
              · obtain ⟨howner, hallocated⟩ :=
                  h.entries _ (lookup_mem (lookup_of_valueAt hentry))
                have hsame := judge_token hmem
                rw [htoken, Option.some.injEq] at hsame
                subst hsame
                rw [hpresented] at hselector
                cases hselector
                exact judge_rejected h ⟨howner, hallocated, hpresented⟩ hmem

theorem bearer_token (token : Text) :
    bearer (some ("Bearer ".toList ++ token)) = some token := by
  rw [bearer, Option.bind_some, if_pos (by simp)]
  exact congrArg some (List.drop_left' rfl)

theorem verifyLoginToken_rejected (h : Inv runtime options owner state past)
    {presented : Text} {expectedTenant : String} {first : Int} {token : Text}
    {tenant kid : String}
    (hmem : Event.rejected other reason ∈
      (verifyLoginToken runtime options call presented expectedTenant
        ⟨first, state.now, managerNow⟩ state).2)
    (htoken : reason.token = some token)
    (hselector : selector runtime token = .ok (tenant, kid))
    (hadmitted : (valueAt tenant state.entries).isSome = true) :
    Judged runtime options state past token tenant reason := by
  unfold verifyLoginToken at hmem
  cases hpresented : selector runtime presented with
  | error detail =>
      rw [hpresented] at hmem
      rw [reject_mem hmem] at htoken
      cases htoken
      rw [hpresented] at hselector
      cases hselector
  | ok selected =>
      obtain ⟨tenant', kid'⟩ := selected
      rw [hpresented] at hmem
      simp only at hmem
      split at hmem
      · next hmismatch =>
          rw [reject_mem hmem] at htoken ⊢
          cases htoken
          rw [hpresented] at hselector
          cases hselector
          refine Or.inr (Or.inr (Or.inl ⟨expectedTenant, ?_, rfl⟩))
          exact fun heq => by simp [heq] at hmismatch
      · split at hmem
        · exact authenticate_rejected h hmem htoken hselector hadmitted
        · next hentry =>
            split at hmem
            · rw [reject_mem hmem] at htoken
              cases htoken
              rw [hpresented] at hselector
              cases hselector
              rw [hentry] at hadmitted
              cases hadmitted
            · have hsame := authenticate_token (bearer_token presented) hmem
              rw [htoken, Option.some.injEq] at hsame
              subst hsame
              rw [hpresented] at hselector
              cases hselector
              rw [hentry] at hadmitted
              cases hadmitted

theorem step_rejected (h : Inv runtime options owner state past)
    {action : Action} (hforward : Forward state action) {token : Text}
    {tenant kid : String}
    (hmem : Event.rejected call reason ∈
      (step runtime options state action).2)
    (htoken : reason.token = some token)
    (hselector : selector runtime token = .ok (tenant, kid))
    (hadmitted : Admitted state action tenant) :
    Judged runtime options state past token tenant reason := by
  cases action with
  | authenticate started authorization clock =>
      have hnow := h.advance (hforward.1.trans hforward.2)
      unfold step at hmem
      simp only at hmem
      split at hmem
      · exact authenticate_rejected hnow hmem htoken hselector (hadmitted rfl)
      · exact nomatch hmem
  | verifyLoginToken started presented expectedTenant clock =>
      have hnow := h.advance (hforward.1.trans hforward.2)
      unfold step at hmem
      simp only at hmem
      split at hmem
      · exact verifyLoginToken_rejected hnow hmem htoken hselector
          (hadmitted rfl)
      · exact nomatch hmem
  | rotate tenant body => exact nomatch hmem
  | serve id answer =>
      change _ ∈ (serve runtime id answer state).2 at hmem
      unfold serve at hmem
      split at hmem
      · exact nomatch List.mem_singleton.mp hmem
      · exact nomatch hmem
  | complete id now =>
      change _ ∈ (complete id now { state with now }).2 at hmem
      unfold complete at hmem
      split at hmem
      · exact nomatch List.mem_singleton.mp hmem
      · exact nomatch hmem
      · exact nomatch hmem
  | settle id =>
      change _ ∈ (settle id state).2 at hmem
      unfold settle at hmem
      split at hmem <;> exact nomatch hmem
  | resume resumed now managerNow =>
      have hnow := h.advance hforward
      have hcall := hnow.calls resumed
      change _ ∈ (resume runtime options resumed now managerNow
        { state with now }).2 at hmem
      have hjob : ∀ job, JobOk runtime owner { state with now } job →
          Event.rejected call reason ∈ (judge runtime options resumed job now
            managerNow { state with now }).2 →
          Judged runtime options state past token tenant reason := by
        intro job hjob hjudge
        have hsame := judge_token hjudge
        rw [htoken, Option.some.injEq] at hsame
        subst hsame
        have hselected := hjob.2.2
        rw [hselector] at hselected
        cases hselected
        exact judge_rejected hnow hjob hjudge
      unfold resume at hmem
      split at hmem
      · next job hphase =>
          rw [hphase] at hcall
          exact hjob job hcall hmem
      · next job download hphase =>
          rw [hphase] at hcall
          split at hmem
          · exact hjob job hcall hmem
          · exact absurd hmem fail_mem
          · exact nomatch hmem
      · exact nomatch hmem
  | confirm confirmed reply =>
      change _ ∈ (confirm confirmed reply state).2 at hmem
      unfold confirm at hmem
      split at hmem
      · split at hmem
        · exact absurd hmem fail_mem
        · split at hmem
          · exact nomatch List.mem_singleton.mp hmem
          · split at hmem
            · rw [reject_mem hmem] at htoken ⊢
              cases htoken
              exact Or.inl rfl
            · exact absurd hmem fail_mem
      · exact nomatch hmem

/-! ### Every run -/

structure Verdicts (runtime : Runtime) (options : Options) (start : State)
    (actions : List Action) : Prop where
  /-- What is accepted verified, before Manager confirmed its session, with a
  key that its tenant's key set had in a download completed less than the time
  to live before. -/
  fresh : ∀ {call job caller keys verified},
    Event.accepted call job caller keys verified ∈
      (machine runtime options).trace start actions →
    caller.accessToken = job.token ∧ caller.tenantId = job.tenant ∧
      (∃ key ∈ keys, key.kid = job.kid ∧ SignedBy runtime job.token key) ∧
      ∃ body completed, Downloaded runtime
          ((machine runtime options).trace start actions) job.tenant body keys
          completed ∧
        completed ≤ verified ∧ verified < completed + ttlMs
  running : ((machine runtime options).run start actions).active =
    ((machine runtime options).run start actions).downloads.countP runs
  concurrent : ((machine runtime options).run start actions).active ≤ maxActive
  rate : ∀ second, (startWindows ((machine runtime options).trace start
    actions)).count second ≤ maxRequests
  judged : ∀ {past action rest call reason token tenant kid},
    actions = past ++ action :: rest →
    Event.rejected call reason ∈ (machine runtime options).emit
      ((machine runtime options).run start past) action →
    reason.token = some token →
    selector runtime token = .ok (tenant, kid) →
    Admitted ((machine runtime options).run start past) action tenant →
    Judged runtime options ((machine runtime options).run start past)
      ((machine runtime options).trace start past) token tenant reason

theorem verified_fresh {caller : AuthenticatedCaller} {keys : List JwtJwk}
    {verified : Int}
    (h : Verified runtime options past job caller keys verified) :
    caller.accessToken = job.token ∧ caller.tenantId = job.tenant ∧
      (∃ key ∈ keys, key.kid = job.kid ∧ SignedBy runtime job.token key) ∧
      ∃ body completed,
        Downloaded runtime past job.tenant body keys completed ∧
        completed ≤ verified ∧ verified < completed + ttlMs := by
  obtain ⟨hdownloaded, hselector, managerNow, hverified⟩ := h
  obtain ⟨first, second, third, header, claims, hparts, hheader, hclaims,
    htenant, hkid⟩ := selector_ok hselector
  obtain ⟨first', second', third', header', claims', kid', key, hparts',
    hheader', hclaims', hkid', hkey, hsigned, hchecked⟩ :=
    verifyJwt_ok hverified
  rw [hparts] at hparts'
  cases hparts'
  rw [hheader] at hheader'
  rw [hclaims] at hclaims'
  cases hheader'
  cases hclaims'
  rw [hkid, Option.some.injEq] at hkid'
  obtain ⟨htenant', htoken⟩ := checkClaims_ok hchecked
  rw [htenant', Option.some.injEq] at htenant
  exact ⟨htoken, htenant, ⟨key, lookup_mem hkey,
    (lookup_key hkey).trans hkid'.symm, first, second, third, hparts, hsigned⟩,
    hdownloaded⟩

/-- In every run with a clock that does not go back. -/
theorem manager_verdicts (runtime : Runtime) (options : Options)
    (published : String → Text) (now : Nat) (actions : List Action)
    (h : (machine runtime options).Admissible Forward (initial published now)
      actions) :
    Verdicts runtime options (initial published now) actions := by
  obtain ⟨_, hinv⟩ := inv_run runtime options published now h
  refine ⟨?_, hinv.active, hinv.bounded, hinv.quota.bounded, ?_⟩
  · intro call job caller keys verified hmem
    exact verified_fresh (hinv.accepted call job caller keys verified hmem)
  · intro past action rest call reason token tenant kid hactions hmem htoken
      hselector hadmitted
    rw [hactions] at h
    obtain ⟨_, hpast⟩ := inv_run runtime options published now
      (Machine.admissible_left h)
    exact step_rejected hpast (Machine.admissible_right h).1 hmem htoken
      hselector hadmitted

/-- A token that verifies with the published key set is never rejected by a key
set that does not verify it. -/
def NeverOutdated (runtime : Runtime) (options : Options) (start : State)
    (actions : List Action) : Prop :=
  ∀ {past action rest call token tenant keys now managerNow detail},
    actions = past ++ action :: rest →
    Event.rejected call (.unverified token tenant keys now managerNow detail) ∈
      (machine runtime options).emit
        ((machine runtime options).run start past) action →
    ¬ Honest runtime options ((machine runtime options).run start past) token
      tenant managerNow

namespace VerdictsWitness

def tenant : String := "11111111-1111-4111-8111-111111111111"

def kid (first : Bool) : String := tenant ++ if first then ":1" else ":2"

def modulus (first : Bool) : String := if first then "0vx7agoe" else "4cLx8Bqz"

def headerText (first : Bool) : Text :=
  "\x7b\"alg\":\"RS256\",\"kid\":\"".toList ++ (kid first).toList ++
    "\"\x7d".toList

def claimsText : Text :=
  "\x7b\"tenant_id\":\"".toList ++ tenant.toList ++
    "\",\"user_id\":\"u\",\"roles\":[],".toList ++
    "\"iss\":\"m\",\"aud\":\"a\",\"exp\":2000,".toList ++
    "\"iat\":1,\"enterprise_id\":\"e\"\x7d".toList

def encodedHeader (first : Bool) : Text :=
  "eyJhbGciOiJSUzI1NiIsImtp".toList ++ "ZCI6IjExMTExMTExLTExMTEt".toList ++
    "NDExMS04MTExLTExMTExMTEx".toList ++
    (if first then "MTExMToxIn0" else "MTExMToyIn0").toList

def encodedClaims : Text :=
  "eyJ0ZW5hbnRfaWQiOiIxMTEx".toList ++ "MTExMS0xMTExLTQxMTEtODEx".toList ++
    "MS0xMTExMTExMTExMTEiLCJ1".toList ++ "c2VyX2lkIjoidSIsInJvbGVz".toList ++
    "IjpbXSwiaXNzIjoibSIsImF1".toList ++ "ZCI6ImEiLCJleHAiOjIwMDAs".toList ++
    "ImlhdCI6MSwiZW50ZXJwcmlz".toList ++ "ZV9pZCI6ImUifQ".toList

/-- A token signed by the tenant's first or second key. -/
def token (first : Bool) : Text :=
  encodedHeader first ++ '.' :: encodedClaims ++ '.' :: "c2ln".toList

def key (first : Bool) : JwtJwk :=
  ⟨"RSA", "RS256", kid first, modulus first, "AQAB", none⟩

def keyText (first : Bool) : Text :=
  "\x7b\"kty\":\"RSA\",\"alg\":\"RS256\",\"kid\":\"".toList ++
    (kid first).toList ++ "\",\"n\":\"".toList ++ (modulus first).toList ++
    "\",\"e\":\"AQAB\"\x7d".toList

/-- The key set with the first key, or with both. -/
def keySet (both : Bool) : Text :=
  "\x7b\"keys\":[".toList ++ keyText true ++
    (if both then ',' :: keyText false else []) ++ "]\x7d".toList

def headerJson (first : Bool) : Json :=
  .object [("alg", .str "RS256"), ("kid", .str (kid first))]

def claimsJson : Json :=
  .object [("tenant_id", .str tenant), ("user_id", .str "u"),
    ("roles", .list []), ("iss", .str "m"), ("aud", .str "a"),
    ("exp", .number (some 2000)), ("iat", .number (some 1)),
    ("enterprise_id", .str "e")]

def keyJson (first : Bool) : Json :=
  .object [("kty", .str "RSA"), ("alg", .str "RS256"),
    ("kid", .str (kid first)), ("n", .str (modulus first)),
    ("e", .str "AQAB")]

def sampleRuntime : Runtime where
  decodeBase64Url text :=
    if text = encodedHeader true then headerText true
    else if text = encodedHeader false then headerText false
    else if text = encodedClaims then claimsText else []
  parseJson text :=
    if text = headerText true then some (headerJson true)
    else if text = headerText false then some (headerJson false)
    else if text = claimsText then some claimsJson
    else if text = keySet true then
      some (.object [("keys", .list [keyJson true, keyJson false])])
    else if text = keySet false then
      some (.object [("keys", .list [keyJson true])])
    else none
  createPublicKey _ := true
  verify found signed signature :=
    signature == "c2ln".toList &&
      signed == encodedHeader (found == key true) ++ '.' :: encodedClaims

def sampleOptions : Options := ⟨"m", "a"⟩

def publishedFirst : String → Text := fun _ => keySet false

/-- A login, while Manager publishes its first key only. -/
def login : List Action :=
  [.verifyLoginToken 0 (token true) tenant ⟨10000, 10000, 10000⟩,
    .serve 0 (.response true (some "application/json") true),
    .complete 0 10050, .settle 0, .resume 0 10060 10060,
    .confirm 0 (.status 200)]

/-- Manager adds its second key; a token of it comes within the cool-down. -/
def rotated : List Action :=
  login ++ [.rotate tenant (keySet true),
    .authenticate 1 (some ("Bearer ".toList ++ token false))
      ⟨12000, 12000, 12000⟩]

def rejection : Reason :=
  .unverified (token false) tenant [key true] 12001 12001 "Unknown JWT key"

def accepts : Event → Bool
  | .accepted call job _ keys verified =>
      call == 0 && job.tenant == tenant && keys == [key true] &&
        verified == 10060
  | _ => false

def rejects : Event → Bool
  | .rejected call reason => call == 1 && reason == rejection
  | _ => false

end VerdictsWitness

open VerdictsWitness in
theorem manager_verdicts_login :
    (machine sampleRuntime sampleOptions).Admissible Forward
        (initial publishedFirst 9000) login ∧
      ((machine sampleRuntime sampleOptions).trace
        (initial publishedFirst 9000) login).any accepts = true ∧
      Verdicts sampleRuntime sampleOptions (initial publishedFirst 9000)
        login := by
  obtain ⟨hrun, haccepts⟩ : (machine sampleRuntime sampleOptions).Admissible
      Forward (initial publishedFirst 9000) login ∧
      ((machine sampleRuntime sampleOptions).trace
        (initial publishedFirst 9000) login).any accepts = true := by
    decide +kernel
  exact ⟨hrun, haccepts, manager_verdicts _ _ _ _ _ hrun⟩

open VerdictsWitness in
/-- The token of a key that Manager has just added is rejected while the keys
without it are fresh. -/
theorem rotated_key_is_rejected :
    (machine sampleRuntime sampleOptions).Admissible Forward
        (initial publishedFirst 9000) (rotated ++ [.resume 1 12001 12001]) ∧
      ¬ NeverOutdated sampleRuntime sampleOptions (initial publishedFirst 9000)
        (rotated ++ [.resume 1 12001 12001]) := by
  obtain ⟨hrun, hrejects, hverifies, hpublished⟩ :
      (machine sampleRuntime sampleOptions).Admissible Forward
        (initial publishedFirst 9000) (rotated ++ [.resume 1 12001 12001]) ∧
      ((machine sampleRuntime sampleOptions).emit
        ((machine sampleRuntime sampleOptions).run
          (initial publishedFirst 9000) rotated)
        (.resume 1 12001 12001)).any rejects = true ∧
      (verifyJwt sampleRuntime sampleOptions (token false)
        [key true, key false] 12001).toBool = true ∧
      acceptedKeys sampleRuntime tenant
        (((machine sampleRuntime sampleOptions).run
          (initial publishedFirst 9000) rotated).published tenant) =
        .ok [key true, key false] := by
    decide +kernel
  refine ⟨hrun, ?_⟩
  intro hnever
  obtain ⟨event, hmem, hevent⟩ := List.any_eq_true.mp hrejects
  cases event with
  | rejected call reason =>
      obtain ⟨_, hreason⟩ := Bool.and_eq_true_iff.mp hevent
      rw [beq_iff_eq.mp hreason] at hmem
      cases hcaller : verifyJwt sampleRuntime sampleOptions (token false)
          [key true, key false] 12001 with
      | error detail =>
          rw [hcaller] at hverifies
          exact nomatch hverifies
      | ok caller => exact hnever rfl hmem ⟨_, caller, hpublished, hcaller⟩
  | started _ _ _ => exact nomatch hevent
  | served _ _ => exact nomatch hevent
  | completed _ _ _ _ => exact nomatch hevent
  | accepted _ _ _ _ _ => exact nomatch hevent
  | unavailable _ _ => exact nomatch hevent

end AiTeam.Jwks
