/-
The invariant of the key cache: every entry holds the keys of a download of its
own tenant, the counters count the downloads, and a token that verified did so
with keys that were fresh.
-/
import Mathlib.Algebra.Order.Group.Unbundled.Int
import AiTeam.Jwks.Authenticator

namespace AiTeam.Jwks

open FixedWindow (Counts)

/-- The second a download starts in. -/
def startWindow : Event → Option Int
  | .started _ _ now => some (now / 1000)
  | _ => none

def startWindows (events : List Event) : List Int :=
  events.filterMap startWindow

/-- The download has not been cleared from its entry. -/
def runs (download : Download) : Bool :=
  match download.progress with
  | .settled _ => false
  | _ => true

/-- The keys are what Manager served for the tenant in a download completed
then. -/
def Downloaded (runtime : Runtime) (events : List Event)
    (tenant : String) (body : Text) (keys : List JwtJwk) (completed : Int) :
    Prop :=
  Event.completed tenant body keys completed ∈ events ∧
    Event.served tenant body ∈ events ∧
    acceptedKeys runtime tenant body = .ok keys

/-- The token verified with keys of its tenant that were fresh. -/
def Verified (runtime : Runtime) (options : Options) (events : List Event)
    (job : Job) (caller : AuthenticatedCaller) (keys : List JwtJwk)
    (verified : Int) : Prop :=
  (∃ body completed,
      Downloaded runtime events job.tenant body keys completed ∧
      completed ≤ verified ∧ verified < completed + ttlMs) ∧
    selector runtime job.token = .ok (job.tenant, job.kid) ∧
    ∃ managerNow,
      verifyJwt runtime options job.token keys managerNow = .ok caller

/-- The job was made for the entry of its tenant. -/
def JobOk (runtime : Runtime) (owner : Nat → String) (state : State)
    (job : Job) : Prop :=
  owner job.entry = job.tenant ∧ job.entry < state.allocated ∧
    selector runtime job.token = .ok (job.tenant, job.kid)

def PhaseOk (runtime : Runtime) (options : Options) (owner : Nat → String)
    (state : State) (past : List Event) : Phase → Prop
  | .waiting job _ => JobOk runtime owner state job
  | .ready job => JobOk runtime owner state job
  | .confirming job caller keys verified =>
      Verified runtime options past job caller keys verified
  | _ => True

def DownloadOk (runtime : Runtime) (owner : Nat → String) (state : State)
    (past : List Event) (download : Download) : Prop :=
  owner download.entry = download.tenant ∧
    download.entry < state.allocated ∧
    ∀ body keys, download.progress = .answered body (.ok keys) →
      Event.served download.tenant body ∈ past ∧
        acceptedKeys runtime download.tenant body = .ok keys

structure Inv (runtime : Runtime) (options : Options) (owner : Nat → String)
    (state : State) (past : List Event) : Prop where
  epoch : 0 ≤ state.now
  clock : state.quota.window ≤ state.now / 1000
  quota : Counts maxRequests (startWindows past) state.quota
  active : state.active = state.downloads.countP runs
  bounded : state.active ≤ maxActive
  entries : ∀ entry ∈ state.entries,
    owner entry.2 = entry.1 ∧ entry.2 < state.allocated
  downloads : ∀ (id : Nat) download, state.downloads[id]? = some download →
    DownloadOk runtime owner state past download
  keys : ∀ id, (state.heap id).expires ≤ 0 ∨ ∃ body completed,
    Downloaded runtime past (owner id) body (state.heap id).keys completed ∧
      completed ≤ state.now ∧ (state.heap id).expires = completed + ttlMs
  calls : ∀ call, PhaseOk runtime options owner state past (state.calls call)
  accepted : ∀ call job caller keys verified,
    Event.accepted call job caller keys verified ∈ past →
    Verified runtime options past job caller keys verified

variable {later : List Event} {tenant : String} {keys : List JwtJwk}

section

variable {runtime : Runtime} {options : Options} {owner : Nat → String}
  {state : State} {past : List Event}

theorem Downloaded.mono {body : Text} {completed : Int}
    (h : Downloaded runtime past tenant body keys completed) :
    Downloaded runtime (past ++ later) tenant body keys completed :=
  ⟨List.mem_append_left _ h.1, List.mem_append_left _ h.2.1, h.2.2⟩

theorem Verified.mono {job : Job} {caller : AuthenticatedCaller}
    {verified : Int}
    (h : Verified runtime options past job caller keys verified) :
    Verified runtime options (past ++ later) job caller keys verified := by
  obtain ⟨⟨body, completed, hdownloaded, htime⟩, hrest⟩ := h
  exact ⟨⟨body, completed, hdownloaded.mono, htime⟩, hrest⟩

theorem PhaseOk.mono {phase : Phase}
    (h : PhaseOk runtime options owner state past phase) :
    PhaseOk runtime options owner state (past ++ later) phase := by
  cases phase with
  | confirming job caller keys verified => exact Verified.mono h
  | waiting _ _ => exact h
  | ready _ => exact h
  | idle => trivial
  | finished => trivial

theorem DownloadOk.mono {download : Download}
    (h : DownloadOk runtime owner state past download) :
    DownloadOk runtime owner state (past ++ later) download := by
  obtain ⟨howner, hallocated, hanswered⟩ := h
  refine ⟨howner, hallocated, ?_⟩
  intro body keys hprogress
  obtain ⟨hserved, haccepted⟩ := hanswered body keys hprogress
  exact ⟨List.mem_append_left _ hserved, haccepted⟩

section

variable (h : Inv runtime options owner state past)
include h

/-- An event that starts no download and accepts only what verified. -/
theorem Inv.emit {event : Event} (hstart : startWindow event = none)
    (haccepted : ∀ call job caller keys verified,
      event = .accepted call job caller keys verified →
      Verified runtime options past job caller keys verified) :
    Inv runtime options owner state (past ++ [event]) := by
  refine ⟨h.epoch, h.clock, ?_, h.active, h.bounded, h.entries, ?_, ?_, ?_, ?_⟩
  · have hwindows : startWindows (past ++ [event]) = startWindows past := by
      simp [startWindows, List.filterMap_append, hstart]
    rw [hwindows]
    exact h.quota
  · exact fun id download hfound => (h.downloads id download hfound).mono
  · intro id
    rcases h.keys id with hnone | ⟨body, completed, hdownloaded, htime⟩
    · exact Or.inl hnone
    · exact Or.inr ⟨body, completed, hdownloaded.mono, htime⟩
  · exact fun call => (h.calls call).mono
  · intro call job caller keys verified hmem
    rcases List.mem_append.mp hmem with hold | hnew
    · exact (h.accepted call job caller keys verified hold).mono
    · exact (haccepted call job caller keys verified
        (List.mem_singleton.mp hnew).symm).mono

theorem Inv.setPhase (call : Nat) {phase : Phase}
    (hphase : PhaseOk runtime options owner state past phase) :
    Inv runtime options owner (setPhase call phase state) past := by
  refine ⟨h.epoch, h.clock, h.quota, h.active, h.bounded, h.entries,
    h.downloads, h.keys, ?_, h.accepted⟩
  intro other
  change PhaseOk runtime options owner state past
    (Function.update state.calls call phase other)
  by_cases heq : other = call
  · rw [heq, Function.update_self]
    exact hphase
  · rw [Function.update_of_ne heq]
    exact h.calls other

theorem Inv.finish (call : Nat) :
    Inv runtime options owner (Jwks.setPhase call .finished state) past :=
  h.setPhase call (by trivial)

theorem Inv.reject (call : Nat) (reason : Reason) :
    Inv runtime options owner (reject call reason state).1
      (past ++ (reject call reason state).2) :=
  (h.finish call).emit rfl (fun _ _ _ _ _ heq => nomatch heq)

theorem Inv.fail (call : Nat) (detail : String) :
    Inv runtime options owner (fail call detail state).1
      (past ++ (fail call detail state).2) :=
  (h.finish call).emit rfl (fun _ _ _ _ _ heq => nomatch heq)

theorem Inv.advance {now : Int} (hforward : state.now ≤ now) :
    Inv runtime options owner { state with now } past := by
  refine ⟨h.epoch.trans hforward, h.clock.trans ?_, h.quota, h.active,
    h.bounded, h.entries, h.downloads, ?_, h.calls, h.accepted⟩
  · exact Int.ediv_le_ediv (by decide) hforward
  · intro id
    rcases h.keys id with hnone | ⟨body, completed, hdownloaded, hle, hexpires⟩
    · exact Or.inl hnone
    · exact Or.inr ⟨body, completed, hdownloaded, hle.trans hforward, hexpires⟩

/-! ### A call -/

theorem Inv.judge (call : Nat) {job : Job}
    (hjob : JobOk runtime owner state job) (managerNow : Rat) :
    Inv runtime options owner
      (judge runtime options call job state.now managerNow state).1
      (past ++ (judge runtime options call job state.now managerNow
        state).2) := by
  unfold Jwks.judge
  simp only
  split
  · exact h.reject call _
  · next hfresh =>
      split
      · exact h.reject call _
      · next caller hverified =>
          rw [List.append_nil]
          refine h.setPhase call ⟨?_, hjob.2.2, managerNow, hverified⟩
          rcases h.keys job.entry with
            hnone | ⟨body, completed, hdownloaded, hle, hexpires⟩
          · exact absurd (hnone.trans h.epoch) hfresh
          · rw [hjob.1] at hdownloaded
            refine ⟨body, completed, hdownloaded, hle, ?_⟩
            rw [← hexpires]
            exact Int.not_le.mp hfresh

/-- A refresh keeps the invariant and touches no call. -/
theorem Inv.refresh {entry : Nat} (howner : owner entry = tenant)
    (hallocated : entry < state.allocated) :
    Inv runtime options owner (refresh tenant entry state.now state).1
      (past ++ (refresh tenant entry state.now state).2.1) := by
  unfold Jwks.refresh
  simp only
  split
  · rw [List.append_nil]
    exact h
  · split
    · rw [List.append_nil]
      exact h
    · have hquota := h.quota.roll h.clock
      have hwindow := FixedWindow.roll_window (state.now / 1000) state.quota
      split
      · rw [List.append_nil]
        exact ⟨h.epoch, hwindow.le, hquota, h.active, h.bounded, h.entries,
          h.downloads, h.keys, h.calls, h.accepted⟩
      · next hroom =>
          simp only [Bool.or_eq_true, decide_eq_true_eq, not_or,
            Nat.not_le] at hroom
          refine ⟨h.epoch, ?_, ?_, ?_, hroom.1, h.entries, ?_, ?_, ?_, ?_⟩
          · exact hwindow.le
          · have hwindows : startWindows (past ++ [Event.started
                state.downloads.length tenant state.now]) =
                startWindows past ++
                  [(FixedWindow.roll (state.now / 1000)
                    state.quota).window] := by
              rw [hwindow]
              simp [startWindows, List.filterMap_append, startWindow]
            rw [hwindows]
            exact hquota.take hroom.2
          · rw [List.countP_append, ← h.active]
            rfl
          · intro id download hfound
            rw [List.getElem?_append] at hfound
            split at hfound
            · exact (h.downloads id download hfound).mono
            · have hnew := List.mem_singleton.mp
                (List.mem_of_getElem? hfound)
              rw [hnew]
              exact ⟨howner, hallocated, fun _ _ hprogress =>
                (nomatch hprogress)⟩
          · intro id
            have hsame : ((Function.update state.heap entry
                { state.heap entry with
                  attempted := state.now
                  pending := some state.downloads.length }) id).keys =
                  (state.heap id).keys ∧
                ((Function.update state.heap entry
                  { state.heap entry with
                    attempted := state.now
                    pending := some state.downloads.length }) id).expires =
                  (state.heap id).expires := by
              by_cases heq : id = entry
              · rw [heq, Function.update_self]
                exact ⟨rfl, rfl⟩
              · rw [Function.update_of_ne heq]
                exact ⟨rfl, rfl⟩
            rw [hsame.1, hsame.2]
            rcases h.keys id with
              hnone | ⟨body, completed, hdownloaded, hrest⟩
            · exact Or.inl hnone
            · exact Or.inr ⟨body, completed, hdownloaded.mono, hrest⟩
          · exact fun call => (h.calls call).mono
          · intro call job caller keys verified hmem
            rcases List.mem_append.mp hmem with hold | hnew
            · exact (h.accepted call job caller keys verified hold).mono
            · exact nomatch List.mem_singleton.mp hnew

end

theorem refresh_allocated (tenant : String) (entry : Nat) (now : Int)
    (state : State) :
    (refresh tenant entry now state).1.allocated = state.allocated := by
  unfold Jwks.refresh
  simp only
  split
  · rfl
  · split
    · rfl
    · split <;> rfl

theorem Inv.authenticate (h : Inv runtime options owner state past)
    (call : Nat) (authorization : Option Text) (first : Int)
    (managerNow : Rat) :
    Inv runtime options owner
      (authenticate runtime options call authorization
        ⟨first, state.now, managerNow⟩ state).1
      (past ++ (authenticate runtime options call authorization
        ⟨first, state.now, managerNow⟩ state).2) := by
  unfold Jwks.authenticate
  cases bearer authorization with
  | none => exact h.reject call _
  | some token =>
      simp only
      cases hselector : selector runtime token with
      | error detail => exact h.reject call _
      | ok selected =>
          obtain ⟨tenant, kid⟩ := selected
          simp only
          cases hentry : valueAt tenant state.entries with
          | none => exact h.reject call _
          | some id =>
              have hmem := lookup_mem (lookup_of_valueAt hentry)
              obtain ⟨howner, hallocated⟩ := h.entries _ hmem
              have hjob : JobOk runtime owner state
                  ⟨token, tenant, kid, id⟩ := ⟨howner, hallocated, hselector⟩
              simp only
              split
              · have hrefresh := h.refresh howner hallocated
                have hsame := refresh_allocated tenant id state.now state
                generalize Jwks.refresh tenant id state.now state = result
                  at hrefresh hsame
                obtain ⟨next, events, outcome⟩ := result
                have hnext : JobOk runtime owner next
                    ⟨token, tenant, kid, id⟩ :=
                  ⟨howner, by rw [hsame]; exact hallocated, hselector⟩
                cases outcome with
                | pending download => exact hrefresh.setPhase call hnext
                | skipped => exact hrefresh.setPhase call hnext
                | refused detail =>
                    have hfailed := hrefresh.fail call detail
                    rw [List.append_assoc] at hfailed
                    exact hfailed
              · exact h.judge call hjob managerNow

/-- A new entry is the next one's of its tenant. -/
theorem Inv.addEntry (h : Inv runtime options owner state past) (tenant : String)
    {entries : List (String × Nat)}
    (hentries : ∀ entry ∈ entries, entry ∈ state.entries) :
    Inv runtime options (Function.update owner state.allocated tenant)
      (addEntry tenant entries state) past := by
  have hold : ∀ id, id < state.allocated →
      Function.update owner state.allocated tenant id = owner id :=
    fun id hlt => Function.update_of_ne hlt.ne _ _
  have hjob : ∀ job, JobOk runtime owner state job →
      JobOk runtime (Function.update owner state.allocated tenant)
        (Jwks.addEntry tenant entries state) job := by
    intro job ⟨howner, hallocated, hselector⟩
    refine ⟨?_, Nat.lt_succ_of_lt hallocated, hselector⟩
    rw [hold _ hallocated, howner]
  refine ⟨h.epoch, h.clock, h.quota, h.active, h.bounded, ?_, ?_, ?_, ?_,
    h.accepted⟩
  · intro entry hentry
    rcases List.mem_append.mp hentry with hmem | hnew
    · obtain ⟨howner, hallocated⟩ := h.entries entry (hentries entry hmem)
      exact ⟨by rw [hold _ hallocated, howner], Nat.lt_succ_of_lt hallocated⟩
    · rw [List.mem_singleton.mp hnew]
      exact ⟨Function.update_self _ _ _, Nat.lt_succ_self _⟩
  · intro id download hfound
    obtain ⟨howner, hallocated, hanswered⟩ := h.downloads id download hfound
    exact ⟨by rw [hold _ hallocated, howner], Nat.lt_succ_of_lt hallocated,
      hanswered⟩
  · intro id
    by_cases heq : id = state.allocated
    · have hheap : (Jwks.addEntry tenant entries state).heap id =
          ⟨[], 0, 0, none⟩ := by
        rw [heq]
        exact Function.update_self _ _ _
      left
      rw [hheap]
    · have hheap : (Jwks.addEntry tenant entries state).heap id = state.heap id :=
        Function.update_of_ne heq _ _
      rw [hheap, Function.update_of_ne heq]
      exact h.keys id
  · intro call
    have hcall := h.calls call
    change PhaseOk _ _ _ _ _ (state.calls call)
    cases hphase : state.calls call with
    | waiting job download =>
        rw [hphase] at hcall
        exact hjob job hcall
    | ready job =>
        rw [hphase] at hcall
        exact hjob job hcall
    | confirming job caller keys verified =>
        rw [hphase] at hcall
        exact hcall
    | idle => trivial
    | finished => trivial

theorem makeRoom_subset {entries : List (String × Nat)}
    (h : makeRoom state = some entries) :
    ∀ entry ∈ entries, entry ∈ state.entries := by
  unfold makeRoom at h
  split at h
  · obtain ⟨idle, _, rfl⟩ := Option.map_eq_some_iff.mp h
    exact fun entry hentry => (List.mem_filter.mp hentry).1
  · cases h
    exact fun entry hentry => hentry

theorem Inv.verifyLoginToken (h : Inv runtime options owner state past)
    (call : Nat) (token : Text) (expectedTenant : String) (first : Int)
    (managerNow : Rat) :
    ∃ owner, Inv runtime options owner
      (verifyLoginToken runtime options call token expectedTenant
        ⟨first, state.now, managerNow⟩ state).1
      (past ++ (verifyLoginToken runtime options call token expectedTenant
        ⟨first, state.now, managerNow⟩ state).2) := by
  unfold Jwks.verifyLoginToken
  cases selector runtime token with
  | error detail => exact ⟨owner, h.reject call _⟩
  | ok selected =>
      obtain ⟨tenant, kid⟩ := selected
      simp only
      split
      · exact ⟨owner, h.reject call _⟩
      · split
        · exact ⟨owner, h.authenticate call _ first managerNow⟩
        · split
          · exact ⟨owner, h.reject call _⟩
          · next entries hroom =>
              exact ⟨_, (h.addEntry tenant (makeRoom_subset hroom)).authenticate
                call _ first managerNow⟩

/-! ### A download -/

/-- The downloads stay in order when one of them moves on. -/
theorem Inv.downloads_setProgress (h : Inv runtime options owner state past)
    {id : Nat} {download : Download}
    (hfound : state.downloads[id]? = some download) {progress : Progress}
    (hanswered : ∀ body keys, progress = .answered body (.ok keys) →
      Event.served download.tenant body ∈ past ∧
        acceptedKeys runtime download.tenant body = .ok keys) (other : Nat)
    (found : Download)
    (hother : (Jwks.setProgress id progress state).downloads[other]? =
      some found) : DownloadOk runtime owner state past found := by
  rw [Jwks.setProgress, List.getElem?_modify, Option.map_eq_map,
    Option.map_eq_some_iff] at hother
  obtain ⟨old, hold, rfl⟩ := hother
  split
  · next heq =>
      rw [← heq, hfound, Option.some.injEq] at hold
      subst hold
      obtain ⟨howner, hallocated, _⟩ := h.downloads id download hfound
      exact ⟨howner, hallocated, hanswered⟩
  · exact h.downloads other old hold

/-- A download moves on; what it has been answered with is what was served. -/
theorem Inv.setProgress (h : Inv runtime options owner state past) {id : Nat}
    {download : Download} (hfound : state.downloads[id]? = some download)
    {progress : Progress}
    (hruns : runs { download with progress } = runs download)
    (hanswered : ∀ body keys, progress = .answered body (.ok keys) →
      Event.served download.tenant body ∈ past ∧
        acceptedKeys runtime download.tenant body = .ok keys) :
    Inv runtime options owner (setProgress id progress state) past := by
  refine ⟨h.epoch, h.clock, h.quota, ?_, h.bounded, h.entries,
    h.downloads_setProgress hfound hanswered, h.keys, h.calls, h.accepted⟩
  have hcount := countP_modify runs
    (fun download : Download => { download with progress })
    state.downloads id hfound
  simp only [hruns] at hcount
  exact h.active.trans (Nat.add_right_cancel hcount).symm

theorem download_ok {body : Text} {answer : Answer}
    (h : download runtime tenant body answer = .ok keys) :
    acceptedKeys runtime tenant body = .ok keys := by
  unfold download at h
  split at h
  · exact nomatch h
  · split at h
    · exact h
    · exact nomatch h

section

variable (h : Inv runtime options owner state past)
include h

theorem Inv.serve (id : Nat) (answer : Answer) :
    Inv runtime options owner (serve runtime id answer state).1
      (past ++ (serve runtime id answer state).2) := by
  unfold Jwks.serve
  split
  · next tenant entry hfound =>
      have hserved : Inv runtime options owner state
          (past ++ [.served tenant (state.published tenant)]) :=
        h.emit rfl (fun _ _ _ _ _ heq => nomatch heq)
      refine hserved.setProgress hfound rfl ?_
      intro body keys hprogress
      simp only [Progress.answered.injEq] at hprogress
      obtain ⟨rfl, hkeys⟩ := hprogress
      exact ⟨List.mem_append_right _ List.mem_cons_self, download_ok hkeys⟩
  · rw [List.append_nil]
    exact h

theorem Inv.complete (id : Nat) :
    Inv runtime options owner (complete id state.now state).1
      (past ++ (complete id state.now state).2) := by
  unfold Jwks.complete
  split
  · next tenant entry body keys hfound =>
      obtain ⟨howner, _, hanswered⟩ := h.downloads id _ hfound
      obtain ⟨hserved, haccepted⟩ := hanswered body keys rfl
      have hset : Inv runtime options owner
          (Jwks.setProgress id (.completed none) state) past :=
        h.setProgress hfound rfl fun _ _ heq => nomatch heq
      have hprogress : Inv runtime options owner
          (Jwks.setProgress id (.completed none) state)
          (past ++ [.completed tenant body keys state.now]) :=
        hset.emit rfl (fun _ _ _ _ _ heq => nomatch heq)
      refine ⟨hprogress.epoch, hprogress.clock, hprogress.quota,
        hprogress.active, hprogress.bounded, hprogress.entries,
        hprogress.downloads, ?_, hprogress.calls, hprogress.accepted⟩
      intro other
      by_cases heq : other = entry
      · right
        subst heq
        simp only [Function.update_self]
        rw [howner]
        exact ⟨body, state.now, ⟨List.mem_append_right _ List.mem_cons_self,
          List.mem_append_left _ hserved, haccepted⟩, Int.le_refl _, rfl⟩
      · simp only [Function.update_of_ne heq]
        exact hprogress.keys other
  · next hfound =>
      rw [List.append_nil]
      exact h.setProgress hfound rfl fun _ _ heq => nomatch heq
  · rw [List.append_nil]
    exact h

theorem Inv.settle (id : Nat) :
    Inv runtime options owner (settle id state).1
      (past ++ (settle id state).2) := by
  unfold Jwks.settle
  split
  · next tenant entry failure hfound =>
      rw [List.append_nil]
      have hcount := countP_modify runs
        (fun download : Download =>
          { download with progress := .settled failure })
        state.downloads id hfound
      simp only [runs] at hcount
      have hactive := h.active
      refine ⟨h.epoch, h.clock, h.quota, ?_, ?_, h.entries,
        h.downloads_setProgress hfound (fun _ _ heq => nomatch heq), ?_,
        h.calls, h.accepted⟩
      · change state.active - 1 = (state.downloads.modify id _).countP runs
        simp at hcount
        omega
      · exact (Nat.sub_le _ _).trans h.bounded
      · intro other
        by_cases heq : other = entry
        · subst heq
          simp only [Function.update_self]
          exact h.keys other
        · simp only [Function.update_of_ne heq]
          exact h.keys other
  · rw [List.append_nil]
    exact h

/-! ### The end of a call -/

theorem Inv.resume (call : Nat) (managerNow : Rat) :
    Inv runtime options owner
      (resume runtime options call state.now managerNow state).1
      (past ++ (resume runtime options call state.now managerNow state).2) := by
  have hcall := h.calls call
  unfold Jwks.resume
  split
  · next job hphase =>
      rw [hphase] at hcall
      exact h.judge call hcall managerNow
  · next job download hphase =>
      rw [hphase] at hcall
      split
      · exact h.judge call hcall managerNow
      · exact h.fail call _
      · rw [List.append_nil]
        exact h
  · rw [List.append_nil]
    exact h

theorem Inv.confirm (call : Nat) (reply : SessionReply) :
    Inv runtime options owner (confirm call reply state).1
      (past ++ (confirm call reply state).2) := by
  have hcall := h.calls call
  unfold Jwks.confirm
  split
  · next job caller keys verified hphase =>
      rw [hphase] at hcall
      split
      · exact h.fail call _
      · split
        · refine (h.finish call).emit rfl ?_
          intro _ _ _ _ _ heq
          cases heq
          exact hcall
        · split
          · exact h.reject call _
          · exact h.fail call _
  · rw [List.append_nil]
    exact h

/-! ### Every run -/

theorem Inv.step (action : Action) (hforward : Forward state action) :
    ∃ owner, Inv runtime options owner (step runtime options state action).1
      (past ++ (step runtime options state action).2) := by
  cases action with
  | authenticate call authorization clock =>
      have hnow := h.advance (hforward.1.trans hforward.2)
      unfold Jwks.step
      simp only
      split
      · exact ⟨owner, hnow.authenticate call authorization clock.first
          clock.manager⟩
      · rw [List.append_nil]
        exact ⟨owner, hnow⟩
  | verifyLoginToken call token expectedTenant clock =>
      have hnow := h.advance (hforward.1.trans hforward.2)
      unfold Jwks.step
      simp only
      split
      · exact hnow.verifyLoginToken call token expectedTenant clock.first
          clock.manager
      · rw [List.append_nil]
        exact ⟨owner, hnow⟩
  | rotate tenant body =>
      refine ⟨owner, ?_⟩
      rw [Jwks.step, List.append_nil]
      exact ⟨h.epoch, h.clock, h.quota, h.active, h.bounded, h.entries,
        h.downloads, h.keys, h.calls, h.accepted⟩
  | serve id answer => exact ⟨owner, h.serve id answer⟩
  | complete id now => exact ⟨owner, (h.advance hforward).complete id⟩
  | settle id => exact ⟨owner, h.settle id⟩
  | resume call now managerNow =>
      exact ⟨owner, (h.advance hforward).resume call managerNow⟩
  | confirm call reply => exact ⟨owner, h.confirm call reply⟩

end

theorem Inv.initial (runtime : Runtime) (options : Options)
    (published : String → Text) (now : Nat) :
    Inv runtime options (fun _ => "") (initial published now) [] where
  epoch := Int.natCast_nonneg now
  clock := Int.ediv_nonneg (Int.natCast_nonneg now) (by decide)
  quota := Counts.initial maxRequests 0
  active := rfl
  bounded := Nat.zero_le _
  entries _ hentry := nomatch hentry
  downloads _ _ hfound := nomatch hfound
  keys _ := Or.inl (Int.le_refl _)
  calls _ := trivial
  accepted _ _ _ _ _ hmem := nomatch hmem

theorem inv_run (runtime : Runtime) (options : Options)
    (published : String → Text) (now : Nat) {actions : List Action}
    (h : (machine runtime options).Admissible Forward (initial published now)
      actions) :
    ∃ owner, Inv runtime options owner
      ((machine runtime options).run (initial published now) actions)
      ((machine runtime options).trace (initial published now) actions) := by
  have hinitial : ∃ owner,
      Inv runtime options owner (initial published now) [] :=
    ⟨_, Inv.initial runtime options published now⟩
  exact (machine runtime options).invariant_from
    (fun state past => ∃ owner, Inv runtime options owner state past)
    (fun _ _ action ⟨_, hinv⟩ hforward => hinv.step action hforward)
    actions hinitial h

end

end AiTeam.Jwks
