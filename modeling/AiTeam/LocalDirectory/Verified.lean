/-
Citations are verified only while they are current: over every interleaving of
the calls with each other and with what happens to the rows and identities.
-/
import AiTeam.LocalDirectory.Citations

namespace AiTeam.LocalDirectory

open AiTeam.Attempt

section

variable {env : Env} {choice : Choice} {agent agent' : Agent}
  {past : List Event}

/-! ### Reads -/

theorem checkReading_keeps (read : Read) :
    Keeps Quiet (checkReading env choice read) :=
  checkAfter_keeps env choice _ _ _ _ _ _

section

variable (hsound : Sound agent past)
include hsound

theorem safe_startRead {asked : Asked} (hasked : asked.Made past)
    (context : DirectoryExecution) (id : Nat) (offset : Int) (signalled : Bool) :
    Safe past agent
      (startRead env choice asked context id offset signalled) := by
  apply safe_bind hsound (authorize_keeps env choice context .read)
  intro _ _ _ _ hsound
  apply safe_bind hsound (Keeps.require _ _)
  intro _ _ _ _ hsound
  apply safe_bind hsound Keeps.get
  intro _ _ _ _ hsound
  apply safe_bind hsound (Keeps.demand _ _)
  intro citation _ _ _ hsound
  apply safe_bind hsound (Keeps.require _ _)
  intro _ _ _ _ hsound
  apply safe_bind hsound (Keeps.require _ _)
  intro _ _ _ _ hsound
  apply safe_bind hsound (Keeps.demand _ _)
  intro _ _ _ _ hsound
  apply safe_bind hsound (enter_keeps _ _ _)
  intro task _ _ _ hsound
  apply safe_tracked
  apply safe_bind hsound (touch_keeps _ _)
  intro _ _ _ _ hsound
  apply safe_bind hsound (checkBefore_keeps env choice _ _ _ _ _)
  intro _ _ _ _ hsound
  exact safe_go hsound hasked

theorem safe_readSource {read : Read} (hasked : read.asked.Made past) :
    Safe past agent (readSource env choice read) := by
  apply safe_bind hsound (Keeps.answer _)
  intro source _ _ _ hsound
  apply safe_bind hsound (Keeps.require _ _)
  intro _ _ _ _ hsound
  apply safe_bind hsound (Keeps.require _ _)
  intro _ _ _ _ hsound
  apply safe_bind hsound (Keeps.require _ _)
  intro _ _ _ _ hsound
  apply safe_bind hsound (checkBefore_keeps env choice _ _ _ _ _)
  intro _ _ _ _ hsound
  exact safe_go hsound hasked

theorem safe_startVerify (caller : Caller) (id : Nat) (offset : Int) :
    Safe past agent (startVerify env choice caller id offset) := by
  apply safe_bind hsound (Keeps.require _ _)
  intro _ _ _ _ hsound
  apply safe_bind hsound (assertCitationCurrent_keeps env choice caller id)
  intro citation later hassert _ hlater
  obtain ⟨rfl, hmem, hid, _⟩ := assertCitationCurrent_gives hassert
  have hasked : (Asked.verify caller id citation).Made past :=
    ⟨hlater.held citation hmem, hid⟩
  exact safe_startRead hlater hasked _ _ _ _

theorem safe_returned {events : List Event}
    (hnone : ∀ citation, .cited citation ∉ events)
    (hattested : ∀ event ∈ events, ∀ result ∈ event.answer?,
      Attested agent past result) :
    Safe past agent (pure (.returned, events)) := by
  have hknows : Knows agent past .returned := trivial
  exact safe_pure hsound hknows hnone hattested

end

theorem leave_keeps (task : Nat) :
    Keeps Quiet (modify fun agent => { agent with
      tasks := agent.tasks.filter fun active => active.id ≠ task } :
        Step PUnit) :=
  Keeps.modify fun agent => quiet_of_same agent _ rfl rfl
    (fun _ => Nat.le_refl _) (Nat.le_refl _) rfl

section

variable (hsound : Sound agent past)
include hsound

theorem safe_leave {task : Nat} {ended : Ended}
    (hknows : Knows agent past (.leave task ended)) :
    Safe past agent (leave task ended) := by
  apply safe_bind hsound (leave_keeps task)
  intro _ later _ _ hlater
  cases ended with
  | failed code => exact safe_go hlater trivial
  | found found => exact safe_returned hlater (by simp) (by simp [Event.answer?])
  | read asked source =>
      cases asked with
      | tool =>
          exact safe_returned hlater (by simp) (by simp [Event.answer?])
      | verify caller id citation => exact safe_go hlater hknows

/-! ### Changes -/

theorem safe_finishBind (directoryOwner : DirectoryOwner)
    (id employee : String) (enabled : Bool) (revision : Int) :
    Safe past agent
      (finishBind choice directoryOwner id employee enabled revision) := by
  apply safe_bind hsound (write_keeps (leads_bind _ _ _ _ _ _))
  intro _ _ _ _ hsound
  apply safe_bind hsound (invalidate_keeps _ _ _)
  intro _ _ _ _ hsound
  exact safe_go hsound trivial

theorem safe_startBind (caller : Caller) (id employeeId : String)
    (enabled : Bool) (revision : Int) :
    Safe past agent
      (startBind env choice caller id employeeId enabled revision) := by
  apply safe_bind hsound (Keeps.demand _ _)
  intro _ _ _ _ hsound
  split
  · apply safe_bind hsound Keeps.get
    intro _ _ _ _ hsound
    apply safe_bind hsound (Keeps.demand _ _)
    intro _ _ _ _ hsound
    apply safe_bind hsound (Keeps.demand _ _)
    intro _ _ _ _ hsound
    exact safe_go hsound trivial
  · exact safe_finishBind hsound _ _ _ _ _

theorem safe_checkBinding (caller : Caller) (directoryOwner : DirectoryOwner)
    (id employee : String) (revision : Int) :
    Safe past agent
      (checkBinding env choice caller directoryOwner id employee
        revision) := by
  apply safe_bind hsound (Keeps.answer _)
  intro _ _ _ _ hsound
  apply safe_bind hsound (Keeps.demand _ _)
  intro _ _ _ _ hsound
  exact safe_finishBind hsound _ _ _ _ _

theorem safe_consumeTicket (caller : Caller) (directoryOwner : DirectoryOwner) :
    Safe past agent (consumeTicket env choice caller directoryOwner) := by
  apply safe_bind hsound (Keeps.answer _)
  intro _ _ _ _ hsound
  apply safe_bind hsound (Keeps.demand _ _)
  intro _ _ _ _ hsound
  apply safe_bind hsound (write_keeps (leads_register _ _ _ _))
  intro _ _ _ _ hsound
  exact safe_go hsound trivial

theorem safe_revoke (caller : Caller) (id : String) :
    Safe past agent (revoke env choice caller id) := by
  apply safe_bind hsound (Keeps.demand _ _)
  intro _ _ _ _ hsound
  apply safe_bind hsound (write_keeps (leads_revoke _ _ _))
  intro _ _ _ _ hsound
  apply safe_bind hsound (invalidate_keeps _ _ _)
  intro _ _ _ _ hsound
  exact safe_go hsound trivial

end

/-! ### Every statement -/

/-- The citation the gate finds under an id is the one made under it. -/
theorem attested_of_assert {caller : Caller} {id : Nat}
    {citation found : Citation} (hsound : Sound agent' past)
    (hassert : Gives (assertCitationCurrent env choice caller id) agent found
      agent')
    (hmade : .cited citation ∈ past) (hid : citation.id = id)
    (source : Excerpt) :
    agent' = agent ∧ Attested agent' past (citation.verified source) := by
  obtain ⟨rfl, hmem, hfound, _, hcurrent⟩ := assertCitationCurrent_gives hassert
  obtain rfl := hsound.unique found citation (hsound.held found hmem) hmade
    (hfound.trans hid.symm)
  exact ⟨rfl, found, source, hmade, rfl, hcurrent⟩

section

variable (hsound : Sound agent past)
include hsound

theorem safe_start (request : Request) :
    Safe past agent (start env choice request) := by
  cases request with
  | search context query limit signalled =>
      exact safe_startSearch hsound context query limit signalled
  | read context id offset signalled =>
      have hasked : Asked.tool.Made past := trivial
      exact safe_startRead hsound hasked context id offset signalled
  | verifyCitation caller id offset =>
      exact safe_startVerify hsound caller id offset
  | register caller =>
      apply safe_bind hsound (Keeps.demand _ _)
      intro _ _ _ _ hsound
      exact safe_go hsound trivial
  | bind caller id employee enabled revision =>
      exact safe_startBind hsound caller id employee enabled revision
  | revoke caller id => exact safe_revoke hsound caller id

/-- After the answer of the host a search goes on as it was. -/
theorem safe_checked {search : Search} {resource : DirectoryResource}
    {bindingRevision : Nat} {authority : Option String}
    {rest : String → Step Progress}
    (hrest : ∀ actual agent', Quiet agent agent' → Sound agent' past →
      Safe past agent' (rest actual)) :
    Safe past agent (tracked search.task do
      let actual ← checkAfter env choice search.context resource
        bindingRevision authority .search search.task
      rest actual) := by
  apply safe_tracked
  apply safe_bind hsound (checkAfter_keeps env choice _ _ _ _ _ _)
  exact fun actual later _ hquiet hlater => hrest actual later hquiet hlater

theorem safe_readFile {walk : Walk} (hwalks : Walks agent walk) (file : File) :
    Safe past agent (proceed env choice (.readFile walk file)) := by
  apply safe_tracked
  cases choice.read with
  | ok source => exact safe_examine hsound hwalks file source
  | error code =>
      dsimp only
      have hskipped : Walks agent ((walk.cover skipFile).incomplete true) :=
        hwalks.changed rfl rfl rfl rfl
      split
      · exact safe_nextEntry hsound hskipped _ _
      · exact safe_throw hsound code

theorem safe_proceed {stage : Stage} (hknows : Knows agent past stage) :
    Safe past agent (proceed env choice stage) := by
  cases stage with
  | start request => exact safe_start hsound request
  | consumeTicket caller owner => exact safe_consumeTicket hsound caller owner
  | checkBinding caller owner id employee revision =>
      exact safe_checkBinding hsound caller owner id employee revision
  | openDirectory search resource bindingRevision =>
      apply safe_checked hsound
      intro authority later hquiet hlater
      have hcarries := hknows.1.onward hquiet.toOnward
      have hopened := hknows.2.onward hquiet.toOnward
      exact safe_nextFolder hlater
        ⟨⟨hcarries.owner, hcarries.candidates⟩, hopened⟩
  | checkFolder walk directory =>
      apply safe_checked hsound
      intro _ later hquiet hlater
      exact safe_go hlater (Walks.onward hknows hquiet.toOnward)
  | listFolder walk directory =>
      apply safe_tracked
      apply safe_bind hsound (Keeps.answer _)
      intro listing _ _ hfirst hsound
      apply safe_bind hsound (Keeps.require _ _)
      intro _ later _ hquiet hlater
      have hwalks := Walks.onward hknows (hfirst.trans hquiet).toOnward
      have hlisted : Walks later (walk.incomplete listing.isPartial) :=
        hwalks.changed rfl rfl rfl rfl
      exact safe_nextEntry hlater hlisted _ _
  | checkFile walk file =>
      apply safe_checked hsound
      intro _ later hquiet hlater
      exact safe_go hlater (Walks.onward hknows hquiet.toOnward)
  | readFile walk file => exact safe_readFile hsound hknows file
  | confirm search item rest =>
      apply safe_checked hsound
      intro _ later hquiet hlater
      exact safe_confirmNext hlater (Carries.onward hknows hquiet.toOnward) rest
  | checkRead read =>
      apply safe_tracked
      apply safe_bind hsound (checkReading_keeps read)
      intro _ _ _ _ hsound
      exact safe_go hsound hknows
  | readSource read => exact safe_tracked (safe_readSource hsound hknows) _
  | recheckRead read source =>
      apply safe_tracked
      apply safe_bind hsound (checkReading_keeps read)
      intro _ _ _ _ hsound
      exact safe_go hsound hknows
  | leave task ended => exact safe_leave hsound hknows
  | assertCitation caller id citation source =>
      apply safe_bind hsound (assertCitationCurrent_keeps env choice caller id)
      intro found later hassert _ hlater
      obtain ⟨rfl, hattested⟩ := attested_of_assert hlater hassert hknows.1
        hknows.2 source
      have hnext : Knows later past
        (.send caller id (citation.verified source)) :=
        ⟨citation, source, hknows.1, hknows.2, rfl⟩
      exact safe_pure hlater hnext (by simp)
        (by simpa [Event.answer?] using hattested)
  | send caller id result =>
      obtain ⟨citation, source, hmade, hid, rfl⟩ := hknows
      apply safe_bind hsound (assertCitationCurrent_keeps env choice caller id)
      intro found later hassert _ hlater
      obtain ⟨rfl, hattested⟩ := attested_of_assert hlater hassert hmade hid
        source
      exact safe_returned hlater (by simp)
        (by simpa [Event.answer?] using hattested)
  | returned => exact safe_go hsound trivial
  | failed code => exact safe_go hsound trivial

end

theorem quiet_outside (agent : Agent) (action : Outside) :
    Quiet agent (outside agent action).1 ∧ (outside agent action).2 = [] := by
  cases action with
  | registerIdentity caller now =>
      refine ⟨quiet_of_same agent _ rfl rfl ?_ (Nat.le_refl _) rfl, rfl⟩
      intro key
      exact (Registry.generation_register _ _ _ _).ge
  | resolveIdentity tenantId memberId now =>
      exact ⟨quiet_resolveIdentity _ now agent, rfl⟩
  | invalidateIdentity tenantId memberId =>
      refine ⟨quiet_of_same agent _ rfl rfl ?_ (Nat.le_refl _) rfl, rfl⟩
      exact Registry.generation_bump _ _
  | clearIdentities =>
      refine ⟨quiet_of_same agent _ rfl rfl ?_ (Nat.le_refl _) rfl, rfl⟩
      exact Registry.generation_clear _
  | invalidate owner => exact ⟨quiet_invalidate owner none none agent, rfl⟩
  | employees experts snapshots =>
      exact ⟨quiet_of_same agent _ rfl rfl (fun _ => Nat.le_refl _)
        (Nat.le_refl _) rfl, rfl⟩
  | conversations conversations participants =>
      exact ⟨quiet_of_same agent _ rfl rfl (fun _ => Nat.le_refl _)
        (Nat.le_refl _) rfl, rfl⟩
  | abort task =>
      exact ⟨quiet_of_same agent _ rfl rfl (fun _ => Nat.le_refl _)
        (Nat.le_refl _) rfl, rfl⟩

end

/-! ### Runs -/

theorem statement_arrived (env : Env) (choice : Choice) {agent : Agent}
    {past : List Event} {stage : Stage} (hsound : Sound agent past)
    (hknows : Knows agent past stage) :
    Arrived past agent (statement env choice agent stage).1
      (statement env choice agent stage).2.1
      (statement env choice agent stage).2.2 := by
  have hsafe : Safe past agent (proceed env choice stage) :=
    safe_proceed hsound hknows
  rw [Safe] at hsafe
  rw [statement]
  rcases h : (proceed env choice stage).outcome agent with ⟨result, agent'⟩
  rw [h] at hsafe
  cases result with
  | ok progress => exact hsafe
  | error code =>
      have hsame : Sound agent' (past ++ []) := by
        rw [List.append_nil]
        exact hsafe.1
      exact Arrived.mk hsame trivial hsafe.2
        fun _ hmem => absurd hmem List.not_mem_nil

def verification (env : Env) :
    (service env).Proof (fun _ _ _ => True) (fun _ _ => True) where
  inv := Sound
  knows := Knows
  apart _ _ := True
  symm _ := trivial
  starts _ _ := ⟨trivial, fun _ _ => trivial⟩
  keeps {agent past choice stage} hsound hknows _ := by
    have harrived := statement_arrived env choice hsound hknows
    exact ⟨harrived.sound, harrived.knows,
      fun other hother _ => ⟨hother.onward harrived.onward _, trivial⟩⟩
  bears {agent past action} hsound _ := by
    obtain ⟨hquiet, hnone⟩ := quiet_outside agent action
    have hsame : Sound (outside agent action).1 (past ++ []) := by
      rw [List.append_nil]
      exact hsound.quiet hquiet
    refine ⟨?_, fun call hcall => ?_⟩
    · simp only [service, hnone]
      exact hsame
    · simp only [service, hnone]
      exact hcall.onward hquiet.toOnward []

theorem progress (env : Env) : (verification env).Progress Onward where
  refl := Onward.refl
  trans := Onward.trans
  keeps hsound hknows _ := (statement_arrived _ _ hsound hknows).onward
  bears _ _ := (quiet_outside _ _).1.toOnward

theorem sound_started (db : Db) : Sound (started db) [] := by
  constructor
  · exact fun _ hmem => absurd hmem List.not_mem_nil
  · exact fun _ hmem => absurd hmem List.not_mem_nil
  · exact fun _ _ hmem => absurd hmem List.not_mem_nil
  · exact fun _ hmem => absurd hmem List.not_mem_nil

/-- An answer is given by a statement that finds the citation current. -/
theorem answered {env : Env} {world : World Agent Stage} {past : List Event}
    (hholds : (verification env).Holds world past)
    {act : Act Request Choice Outside} {event : Event} {result : Verified}
    (hevent : event ∈ (service env).machine.emit world act)
    (hresult : event.answer? = some result) :
    Attested ((service env).machine.next world act).store past result := by
  cases act with
  | request request => exact absurd hevent List.not_mem_nil
  | outside action =>
      have hnone := (quiet_outside world.store action).2
      simp only [Machine.emit, Service.machine, Service.step, service,
        hnone] at hevent
      exact absurd hevent List.not_mem_nil
  | proceed index choice =>
      simp only [Machine.emit, Machine.next, Service.machine,
        Service.step] at hevent ⊢
      cases hcall : world.calls[index]? with
      | none =>
          rw [hcall] at hevent
          exact absurd hevent List.not_mem_nil
      | some call =>
          rw [hcall] at hevent
          have hknows := hholds.knows call (List.mem_of_getElem? hcall)
          have harrived := statement_arrived env choice hholds.inv hknows
          exact harrived.attested event hevent result hresult

section

variable (env : Env) (db : Db) (acts : List (Act Request Choice Outside))

theorem holds : (verification env).Holds
    ((service env).machine.run (Service.idle (started db)) acts)
    ((service env).machine.trace (Service.idle (started db)) acts) :=
  (verification env).run (sound_started db) acts
    ((service env).admissible_free acts _)

theorem onward (first last : List (Act Request Choice Outside)) :
    Onward ((service env).machine.run (Service.idle (started db)) first).store
      ((service env).machine.run (Service.idle (started db))
        (first ++ last)).store :=
  (progress env).run (sound_started db)
    ((service env).admissible_free (first ++ last) _)

/-- An answer is made of a citation that a search has made, that is current
when the answer is given, and that has stood ever since it was made. -/
theorem answer_current (act : Act Request Choice Outside) {event : Event}
    {result : Verified}
    (hevent : event ∈ (service env).machine.emit
      ((service env).machine.run (Service.idle (started db)) acts) act)
    (hresult : event.answer? = some result) :
    ∃ citation source, result = citation.verified source ∧
      .cited citation ∈
        (service env).machine.trace (Service.idle (started db)) acts ∧
      Current ((service env).machine.run (Service.idle (started db))
        (acts ++ [act])).store citation ∧
      ∀ first last, acts = first ++ last →
        .cited citation ∈
          (service env).machine.trace (Service.idle (started db)) first →
        Stands ((service env).machine.run (Service.idle (started db))
          first).store citation.access := by
  obtain ⟨citation, source, hmade, hanswer, hcurrent⟩ :=
    answered (holds env db acts) hevent hresult
  have hlast : ((service env).machine.run (Service.idle (started db))
      (acts ++ [act])) = (service env).machine.next
        ((service env).machine.run (Service.idle (started db)) acts) act := by
    rw [Machine.run_append]
    rfl
  refine ⟨citation, source, hanswer, hmade, ?_, ?_⟩
  · rw [hlast]
    exact hcurrent
  · intro first last hacts hcited
    have hreached := (holds env db first).inv.reached citation hcited
    have hlater := onward env db first (last ++ [act])
    rw [← List.append_assoc, ← hacts, hlast] at hlater
    exact hcurrent.toStands.since hreached hlater

/-- `verifyCitation` returns text only while the directory is not revoked, the
binding is enabled with the revision the citation was made under, and the
generation and the snapshot are the current ones. -/
theorem verifyCitation_current (act : Act Request Choice Outside)
    (result : Verified)
    (hreturned : .verified result ∈ (service env).machine.emit
      ((service env).machine.run (Service.idle (started db)) acts) act) :
    ∃ citation source, result = citation.verified source ∧
      .cited citation ∈
        (service env).machine.trace (Service.idle (started db)) acts ∧
      Current ((service env).machine.run (Service.idle (started db))
        (acts ++ [act])).store citation ∧
      ∀ first last, acts = first ++ last →
        .cited citation ∈
          (service env).machine.trace (Service.idle (started db)) first →
        Stands ((service env).machine.run (Service.idle (started db))
          first).store citation.access :=
  answer_current env db acts act hreturned rfl

/-- The route sends the text only while it is so too. -/
theorem send_current (act : Act Request Choice Outside) (result : Verified)
    (hsent : .sent result ∈ (service env).machine.emit
      ((service env).machine.run (Service.idle (started db)) acts) act) :
    ∃ citation source, result = citation.verified source ∧
      .cited citation ∈
        (service env).machine.trace (Service.idle (started db)) acts ∧
      Current ((service env).machine.run (Service.idle (started db))
        (acts ++ [act])).store citation := by
  obtain ⟨citation, source, hresult, hcited, hcurrent, _⟩ :=
    answer_current env db acts act hsent rfl
  exact ⟨citation, source, hresult, hcited, hcurrent⟩

end

namespace VerifiedWitness

open AiTeam.Unicode (lit)

def env : Env := ⟨fun _ => true, ⟨id, fun _ _ => 0⟩⟩

def caller : Caller := ⟨0, "ann", some "acme", some "ann", some 100⟩

def policy : KnowledgePolicy :=
  ⟨some "allow", some [some "knowledge_search", some "knowledge_get"]⟩

def db : Db where
  directories :=
    [⟨"d1", "acme", "ann", "/docs", "docs", "inode", 1, "2026", none⟩]
  bindings := [⟨"acme", "ann", "writer", "d1", true, 1, "2026"⟩]
  experts := [⟨"acme", "ann", false, "writer", "v1", .active, none, false⟩]
  snapshots := [⟨"acme", "ann",
    ⟨"writer", "v1", "s1", none, none, some policy, none⟩⟩]
  conversations :=
    [⟨"c1", "direct", some "acme", some "ann", "read-only", some "writer"⟩]
  participants := []

def context : DirectoryExecution :=
  ⟨caller, "writer", "c1", "session", "turn", "s1", 0, "read-only", false⟩

def choice : Choice where
  now := 10
  managerNow := 10
  date := "2026"
  directoryId := "d2"
  check := .ok "granted"
  list := .ok ⟨"granted", [⟨lit "a.md", false, by decide⟩], false⟩
  read := .ok ⟨"granted", "1", lit "all is well"⟩
  consume := .error "cancelled"

/-- A search that cites a file, and a verification up to its last gate. -/
def acts : List (Act Request Choice Outside) :=
  [.outside (.registerIdentity caller 10),
    .request (.search context (lit "well") 5 false)] ++
  List.replicate 8 (.proceed 0 choice) ++
  [.request (.verifyCitation caller 1 4)] ++
  List.replicate 5 (.proceed 1 choice)

def result : Verified where
  citationId := 1
  directoryId := "d1"
  directoryDisplayName := "docs"
  conversationId := "c1"
  employeeId := "writer"
  turnId := "turn"
  title := lit "a.md"
  relativePath := lit "a.md"
  contentVersion := "1"
  snippet := lit "all is well"
  text := lit "is well"
  offset := 4
  nextOffset := none

end VerifiedWitness

open VerifiedWitness in
theorem verifyCitation_current_cited :
    ∃ citation source, result = citation.verified source ∧
      .cited citation ∈
        (service env).machine.trace (Service.idle (started db)) acts ∧
      Current ((service env).machine.run (Service.idle (started db))
        (acts ++ [.proceed 1 choice])).store citation := by
  have hreturned : .verified result ∈ (service env).machine.emit
      ((service env).machine.run (Service.idle (started db)) acts)
      (.proceed 1 choice) := by
    decide
  obtain ⟨citation, source, hresult, hcited, hcurrent, _⟩ :=
    verifyCitation_current env db acts (.proceed 1 choice) result hreturned
  exact ⟨citation, source, hresult, hcited, hcurrent⟩

open VerifiedWitness in
theorem send_current_sent :
    ∃ citation source, result = citation.verified source ∧
      .cited citation ∈ (service env).machine.trace (Service.idle (started db))
        (acts ++ [.proceed 1 choice]) ∧
      Current ((service env).machine.run (Service.idle (started db))
        (acts ++ [.proceed 1 choice] ++ [.proceed 1 choice])).store
        citation := by
  have hsend := send_current env db (acts ++ [.proceed 1 choice])
    (.proceed 1 choice) result
  exact hsend (by decide +kernel)

end AiTeam.LocalDirectory
