/-
The citations that were made and what they were made under: the invariant of
the service, and that searches keep it at every await.
-/
import AiTeam.LocalDirectory.Current

namespace AiTeam.LocalDirectory

open AiTeam.Attempt

/-! ### The invariant -/

/-- The citations that were made, and what they were made under. -/
structure Sound (agent : Agent) (past : List Event) : Prop where
  held : ∀ citation ∈ agent.citations, .cited citation ∈ past
  drawn : ∀ citation, .cited citation ∈ past → citation.id < agent.drawn
  unique : ∀ citation other, .cited citation ∈ past → .cited other ∈ past →
    citation.id = other.id → citation = other
  reached : ∀ citation, .cited citation ∈ past →
    Reached agent citation.access

def Search.access (search : Search) (resource : DirectoryResource)
    (bindingRevision : Nat) : Access :=
  search.context.access search.owner resource bindingRevision

/-- A search acts for its caller, and its candidates come from directories it
has opened. -/
structure Carries (agent : Agent) (search : Search) : Prop where
  owner : ownerOf search.context.caller = some search.owner
  candidates : ∀ candidate ∈ search.candidates, Reached agent
    (search.access candidate.resource candidate.bindingRevision)

structure Walks (agent : Agent) (walk : Walk) : Prop extends
    Carries agent walk.search where
  opened : Reached agent
    (walk.search.access walk.opened.resource walk.opened.bindingRevision)

/-- The citation that is verified was made, under the id that is asked for. -/
def Asked.Made (past : List Event) : Asked → Prop
  | .tool => True
  | .verify _ id citation => .cited citation ∈ past ∧ citation.id = id

/-- What a call knows at an await. -/
def Knows (agent : Agent) (past : List Event) : Stage → Prop
  | .openDirectory search resource bindingRevision =>
      Carries agent search ∧
        Reached agent (search.access resource bindingRevision)
  | .checkFolder walk _ | .listFolder walk _ | .checkFile walk _
  | .readFile walk _ => Walks agent walk
  | .confirm search _ _ => Carries agent search
  | .checkRead read | .readSource read | .recheckRead read _ =>
      read.asked.Made past
  | .leave _ (.read asked _) => asked.Made past
  | .assertCitation caller id citation _ =>
      (Asked.verify caller id citation).Made past
  | .send _ id result => ∃ citation source, .cited citation ∈ past ∧
      citation.id = id ∧ result = citation.verified source
  | _ => True

variable {search : Search} {walk : Walk} {stage : Stage} {citation : Citation}
  {citations : List Citation} {chosen : List Candidate}

section

variable {agent agent' : Agent} {past events : List Event}

theorem Carries.onward (h : Carries agent search)
    (honward : Onward agent agent') : Carries agent' search :=
  ⟨h.owner, fun candidate hmem => (h.candidates candidate hmem).onward honward⟩

theorem Walks.onward (h : Walks agent walk) (honward : Onward agent agent') :
    Walks agent' walk :=
  ⟨h.toCarries.onward honward, h.opened.onward honward⟩

theorem Asked.Made.append {asked : Asked} (h : asked.Made past)
    (events : List Event) : asked.Made (past ++ events) := by
  cases asked with
  | tool => trivial
  | verify caller id citation => exact ⟨List.mem_append_left _ h.1, h.2⟩

/-- What a call knows it knows later too. -/
theorem Knows.onward (h : Knows agent past stage)
    (honward : Onward agent agent') (events : List Event) :
    Knows agent' (past ++ events) stage := by
  cases stage with
  | openDirectory => exact ⟨h.1.onward honward, h.2.onward honward⟩
  | checkFolder | listFolder | checkFile | readFile =>
      exact Walks.onward h honward
  | confirm => exact Carries.onward h honward
  | checkRead | readSource | recheckRead => exact Asked.Made.append h events
  | leave task ended =>
      cases ended with
      | read asked source => exact Asked.Made.append h events
      | failed | found => trivial
  | assertCitation => exact ⟨List.mem_append_left _ h.1, h.2⟩
  | send =>
      obtain ⟨citation, source, hmade, hrest⟩ := h
      exact ⟨citation, source, List.mem_append_left _ hmade, hrest⟩
  | _ => trivial

theorem Sound.quiet (h : Sound agent past) (hquiet : Quiet agent agent') :
    Sound agent' past where
  held citation hmem := h.held citation (hquiet.citations citation hmem)
  drawn citation hmade := (h.drawn citation hmade).trans_le hquiet.drawn
  unique := h.unique
  reached citation hmade :=
    (h.reached citation hmade).onward hquiet.toOnward

/-- Events that make no citation. -/
theorem Sound.append (h : Sound agent past)
    (hnone : ∀ citation, .cited citation ∉ events) :
    Sound agent (past ++ events) := by
  have hold : ∀ citation, .cited citation ∈ past ++ events →
      .cited citation ∈ past := by
    intro citation hmem
    rcases List.mem_append.mp hmem with hmade | hnew
    · exact hmade
    · exact absurd hnew (hnone citation)
  constructor
  · intro citation hmem
    exact List.mem_append_left _ (h.held citation hmem)
  · intro citation hmade
    exact h.drawn citation (hold citation hmade)
  · intro citation other hmade hother
    exact h.unique citation other (hold citation hmade) (hold other hother)
  · intro citation hmade
    exact h.reached citation (hold citation hmade)

/-! ### Steps that are safe -/

/-- What an event answers a verification with. -/
def Event.answer? : Event → Option Verified
  | .verified result | .sent result => some result
  | _ => none

/-- The answer is made of a citation that is current. -/
def Attested (agent : Agent) (past : List Event) (result : Verified) : Prop :=
  ∃ citation source, .cited citation ∈ past ∧
    result = citation.verified source ∧ Current agent citation

/-- A step has led to an await or to the end of its call. -/
structure Arrived (past : List Event) (agent agent' : Agent) (next : Stage)
    (events : List Event) : Prop where
  sound : Sound agent' (past ++ events)
  knows : Knows agent' (past ++ events) next
  onward : Onward agent agent'
  attested : ∀ event ∈ events, ∀ result ∈ event.answer?,
    Attested agent' past result

def Landed (past : List Event) (agent : Agent) :
    Except String Progress × Agent → Prop
  | (.ok progress, agent') => Arrived past agent agent' progress.1 progress.2
  | (.error _, agent') => Sound agent' past ∧ Onward agent agent'

def Safe (past : List Event) (agent : Agent) (x : Step Progress) : Prop :=
  Landed past agent (x.outcome agent)

theorem safe_pure (hsound : Sound agent past) (hknows : Knows agent past stage)
    (hnone : ∀ citation, .cited citation ∉ events)
    (hattested : ∀ event ∈ events, ∀ result ∈ event.answer?,
      Attested agent past result) : Safe past agent (pure (stage, events)) :=
  Arrived.mk (hsound.append hnone)
    (hknows.onward (Onward.refl agent) events) (Onward.refl agent) hattested

theorem safe_go (hsound : Sound agent past) (hknows : Knows agent past stage) :
    Safe past agent (go stage) :=
  safe_pure hsound hknows (fun _ => List.not_mem_nil)
    fun _ hmem => absurd hmem List.not_mem_nil

theorem safe_throw (hsound : Sound agent past) (code : String) :
    Safe past agent (throw code) :=
  ⟨hsound, Onward.refl agent⟩

theorem safe_tracked {x : Step Progress} (h : Safe past agent x)
    (task : Nat) : Safe past agent (tracked task x) := by
  rw [Safe, tracked, outcome_recover]
  rw [Safe] at h
  rcases hx : x.outcome agent with ⟨result, agent'⟩
  rw [hx] at h
  cases result with
  | ok progress => exact h
  | error code =>
      have hsound : Sound agent' (past ++ []) := by
        rw [List.append_nil]
        exact h.1
      exact Arrived.mk hsound trivial h.2
        fun _ hmem => absurd hmem List.not_mem_nil

theorem Landed.after {middle : Agent} {result : Except String Progress × Agent}
    (h : Landed past middle result) (honward : Onward agent middle) :
    Landed past agent result := by
  rcases result with ⟨code | progress, last⟩
  · exact And.intro h.1 (honward.trans h.2)
  · exact Arrived.mk (Arrived.sound h) (Arrived.knows h)
      (honward.trans (Arrived.onward h)) (Arrived.attested h)

/-- A quiet computation before a step. -/
theorem safe_bind {α : Type} {x : Step α} {f : α → Step Progress}
    (hsound : Sound agent past) (hx : Keeps Quiet x)
    (hf : ∀ a agent', Gives x agent a agent' → Quiet agent agent' →
      Sound agent' past → Safe past agent' (f a)) :
    Safe past agent (x >>= f) := by
  have hquiet := hx agent
  rw [Safe, outcome_bind]
  rcases h : x.outcome agent with ⟨result, middle⟩
  rw [h] at hquiet
  have hmiddle := hsound.quiet hquiet
  cases result with
  | error code => exact And.intro hmiddle hquiet.toOnward
  | ok a => exact (hf a middle h hquiet hmiddle).after hquiet.toOnward

/-! ### Citations are made -/

theorem mem_withinOutput {bytes : Nat} {candidates : List Candidate}
    {candidate : Candidate} (h : candidate ∈ withinOutput bytes candidates) :
    candidate ∈ candidates := by
  induction candidates generalizing bytes with
  | nil => exact h
  | cons first rest ih =>
      rw [withinOutput] at h
      split at h
      · exact absurd h List.not_mem_nil
      · rcases List.mem_cons.mp h with rfl | hrest
        · exact List.mem_cons_self
        · exact List.mem_cons_of_mem first (ih hrest)

theorem mem_prune {now : Int} (h : citation ∈ prune now citations) :
    citation ∈ citations := by
  simp only [prune] at h
  exact List.mem_of_mem_filter (List.mem_of_mem_drop h)

theorem mem_setCitations (now : Int) {made : List Citation}
    (h : citation ∈ made.foldl (setCitation now) citations) :
    citation ∈ citations ∨ citation ∈ made := by
  induction made generalizing citations with
  | nil => exact Or.inl h
  | cons first rest ih =>
      rw [List.foldl_cons] at h
      rcases ih h with hset | hrest
      · rw [setCitation, List.mem_append] at hset
        rcases hset with hkept | hfirst
        · exact Or.inl (mem_prune hkept)
        · right
          rw [List.mem_singleton.mp hfirst]
          exact List.mem_cons_self
      · exact Or.inr (List.mem_cons_of_mem first hrest)

/-- The citations a search makes of its candidates. -/
def citationsOf (choice : Choice) (search : Search) (drawn : Nat)
    (chosen : List Candidate) : List Citation :=
  chosen.zipIdx.map fun item => cite choice search item.1 (drawn + item.2)

theorem mem_citationsOf {choice : Choice} {drawn : Nat}
    (h : citation ∈ citationsOf choice search drawn chosen) :
    ∃ candidate place, chosen[place]? = some candidate ∧
      citation = cite choice search candidate (drawn + place) := by
  obtain ⟨⟨candidate, place⟩, hitem, rfl⟩ := List.mem_map.mp h
  exact ⟨candidate, place, List.mem_zipIdx_iff_getElem?.mp hitem, rfl⟩

theorem cited_split {choice : Choice} {drawn : Nat}
    (h : .cited citation ∈
      past ++ (citationsOf choice search drawn chosen).map Event.cited) :
    .cited citation ∈ past ∨ ∃ candidate place,
      chosen[place]? = some candidate ∧
      citation = cite choice search candidate (drawn + place) := by
  rcases List.mem_append.mp h with hold | hnew
  · exact Or.inl hold
  · obtain ⟨made, hmade, heq⟩ := List.mem_map.mp hnew
    rw [← Event.cited.inj heq]
    exact Or.inr (mem_citationsOf hmade)

theorem Sound.cite (h : Sound agent past) (choice : Choice)
    (hcarries : Carries agent search)
    (hchosen : ∀ candidate ∈ chosen, candidate ∈ search.candidates)
    (hcitations : ∀ citation ∈ citations, citation ∈ agent.citations ∨
      citation ∈ citationsOf choice search agent.drawn chosen) :
    Sound { agent with
        citations := citations
        drawn := agent.drawn + chosen.length }
      (past ++ (citationsOf choice search agent.drawn chosen).map
        Event.cited) := by
  constructor
  · intro citation hmem
    rcases hcitations citation hmem with hold | hnew
    · exact List.mem_append_left _ (h.held citation hold)
    · exact List.mem_append_right _ (List.mem_map_of_mem hnew)
  · intro citation hmade
    rcases cited_split hmade with hold | ⟨candidate, place, hplace, rfl⟩
    · exact Nat.lt_add_right _ (h.drawn citation hold)
    · have hbound := (List.getElem?_eq_some_iff.mp hplace).1
      exact Nat.add_lt_add_left hbound agent.drawn
  · intro citation other hmade hother hid
    rcases cited_split hmade with hold | ⟨candidate, place, hplace, rfl⟩
    · rcases cited_split hother with hold' | ⟨candidate, place, hplace, rfl⟩
      · exact h.unique citation other hold hold' hid
      · have hless := h.drawn citation hold
        rw [hid] at hless
        exact absurd hless (Nat.not_lt.mpr (Nat.le_add_right _ _))
    · rcases cited_split hother with hold' | ⟨another, place', hplace', rfl⟩
      · have hless := h.drawn other hold'
        rw [← hid] at hless
        exact absurd hless (Nat.not_lt.mpr (Nat.le_add_right _ _))
      · obtain rfl := Nat.add_left_cancel hid
        rw [hplace] at hplace'
        rw [Option.some.inj hplace']
  · intro citation hmade
    have honward : Onward agent { agent with
        citations := citations
        drawn := agent.drawn + chosen.length } :=
      ⟨Advances.refl _, Advances.refl _, fun _ => Nat.le_refl _,
        Nat.le_add_right _ _⟩
    rcases cited_split hmade with hold | ⟨candidate, place, hplace, rfl⟩
    · exact (h.reached citation hold).onward honward
    · have hmem := hchosen candidate (List.mem_of_getElem? hplace)
      exact (hcarries.candidates candidate hmem).onward honward

section

variable {env : Env} {choice : Choice}

theorem safe_deliver (hsound : Sound agent past)
    (hcarries : Carries agent search) :
    Safe past agent (deliver choice search) := by
  apply safe_bind hsound (requireRunning_keeps search.task)
  intro _ middle hrunning _ _
  obtain rfl := requireRunning_gives hrunning
  have hchosen : ∀ candidate ∈ withinOutput 0 search.candidates,
      candidate ∈ search.candidates := fun _ => mem_withinOutput
  have hmade := hsound.cite choice hcarries hchosen
    fun _ => mem_setCitations choice.now
  refine Arrived.mk hmade trivial ?_ ?_
  · exact ⟨Advances.refl _, Advances.refl _, fun _ => Nat.le_refl _,
      Nat.le_add_right _ _⟩
  · intro event hevent result hresult
    obtain ⟨citation, _, rfl⟩ := List.mem_map.mp hevent
    exact nomatch hresult

/-! ### Searches -/

theorem checkSearch_gives {resource : DirectoryResource}
    {bindingRevision : Nat} {a : PUnit}
    (howner : ownerOf search.context.caller = some search.owner)
    (h : Gives (checkSearch env choice search resource bindingRevision) agent
      a agent') :
    agent' = agent ∧
      Reached agent (search.access resource bindingRevision) := by
  obtain ⟨hsame, result, hresult, hstands⟩ := checkBefore_gives h
  obtain rfl := Option.some.inj (howner.symm.trans hresult)
  exact ⟨hsame, hstands.reached⟩

theorem checkSearch_keeps (search : Search) (resource : DirectoryResource)
    (bindingRevision : Nat) :
    Keeps Quiet (checkSearch env choice search resource bindingRevision) :=
  checkBefore_keeps env choice _ _ _ _ _

theorem safe_confirmNext (hsound : Sound agent past)
    (hcarries : Carries agent search) (items : List Opened) :
    Safe past agent (confirmNext env choice search items) := by
  cases items with
  | nil => exact safe_deliver hsound hcarries
  | cons item rest =>
      apply safe_bind hsound (checkSearch_keeps _ _ _)
      intro _ later _ hquiet hlater
      exact safe_go hlater (hcarries.onward hquiet.toOnward)

theorem safe_nextResource (hsound : Sound agent past)
    (hcarries : Carries agent search) (resources : List DirectoryResource) :
    Safe past agent (nextResource env choice search resources) := by
  induction resources with
  | nil =>
      apply safe_bind hsound (Keeps.require _ _)
      intro _ later _ hquiet hlater
      exact safe_confirmNext hlater (hcarries.onward hquiet.toOnward) _
  | cons resource rest ih =>
      rw [nextResource]
      apply safe_bind hsound Keeps.get
      intro _ later hget _ _
      obtain ⟨rfl, rfl⟩ := gives_get.mp hget
      apply safe_bind hsound (Keeps.demand _ _)
      intro rows same hrows _ _
      obtain ⟨_, rfl⟩ := gives_demand.mp hrows
      split
      · exact ih
      · next binding _ =>
          apply safe_bind hsound (touch_keeps _ _)
          intro _ touched _ htouched hsound'
          apply safe_bind hsound' (checkSearch_keeps _ _ _)
          intro _ last hchecked hlast hsound''
          obtain ⟨rfl, hreached⟩ := checkSearch_gives hcarries.owner hchecked
          have hlater := hcarries.onward htouched.toOnward
          exact safe_go hsound'' ⟨⟨hlater.owner, hlater.candidates⟩, hreached⟩

theorem safe_nextFolder (hsound : Sound agent past) (hwalks : Walks agent walk)
    : Safe past agent (nextFolder env choice walk) := by
  rw [nextFolder]
  split
  · exact safe_nextResource hsound hwalks.toCarries _
  · apply safe_bind hsound (checkBudget_keeps choice walk.search)
    intro within later _ hquiet hlater
    have hstill := hwalks.onward hquiet.toOnward
    split
    · apply safe_bind hlater (checkSearch_keeps _ _ _)
      intro _ last _ hlast hsound'
      have hknown := hstill.onward hlast.toOnward
      exact safe_go hsound' ⟨hknown.toCarries, hknown.opened⟩
    · have hcarries : Carries later { walk.search with isPartial := true } :=
        ⟨hstill.owner, hstill.candidates⟩
      exact safe_nextResource hlater hcarries _

/-- Neither the coverage nor the queue says what was opened. -/
theorem Walks.changed {walk' : Walk} (h : Walks agent walk)
    (hcontext : walk'.search.context = walk.search.context)
    (howner : walk'.search.owner = walk.search.owner)
    (hcandidates : walk'.search.candidates = walk.search.candidates)
    (hopened : walk'.opened = walk.opened) : Walks agent walk' := by
  constructor
  · constructor
    · rw [hcontext, howner]
      exact h.owner
    · intro candidate hmem
      rw [hcandidates] at hmem
      rw [Search.access, hcontext, howner]
      exact h.candidates candidate hmem
  · rw [Search.access, hcontext, howner, hopened]
    exact h.opened

theorem safe_nextEntry (hsound : Sound agent past) (hwalks : Walks agent walk)
    (directory : Unicode.Text) (entries : List Entry) :
    Safe past agent (nextEntry env choice directory walk entries) := by
  induction entries generalizing walk agent with
  | nil => exact safe_nextFolder hsound hwalks
  | cons entry rest ih =>
      rw [nextEntry]
      apply safe_bind hsound (checkBudget_keeps choice walk.search)
      intro within later _ hquiet hlater
      have hstill := hwalks.onward hquiet.toOnward
      split
      · dsimp only
        split
        · exact ih hlater (hstill.changed rfl rfl rfl rfl)
        · split
          · apply safe_bind hlater (checkSearch_keeps _ _ _)
            intro _ last _ hlast hsound'
            exact safe_go hsound'
              ((hstill.onward hlast.toOnward).changed rfl rfl rfl rfl)
          · exact ih hlater (hstill.changed rfl rfl rfl rfl)
      · exact safe_nextFolder hlater (hstill.changed rfl rfl rfl rfl)

theorem Walks.addHit (h : Walks agent walk) (file : File) (source : Source)
    (located : Located) :
    Walks agent (walk.addHit env file source located) := by
  refine ⟨⟨h.owner, ?_⟩, h.opened⟩
  intro candidate hmem
  simp only [Walk.addHit, addCandidate] at hmem
  have hsorted := List.mem_of_mem_take hmem
  rw [List.mem_insertionSort, List.mem_append] at hsorted
  rcases hsorted with hold | hnew
  · exact h.candidates candidate hold
  · rw [List.mem_singleton.mp hnew]
    exact h.opened

theorem safe_examine (hsound : Sound agent past) (hwalks : Walks agent walk)
    (file : File) (source : Source) :
    Safe past agent (examine env choice walk file source) := by
  apply safe_bind hsound (Keeps.require _ _)
  intro _ later _ hquiet hlater
  have hstill := hwalks.onward hquiet.toOnward
  have hcovered : Walks later (walk.cover (examineFile source.text)) :=
    hstill.changed rfl rfl rfl rfl
  dsimp only
  split
  · exact safe_nextFolder hlater (hstill.changed rfl rfl rfl rfl)
  · split
    · exact safe_nextEntry hlater hcovered _ _
    · exact safe_nextEntry hlater (hcovered.addHit file source _) _ _

theorem safe_startSearch (hsound : Sound agent past)
    (context : DirectoryExecution) (query : Unicode.Text) (limit : Int)
    (signalled : Bool) :
    Safe past agent
      (startSearch env choice context query limit signalled) := by
  apply safe_bind hsound (authorize_keeps env choice context .search)
  intro _ _ _ _ hsound
  apply safe_bind hsound (Keeps.require _ _)
  intro _ _ _ _ hsound
  apply safe_bind hsound (Keeps.demand _ _)
  intro result _ hdemand _ hsound
  have howner := ownerOf_of_owner (gives_demand.mp hdemand).1
  apply safe_bind hsound (enter_keeps _ _ _)
  intro task _ _ _ hsound
  apply safe_bind hsound Keeps.get
  intro _ later _ _ hsound
  apply safe_tracked
  apply safe_nextResource hsound
  exact ⟨howner, fun _ hmem => absurd hmem List.not_mem_nil⟩

end

end

end AiTeam.LocalDirectory
