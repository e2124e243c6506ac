/-
What the steps of the service keep: revisions and generations never go back,
and what an access was opened under is found again with the revision it had or
a later one.
-/
import AiTeam.LocalDirectory.Calls
import AiTeam.Revision

namespace AiTeam.LocalDirectory

open AiTeam.Attempt

/-! ### What never goes back -/

structure Onward (agent agent' : Agent) : Prop where
  directories : Advances DirectoryResource.directoryId
    DirectoryResource.revision agent.db.directories agent'.db.directories
  bindings : Advances DirectoryBinding.key DirectoryBinding.revision
    agent.db.bindings agent'.db.bindings
  generation : ∀ key,
    agent.registry.generation key ≤ agent'.registry.generation key
  drawn : agent.drawn ≤ agent'.drawn

/-- No citation is made on the way. -/
structure Quiet (agent agent' : Agent) : Prop extends
    Onward agent agent' where
  citations : ∀ citation ∈ agent'.citations, citation ∈ agent.citations

section

variable {agent agent' agent'' : Agent}

theorem Onward.refl (agent : Agent) : Onward agent agent :=
  ⟨Advances.refl _, Advances.refl _, fun _ => Nat.le_refl _, Nat.le_refl _⟩

theorem Onward.trans (h : Onward agent agent') (h' : Onward agent' agent'') :
    Onward agent agent'' :=
  ⟨h.directories.trans h'.directories, h.bindings.trans h'.bindings,
    fun key => (h.generation key).trans (h'.generation key),
    h.drawn.trans h'.drawn⟩

theorem Quiet.refl (agent : Agent) : Quiet agent agent :=
  ⟨Onward.refl agent, fun _ h => h⟩

theorem Quiet.trans (h : Quiet agent agent') (h' : Quiet agent' agent'') :
    Quiet agent agent'' :=
  ⟨h.toOnward.trans h'.toOnward,
    fun citation hmem => h.citations citation (h'.citations citation hmem)⟩

instance : IsPreorder Agent Quiet where
  refl := Quiet.refl
  trans _ _ _ := Quiet.trans

/-- Only the identities, the tasks and rows of other services differ. -/
theorem quiet_of_same (agent agent' : Agent)
    (hdirectories : agent'.db.directories = agent.db.directories)
    (hbindings : agent'.db.bindings = agent.db.bindings)
    (hgenerations : ∀ key,
      agent.registry.generation key ≤ agent'.registry.generation key)
    (hdrawn : agent.drawn ≤ agent'.drawn)
    (hcitations : agent'.citations = agent.citations) :
    Quiet agent agent' := by
  refine ⟨⟨?_, ?_, hgenerations, hdrawn⟩, ?_⟩
  · rw [hdirectories]
    exact Advances.refl _
  · rw [hbindings]
    exact Advances.refl _
  · rw [hcitations]
    exact fun _ h => h

end

/-! ### Generations -/

namespace Registry

variable (registry : Registry)

theorem generation_bump (key other : String) :
    generation registry other ≤ generation (bump registry key) other := by
  rw [bump, generation, generation, valueAt_assign]
  by_cases heq : other = key
  · rw [if_pos heq, heq]
    exact Nat.le_succ _
  · rw [if_neg heq]

theorem generation_bumps (keys : List String) (other : String) :
    generation registry other ≤
      generation (keys.foldl bump registry) other := by
  induction keys generalizing registry with
  | nil => exact Nat.le_refl _
  | cons key rest ih =>
      have hfirst := generation_bump registry key other
      exact hfirst.trans (ih (bump registry key))

theorem generation_clear (other : String) :
    generation registry other ≤ generation registry.clear other :=
  generation_bumps registry (registry.identities.map Prod.fst) other

theorem generation_register (caller : Caller) (now : Int) (other : String) :
    generation (registry.register caller now) other =
      generation registry other := by
  rw [register]
  split
  · dsimp only
    split <;> rfl
  · rfl

theorem generations_get (tenantId memberId : String) (now : Int) :
    (registry.get tenantId memberId now).2.generations =
      registry.generations := by
  rw [Registry.get]
  split
  · rfl
  · split <;> rfl

/-- An identity that is given out is registered and of the generation. -/
theorem get_some {tenantId memberId : String} {now : Int}
    {identity : ExecutionIdentity}
    (h : (registry.get tenantId memberId now).1 = some identity) :
    (registry.get tenantId memberId now).2 = registry ∧
      valueAt (key tenantId memberId) registry.identities = some identity ∧
      identity.generation = generation registry (key tenantId memberId) := by
  cases hfound : valueAt (key tenantId memberId) registry.identities with
  | none => simp [Registry.get, hfound] at h
  | some found =>
      cases hstale : stale registry (key tenantId memberId) now found with
      | true => simp [Registry.get, hfound, hstale] at h
      | false =>
          have hget : registry.get tenantId memberId now =
              (some found, registry) := by
            simp [Registry.get, hfound, hstale]
          rw [hget] at h ⊢
          obtain rfl := Option.some.inj h
          rw [stale, Bool.or_eq_false_iff] at hstale
          exact ⟨rfl, rfl, by simpa using hstale.1⟩

end Registry

/-! ### What the statements are made of -/

section

variable (env : Env) (choice : Choice)

theorem quiet_resolveIdentity (owner : DirectoryOwner) (now : Int)
    (agent : Agent) : Quiet agent (resolveIdentity owner now agent).2 := by
  refine quiet_of_same agent _ rfl rfl ?_ (Nat.le_refl _) rfl
  intro key
  rw [resolveIdentity, Registry.generation, Registry.generation,
    Registry.generations_get]

theorem quiet_invalidate (owner : DirectoryOwner)
    (id employee : Option String) (agent : Agent) :
    Quiet agent (invalidate owner id employee agent) :=
  ⟨⟨Advances.refl _, Advances.refl _, fun _ => Nat.le_refl _, Nat.le_refl _⟩,
    fun _ h => List.mem_of_mem_filter h⟩

theorem authorize_keeps (context : DirectoryExecution) (tool : Tool) :
    Keeps Quiet (authorize env choice context tool) := by
  refine Keeps.bind (Keeps.demand _ _) fun owner => ?_
  refine Keeps.bind (Keeps.modifyGet (quiet_resolveIdentity owner _)) fun identity => ?_
  exact Keeps.bind Keeps.get fun agent => Keeps.demand _ _

theorem requireRunning_keeps (task : Nat) :
    Keeps Quiet (requireRunning task) :=
  Keeps.bind Keeps.get fun _ => Keeps.require _ _

theorem checkBefore_keeps (context : DirectoryExecution)
    (resource : DirectoryResource) (bindingRevision : Nat) (tool : Tool)
    (task : Nat) :
    Keeps Quiet
      (checkBefore env choice context resource bindingRevision tool task) := by
  refine Keeps.bind (requireRunning_keeps task) fun _ => ?_
  refine Keeps.bind (authorize_keeps env choice context tool) fun _ => ?_
  refine Keeps.bind (Keeps.demand _ _) fun owner => ?_
  refine Keeps.bind Keeps.get fun agent => ?_
  exact Keeps.bind (Keeps.demand _ _) fun _ => Keeps.require _ _

theorem checkAfter_keeps (context : DirectoryExecution)
    (resource : DirectoryResource) (bindingRevision : Nat)
    (authority : Option String) (tool : Tool) (task : Nat) :
    Keeps Quiet (checkAfter env choice context resource bindingRevision
      authority tool task) := by
  refine Keeps.bind (Keeps.answer _) fun actual => ?_
  refine Keeps.bind (requireRunning_keeps task) fun _ => ?_
  refine Keeps.bind (authorize_keeps env choice context tool) fun _ => ?_
  refine Keeps.bind (Keeps.demand _ _) fun owner => ?_
  refine Keeps.bind Keeps.get fun agent => ?_
  refine Keeps.bind (Keeps.demand _ _) fun bound => ?_
  exact Keeps.bind (Keeps.require _ _) fun _ => Keeps.pure actual

theorem assertCitationCurrent_keeps (caller : Caller) (id : Nat) :
    Keeps Quiet (assertCitationCurrent env choice caller id) := by
  refine Keeps.bind (Keeps.demand _ _) fun owner => ?_
  refine Keeps.bind Keeps.get fun agent => ?_
  refine Keeps.bind (Keeps.demand _ _) fun citation => ?_
  refine Keeps.bind (Keeps.require _ _) fun _ => ?_
  refine Keeps.bind (Keeps.require _ _) fun _ => ?_
  refine Keeps.bind (authorize_keeps env choice _ _) fun _ => ?_
  refine Keeps.bind Keeps.get fun agent' => ?_
  refine Keeps.bind (Keeps.demand _ _) fun bound => ?_
  exact Keeps.bind (Keeps.require _ _) fun _ => Keeps.pure citation

theorem checkBudget_keeps (search : Search) :
    Keeps Quiet (checkBudget choice search) :=
  Keeps.bind (requireRunning_keeps _) fun _ => Keeps.pure _

theorem enter_keeps (owner : DirectoryOwner) (employee : String)
    (signalled : Bool) : Keeps Quiet (enter owner employee signalled) := by
  refine Keeps.bind (Keeps.require _ _) fun _ => ?_
  apply Keeps.modifyGet
  intro agent
  exact quiet_of_same agent _ rfl rfl (fun _ => Nat.le_refl _)
    (Nat.le_succ _) rfl

theorem touch_keeps (task : Nat) (id : String) :
    Keeps Quiet (modify (touch task id) : Step PUnit) :=
  Keeps.modify fun agent => quiet_of_same agent _ rfl rfl
    (fun _ => Nat.le_refl _) (Nat.le_refl _) rfl

theorem invalidate_keeps (owner : DirectoryOwner)
    (id employee : Option String) :
    Keeps Quiet (modify (invalidate owner id employee) : Step PUnit) :=
  Keeps.modify fun agent => quiet_invalidate owner id employee agent

/-! ### Changes of directories and bindings -/

/-- What a method of the store writes leads on. -/
def Leads (change : Db → Except String Db) : Prop :=
  ∀ db db', change db = .ok db' →
    Advances DirectoryResource.directoryId DirectoryResource.revision
      db.directories db'.directories ∧
    Advances DirectoryBinding.key DirectoryBinding.revision
      db.bindings db'.bindings

theorem write_keeps {change : Db → Except String Db} (h : Leads change) :
    Keeps Quiet (write change) := by
  intro agent
  simp only [write, outcome_bind, outcome_get]
  cases hchange : change agent.db with
  | error code => exact Quiet.refl agent
  | ok db =>
      obtain ⟨hdirectories, hbindings⟩ := h agent.db db hchange
      exact ⟨⟨hdirectories, hbindings, fun _ => Nat.le_refl _,
        Nat.le_refl _⟩, fun _ hmem => hmem⟩

theorem leads_register (owner : DirectoryOwner) (host : HostDirectory)
    (id now : String) :
    Leads fun db => LocalDirectoryStore.register db owner host id now := by
  intro db db' hwrite
  simp only [LocalDirectoryStore.register] at hwrite
  split at hwrite
  · split at hwrite
    · obtain rfl := Except.ok.inj hwrite
      exact ⟨Advances.refl _, Advances.refl _⟩
    · cases hwrite
  · split at hwrite
    · cases hwrite
    · obtain rfl := Except.ok.inj hwrite
      exact ⟨Advances.append _ _, Advances.refl _⟩

theorem leads_revoke (owner : DirectoryOwner) (id now : String) :
    Leads fun db => LocalDirectoryStore.revoke db owner id now := by
  intro db db' hwrite
  simp only [LocalDirectoryStore.revoke] at hwrite
  split at hwrite
  · exact nomatch hwrite
  · obtain rfl := Except.ok.inj hwrite
    constructor
    · exact Advances.updateWhere _ _ (fun _ => rfl) fun _ => Nat.lt_succ_self _
    · exact Advances.updateWhere _ _ (fun _ => rfl) fun _ => Nat.lt_succ_self _

/-- `bindings` finds by the primary key. -/
theorem bindingOf_bindings {db : Db} {owner : DirectoryOwner}
    {id employee : String} {rows : List DirectoryBinding}
    (h : LocalDirectoryStore.bindings db owner id = some rows) :
    LocalDirectoryStore.bindingOf rows employee =
      lookup DirectoryBinding.key ⟨owner, employee, id⟩ db.bindings := by
  rw [LocalDirectoryStore.bindings, Option.map_eq_some_iff] at h
  obtain ⟨_, _, rfl⟩ := h
  rw [LocalDirectoryStore.bindingOf, List.find?_filter, lookup]
  congr 1
  funext row
  rw [Bool.eq_iff_iff]
  simp only [Bool.and_eq_true, decide_eq_true_eq, DirectoryBinding.key,
    BindingKey.mk.injEq]
  constructor
  · rintro ⟨⟨howner, hid⟩, hemployee⟩
    exact ⟨of_decide_eq_true howner, hemployee, hid⟩
  · rintro ⟨howner, hemployee, hid⟩
    exact ⟨⟨decide_eq_true howner, hid⟩, hemployee⟩

theorem leads_bind (owner : DirectoryOwner) (id employee : String)
    (enabled : Bool) (expectedRevision : Int) (now : String) :
    Leads fun db => LocalDirectoryStore.bind db owner id employee enabled
      expectedRevision now := by
  intro db db' hwrite
  simp only [LocalDirectoryStore.bind] at hwrite
  cases hrows : LocalDirectoryStore.bindings db owner id with
  | none => simp [hrows] at hwrite
  | some rows =>
      rw [hrows] at hwrite
      simp only [bindingOf_bindings hrows] at hwrite
      split_ifs at hwrite
      · obtain rfl := Except.ok.inj hwrite
        exact ⟨Advances.refl _, Advances.refl _⟩
      · obtain rfl := Except.ok.inj hwrite
        refine ⟨Advances.refl _, Advances.upsert ?_⟩
        intro old hold
        simp only [DirectoryBinding.key] at hold
        simp only [hold, Option.map_some, Option.getD_some]
        exact Nat.lt_succ_self _

end

end AiTeam.LocalDirectory
