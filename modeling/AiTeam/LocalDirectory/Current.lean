/-
What the checks of the service find: an access that stands as it was opened,
and a citation that is current.
-/
import AiTeam.LocalDirectory.Onward

namespace AiTeam.LocalDirectory

open AiTeam.Attempt

/-! ### Accesses -/

/-- Who opened which directory, and under which revisions. -/
structure Access where
  owner : DirectoryOwner
  employeeId : String
  generation : Nat
  resource : DirectoryResource
  bindingRevision : Nat

def Access.binding (access : Access) : BindingKey :=
  ⟨access.owner, access.employeeId, access.resource.directoryId⟩

def Access.identity (access : Access) : String :=
  Registry.key access.owner.tenantId access.owner.memberId

def DirectoryExecution.access (context : DirectoryExecution)
    (owner : DirectoryOwner) (resource : DirectoryResource)
    (bindingRevision : Nat) : Access :=
  ⟨owner, context.employeeId, context.generation, resource, bindingRevision⟩

def Citation.access (citation : Citation) : Access :=
  citation.context.access citation.owner citation.resource
    citation.bindingRevision

/-- The directory is not revoked and has the revision, the binding is enabled
with its revision, and the generation is the current one. -/
structure Stands (agent : Agent) (access : Access) : Prop where
  directory : ∃ row, lookup DirectoryResource.directoryId
      access.resource.directoryId agent.db.directories = some row ∧
    row.owner = access.owner ∧ row.revokedAt = none ∧
    row.revision = access.resource.revision
  binding : ∃ row, lookup DirectoryBinding.key access.binding
      agent.db.bindings = some row ∧
    row.enabled = true ∧ row.revision = access.bindingRevision
  generation : agent.registry.generation access.identity = access.generation

/-- The citation stands, the identity of its owner is registered, and the
snapshot it was made with is the employee's and still allows reading. -/
structure Current (agent : Agent) (citation : Citation) : Prop extends
    Stands agent citation.access where
  identity : ∃ identity, valueAt citation.access.identity
      agent.registry.identities = some identity ∧
    identity.generation = citation.context.generation
  snapshot : ∃ snapshot, employee agent.db citation.owner
      citation.context.employeeId = some snapshot ∧
    snapshot.snapshotVersion = citation.context.snapshotVersion ∧
    Tool.read ∈ localDirectoryTools snapshot

/-- The revisions and the generation have been there. -/
structure Reached (agent : Agent) (access : Access) : Prop where
  directory : ∃ row, lookup DirectoryResource.directoryId
      access.resource.directoryId agent.db.directories = some row ∧
    access.resource.revision ≤ row.revision
  binding : ∃ row, lookup DirectoryBinding.key access.binding
      agent.db.bindings = some row ∧
    access.bindingRevision ≤ row.revision
  generation : access.generation ≤ agent.registry.generation access.identity

section

variable {agent agent' : Agent} {access : Access}

theorem Stands.reached (h : Stands agent access) : Reached agent access := by
  obtain ⟨row, hrow, _, _, hrevision⟩ := h.directory
  obtain ⟨binding, hbinding, _, hrevision'⟩ := h.binding
  exact ⟨⟨row, hrow, hrevision.ge⟩, ⟨binding, hbinding, hrevision'.ge⟩,
    h.generation.ge⟩

theorem advanced {R : Type} {K : Type} [DecidableEq K] {key : R → K}
    {revision : R → Nat} {rows rows' : List R} {k : K} {least : Nat}
    (h : Advances key revision rows rows')
    (hrow : ∃ row, lookup key k rows = some row ∧ least ≤ revision row) :
    ∃ row, lookup key k rows' = some row ∧ least ≤ revision row := by
  obtain ⟨row, hrow, hleast⟩ := hrow
  obtain ⟨row', hrow', hchange⟩ := h k row hrow
  refine ⟨row', hrow', ?_⟩
  rcases hchange with rfl | hless
  · exact hleast
  · omega

theorem Reached.onward (h : Reached agent access)
    (honward : Onward agent agent') : Reached agent' access :=
  ⟨advanced honward.directories h.directory,
    advanced honward.bindings h.binding,
    h.generation.trans (honward.generation access.identity)⟩

/-- What has been there and stands later has stood since. -/
theorem Stands.since (hreached : Reached agent access)
    (honward : Onward agent agent') (h : Stands agent' access) :
    Stands agent access := by
  obtain ⟨row, hrow, howner, hlive, hrevision⟩ := h.directory
  obtain ⟨binding, hbinding, henabled, hrevision'⟩ := h.binding
  constructor
  · have hsame := honward.directories.unchanged hrow hrevision
      hreached.directory
    exact ⟨row, hsame, howner, hlive, hrevision⟩
  · have hsame := honward.bindings.unchanged hbinding hrevision'
      hreached.binding
    exact ⟨binding, hsame, henabled, hrevision'⟩
  · have hlater := honward.generation access.identity
    have hnow := h.generation
    have hleast := hreached.generation
    omega

end

/-! ### What the checks find -/

variable {caller : Caller} {context : DirectoryExecution} {tool : Tool}
  {resource : DirectoryResource}

section

variable {env : Env} {choice : Choice} {agent agent' : Agent}

/-- The owner a caller acts for. -/
def ownerOf (caller : Caller) : Option DirectoryOwner :=
  (Registry.filled caller.tenantId).bind fun tenantId =>
    (Registry.filled caller.userId).map fun memberId => ⟨tenantId, memberId⟩

theorem ownerOf_of_owner {now : Int} {result : DirectoryOwner}
    (h : owner env now caller = some result) :
    ownerOf caller = some result := by
  rw [owner] at h
  split at h
  · next htenant hmember _ =>
      split_ifs at h
      rw [ownerOf, htenant, hmember]
      exact h
  · exact nomatch h

theorem permitted_some {db : Db} {owner : DirectoryOwner}
    {identity : Option ExecutionIdentity} {snapshot : FrozenSnapshot}
    (h : permitted env db owner context tool identity = some snapshot) :
    isCurrentIdentity env context identity = true ∧
      employee db owner context.employeeId = some snapshot ∧
      snapshot.snapshotVersion = context.snapshotVersion ∧
      tool ∈ localDirectoryTools snapshot := by
  rw [permitted] at h
  split_ifs at h with hallowed
  rw [Option.filter_eq_some_iff] at h
  simp only [Bool.and_eq_true, decide_eq_true_eq,
    List.contains_iff_mem] at h hallowed
  exact ⟨hallowed.1.1.1, h.1, h.2.1, h.2.2⟩

/-- What `authorize` has found when it returns. -/
structure Authorized (agent : Agent) (owner : DirectoryOwner)
    (context : DirectoryExecution) (tool : Tool) : Prop where
  generation : agent.registry.generation
    (Registry.key owner.tenantId owner.memberId) = context.generation
  identity : ∃ identity, valueAt
      (Registry.key owner.tenantId owner.memberId)
      agent.registry.identities = some identity ∧
    identity.generation = context.generation
  snapshot : ∃ snapshot, employee agent.db owner context.employeeId =
      some snapshot ∧
    snapshot.snapshotVersion = context.snapshotVersion ∧
    tool ∈ localDirectoryTools snapshot

/-- An identity that is given out leaves the registry as it was. -/
theorem resolveIdentity_some {owner : DirectoryOwner} {now : Int}
    {identity : ExecutionIdentity}
    (h : (resolveIdentity owner now agent).1 = some identity) :
    (resolveIdentity owner now agent).2 = agent ∧
      valueAt (Registry.key owner.tenantId owner.memberId)
        agent.registry.identities = some identity ∧
      identity.generation = agent.registry.generation
        (Registry.key owner.tenantId owner.memberId) := by
  rw [resolveIdentity] at h ⊢
  obtain ⟨hregistry, hidentity⟩ := Registry.get_some agent.registry h
  refine ⟨?_, hidentity⟩
  simp only [hregistry]

theorem authorize_gives {snapshot : FrozenSnapshot}
    (h : Gives (authorize env choice context tool) agent snapshot agent') :
    agent' = agent ∧ ∃ result,
      owner env choice.now context.caller = some result ∧
        Authorized agent result context tool := by
  simp only [authorize, gives_bind, gives_demand, gives_modifyGet,
    gives_get] at h
  obtain ⟨result, first, ⟨howner, rfl⟩, _, _, ⟨rfl, rfl⟩, _, _, ⟨rfl, rfl⟩,
    hpermitted, rfl⟩ := h
  obtain ⟨hcurrent, hsnapshot⟩ := permitted_some hpermitted
  cases hfound : (resolveIdentity result choice.managerNow first).1 with
  | none => simp [hfound, isCurrentIdentity] at hcurrent
  | some identity =>
      obtain ⟨hsame, hidentity, hgeneration⟩ := resolveIdentity_some hfound
      rw [hfound, isCurrentIdentity, Option.any_some, Bool.and_eq_true,
        decide_eq_true_eq] at hcurrent
      rw [hsame] at hsnapshot ⊢
      refine ⟨rfl, result, howner, ?_, ⟨identity, hidentity, hcurrent.1⟩,
        ⟨snapshot, hsnapshot⟩⟩
      exact hgeneration.symm.trans hcurrent.1

/-- Of the caller only the owner matters. -/
theorem Authorized.stored {owner : DirectoryOwner}
    (h : Authorized agent owner { context with caller := caller } tool) :
    Authorized agent owner context tool :=
  ⟨h.generation, h.identity, h.snapshot⟩

theorem boundTo_some {db : Db} {owner : DirectoryOwner} {id employee : String}
    {binding : DirectoryBinding}
    (h : boundTo db owner id employee = some (resource, binding)) :
    (lookup DirectoryResource.directoryId id db.directories = some resource ∧
      resource.owner = owner ∧ resource.revokedAt = none) ∧
      lookup DirectoryBinding.key ⟨owner, employee, id⟩ db.bindings =
        some binding := by
  rw [boundTo, Option.bind_eq_some_iff] at h
  obtain ⟨row, hrow, hrest⟩ := h
  rw [Option.map_eq_some_iff] at hrest
  obtain ⟨found, hfound, hpair⟩ := hrest
  obtain ⟨rfl, rfl⟩ := Prod.mk.inj hpair
  rw [Option.bind_eq_some_iff] at hfound
  obtain ⟨rows, hrows, hbinding⟩ := hfound
  rw [bindingOf_bindings hrows] at hbinding
  rw [LocalDirectoryStore.get, Option.filter_eq_some_iff] at hrow
  simp only [Bool.and_eq_true, decide_eq_true_eq, Option.isNone_iff_eq_none]
    at hrow
  exact ⟨⟨hrow.1, hrow.2.1, hrow.2.2⟩, hbinding⟩

/-- The last checks of an access, from what they have read. -/
theorem stands_of_boundTo {owner : DirectoryOwner}
    {current : DirectoryResource} {binding : DirectoryBinding}
    {bindingRevision : Nat} (hauthorized : Authorized agent owner context tool)
    (hbound : boundTo agent.db owner resource.directoryId context.employeeId =
      some (current, binding))
    (hchecked : current.revision = resource.revision ∧
      binding.enabled = true ∧ binding.revision = bindingRevision) :
    Stands agent (context.access owner resource bindingRevision) := by
  obtain ⟨⟨hcurrent, howner, hlive⟩, hbinding⟩ := boundTo_some hbound
  constructor
  · exact ⟨current, hcurrent, howner, hlive, hchecked.1⟩
  · exact ⟨binding, hbinding, hchecked.2⟩
  · exact hauthorized.generation

theorem requireRunning_gives {task : Nat} {a : PUnit}
    (h : Gives (requireRunning task) agent a agent') : agent' = agent := by
  simp only [requireRunning, gives_bind, gives_get, gives_require] at h
  obtain ⟨_, _, ⟨rfl, rfl⟩, _, rfl⟩ := h
  rfl

theorem checkBefore_gives {bindingRevision task : Nat} {a : PUnit}
    (h : Gives (checkBefore env choice context resource bindingRevision tool
      task) agent a agent') :
    agent' = agent ∧ ∃ result, ownerOf context.caller = some result ∧
      Stands agent (context.access result resource bindingRevision) := by
  simp only [checkBefore, gives_bind, gives_demand, gives_get,
    gives_require] at h
  obtain ⟨_, _, hrunning, _, _, hauthorize, result, _, ⟨howner, rfl⟩, _, _,
    ⟨rfl, rfl⟩, ⟨current, binding⟩, _, ⟨hbound, rfl⟩, hchecked, rfl⟩ := h
  obtain rfl := requireRunning_gives hrunning
  obtain ⟨rfl, result', howner', hauthorized⟩ := authorize_gives hauthorize
  obtain rfl := Option.some.inj (howner'.symm.trans howner)
  exact ⟨rfl, result', ownerOf_of_owner howner,
    stands_of_boundTo hauthorized hbound hchecked⟩

/-- The final gate: a citation it lets through is registered and current. -/
theorem assertCitationCurrent_gives {id : Nat} {citation : Citation}
    (h : Gives (assertCitationCurrent env choice caller id) agent citation
      agent') :
    agent' = agent ∧ citation ∈ agent.citations ∧ citation.id = id ∧
      ownerOf caller = some citation.owner ∧ Current agent citation := by
  simp only [assertCitationCurrent, gives_bind, gives_demand, gives_get,
    gives_require, gives_pure] at h
  obtain ⟨result, _, ⟨howner, rfl⟩, _, _, ⟨rfl, rfl⟩, found, _,
    ⟨hfound, rfl⟩, _, _, ⟨_, rfl⟩, _, _, ⟨hsame, rfl⟩, _, _, hauthorize, _, _,
    ⟨rfl, rfl⟩, ⟨current, binding⟩, _, ⟨hbound, rfl⟩, _, _, ⟨hchecked, rfl⟩,
    rfl, rfl⟩ := h
  obtain ⟨rfl, result', howner', hauthorized⟩ := authorize_gives hauthorize
  obtain rfl := Option.some.inj (howner'.symm.trans howner)
  subst hsame
  have hstored := hauthorized.stored
  exact ⟨rfl, lookup_mem hfound, lookup_key hfound, ownerOf_of_owner howner,
    stands_of_boundTo hstored hbound hchecked, hstored.identity,
    hstored.snapshot⟩

end

end AiTeam.LocalDirectory
