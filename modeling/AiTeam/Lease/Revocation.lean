/-
Revocation of runtime leases: a load that was in flight when its key was
cleared neither reaches the cache nor the calls that wait for it.
-/
import AiTeam.Lease.Cache

namespace AiTeam.Lease

variable {V : Type}

/-! ### Generations -/

theorem generationIn_bump (generations : List (String × Nat))
    (key other : String) :
    generationIn (bump generations key) other =
      if other = key then generationIn generations key + 1
      else generationIn generations other := by
  unfold generationIn bump
  rw [lookup_append]
  by_cases hother : other = key
  · subst hother
    rw [lookup_filter_eq_none]
    · simp [generationIn]
    · intro row _ hkey
      simp [hkey]
  · rw [lookup_filter_of_forall, if_neg hother, if_neg (Ne.symm hother),
      Option.or_none]
    intro row _ hkey
    simp [hkey, hother]

theorem generationIn_foldl_bump (generations : List (String × Nat))
    (keys : List String) (key : String) :
    generationIn generations key ≤
        generationIn (keys.foldl bump generations) key ∧
      (key ∈ keys → generationIn generations key <
        generationIn (keys.foldl bump generations) key) ∧
      (key ∉ keys → generationIn (keys.foldl bump generations) key =
        generationIn generations key) := by
  induction keys generalizing generations with
  | nil => exact ⟨Nat.le_refl _, fun h => (nomatch h), fun _ => rfl⟩
  | cons head tail ih =>
      obtain ⟨hle, hlt, heq⟩ := ih (bump generations head)
      have hbump := generationIn_bump generations head key
      simp only [List.foldl_cons, List.mem_cons, not_or]
      by_cases hhead : key = head
      · rw [if_pos hhead] at hbump
        rw [← hhead] at hle hbump ⊢
        exact ⟨by omega, fun _ => by omega, fun h => absurd rfl h.1⟩
      · rw [if_neg hhead] at hbump
        rw [hbump] at hle hlt heq
        refine ⟨hle, ?_, fun h => heq h.2⟩
        rintro (habsurd | hmem)
        · exact absurd habsurd hhead
        · exact hlt hmem

/-! ### How the cache changes -/

/-- Generations only grow; a pending load stays while its generation does. -/
structure Ages (before after : Cache V) : Prop where
  generation_le : ∀ key, generation before key ≤ generation after key
  pending : ∀ {key id}, (key, id) ∈ after.pending →
    (key, id) ∈ before.pending ∧ generation after key = generation before key
  dropped : ∀ {key id}, (key, id) ∈ before.pending →
    (key, id) ∈ after.pending ∨ generation before key < generation after key

theorem ages_of_eq {before after : Cache V}
    (hgenerations : after.generations = before.generations)
    (hpending : after.pending = before.pending) : Ages before after := by
  have hsame : ∀ key, generation after key = generation before key := by
    intro key
    rw [generation, hgenerations]
    rfl
  refine ⟨fun key => Nat.le_of_eq (hsame key).symm, ?_, ?_⟩
  · intro key id hmem
    exact ⟨hpending ▸ hmem, hsame key⟩
  · intro key id hmem
    exact Or.inl (hpending ▸ hmem)

theorem get_ages (cache : Cache V) (key : String) (clock : Clock) :
    Ages cache (get cache key clock).1 := by
  unfold get
  split
  · exact ages_of_eq rfl rfl
  · simp only
    split <;> exact ages_of_eq rfl rfl

theorem put_ages (config : Config) (cache : Cache V) (key : String)
    (value : V) (options : PutOptions) (clock : Clock) :
    Ages cache (put config cache key value options clock).1 := by
  unfold put
  simp only
  split <;> exact ages_of_eq rfl rfl

theorem invalidate_ages (cache : Cache V) (keys : List String) :
    Ages cache (invalidate cache keys) := by
  refine ⟨fun key => (generationIn_foldl_bump _ keys key).1, ?_, ?_⟩
  · intro key id hmem
    obtain ⟨hbefore, hkept⟩ := List.mem_filter.mp hmem
    have hnot : key ∉ keys := by simpa using hkept
    exact ⟨hbefore, (generationIn_foldl_bump _ keys key).2.2 hnot⟩
  · intro key id hmem
    by_cases hkey : key ∈ keys
    · exact Or.inr ((generationIn_foldl_bump _ keys key).2.1 hkey)
    · exact Or.inl (List.mem_filter.mpr ⟨hmem, by simpa using hkey⟩)

theorem applyClear_ages (cache : Cache V) (clear : Clear) :
    Ages cache (applyClear cache clear) := by
  cases clear <;> exact invalidate_ages cache _

theorem operationResult_ages (cache : Cache V) (load : Load V)
    (outcome : Outcome V) (clock : Clock) :
    Ages cache (operationResult cache load outcome clock).1 := by
  unfold operationResult
  split
  · exact ages_of_eq rfl rfl
  · exact invalidate_ages cache _
  · split
    · exact ages_of_eq rfl rfl
    split
    · split
      · exact ages_of_eq rfl rfl
      · have hages := get_ages cache load.request.key clock
        split <;> simp_all
    · exact ages_of_eq rfl rfl

variable {cache : Cache V} {key : String} {id : Nat} {state : State V}

/-- A covering clear moves the generation of every known key on. -/
theorem applyClear_generation_lt {clear : Clear}
    (hcovers : clear.covers key = true) (hknown : key ∈ knownKeys cache) :
    generation cache key < generation (applyClear cache clear) key := by
  cases clear with
  | clear cleared =>
      rw [show key = cleared from beq_iff_eq.mp hcovers]
      exact (generationIn_foldl_bump _ [cleared] cleared).2.1
        List.mem_cons_self
  | clearOwner scope =>
      exact (generationIn_foldl_bump _ _ key).2.1
        (List.mem_filter.mpr ⟨hknown, hcovers⟩)
  | clearAll => exact (generationIn_foldl_bump _ _ key).2.1 hknown

theorem mem_knownKeys_of_pending (h : (key, id) ∈ cache.pending) :
    key ∈ knownKeys cache := by
  rw [knownKeys, List.mem_dedup]
  exact List.mem_append_right _ (List.mem_map_of_mem h)

theorem mem_knownKeys_of_generation (h : 0 < generation cache key) :
    key ∈ knownKeys cache := by
  rw [knownKeys, List.mem_dedup]
  apply List.mem_append_left
  apply List.mem_append_right
  cases hfound : lookup Prod.fst key cache.generations with
  | none =>
      rw [generation, generationIn, hfound] at h
      exact absurd h (Nat.lt_irrefl 0)
  | some entry =>
      rw [← lookup_key hfound]
      exact List.mem_map_of_mem (lookup_mem hfound)

/-! ### The loads of a state -/

structure Inv (state : State V) : Prop where
  keyed : Keyed Load.id state.loads
  fresh : ∀ load ∈ state.loads, load.id < state.nextLoad
  pending : ∀ {key id}, (key, id) ∈ state.cache.pending →
    ∃ load, getLoad state id = some load ∧ load.request.key = key ∧
      load.generation = generation state.cache key
  /-- A load whose caller has not continued is pending or was cleared. -/
  flight : ∀ load ∈ state.loads, load.finished = false →
    (load.request.key, load.id) ∈ state.cache.pending ∨
      load.generation < generation state.cache load.request.key

theorem Inv.ages (h : Inv state) (hages : Ages state.cache cache) :
    Inv { state with cache } := by
  refine ⟨h.keyed, h.fresh, ?_, ?_⟩
  · intro key id hmem
    obtain ⟨hbefore, hsame⟩ := hages.pending hmem
    obtain ⟨load, hload, hkey, hgeneration⟩ := h.pending hbefore
    exact ⟨load, hload, hkey, hgeneration.trans hsame.symm⟩
  · intro load hload hopen
    have hle := hages.generation_le load.request.key
    rcases h.flight load hload hopen with hmem | hlt
    · rcases hages.dropped hmem with hkept | hmoved
      · exact Or.inl hkept
      · obtain ⟨found, hfound, _, hgeneration⟩ := h.pending hmem
        have hself := h.keyed load hload
        rw [show lookup Load.id load.id state.loads = some found from hfound]
          at hself
        rw [Option.some.inj hself] at hgeneration
        right
        change load.generation < generation cache load.request.key
        omega
    · exact Or.inr (Nat.lt_of_lt_of_le hlt hle)

theorem Inv.setLoad (h : Inv state) (id : Nat) (change : Load V → Load V)
    (hid : ∀ load, (change load).id = load.id)
    (hrequest : ∀ load, (change load).request = load.request)
    (hgeneration : ∀ load, (change load).generation = load.generation)
    (hopen : ∀ load ∈ state.loads, load.id = id →
      (change load).finished = false → load.finished = false) :
    Inv { state with loads := setLoad state id change } := by
  refine ⟨h.keyed.updateWhere _ _ hid, ?_, ?_, ?_⟩
  · intro load hload
    obtain ⟨old, hold, rfl⟩ := List.mem_map.mp hload
    have hlt := h.fresh old hold
    split
    · rw [hid]
      exact hlt
    · exact hlt
  · intro key other hmem
    obtain ⟨load, hload, hkey, hgen⟩ := h.pending hmem
    refine ⟨if load.id == id then change load else load, ?_, ?_, ?_⟩
    · change lookup Load.id other (Lease.setLoad state id change) = _
      rw [getLoad_setLoad state id change hid, hload]
      rfl
    · split
      · rw [hrequest]
        exact hkey
      · exact hkey
    · split
      · rw [hgeneration]
        exact hgen
      · exact hgen
  · intro load hload hfinished
    obtain ⟨old, hold, rfl⟩ := List.mem_map.mp hload
    by_cases hmatch : (old.id == id) = true
    · rw [if_pos hmatch] at hfinished ⊢
      rw [hid, hrequest, hgeneration]
      exact h.flight old hold
        (hopen old hold (beq_iff_eq.mp hmatch) hfinished)
    · rw [if_neg hmatch] at hfinished ⊢
      exact h.flight old hold hfinished

theorem Inv.detach (h : Inv state) (key : String)
    (hfinished : ∀ load ∈ state.loads, load.id = id →
      load.finished = true) :
    Inv { state with cache := detach state.cache key id } := by
  refine ⟨h.keyed, h.fresh, ?_, ?_⟩
  · intro other load hmem
    exact h.pending (List.mem_filter.mp hmem).1
  · intro load hload hopen
    rcases h.flight load hload hopen with hmem | hlt
    · refine Or.inl (List.mem_filter.mpr ⟨hmem, ?_⟩)
      have hid : load.id ≠ id := by
        intro heq
        rw [hfinished load hload heq] at hopen
        exact nomatch hopen
      simp [hid]
    · exact Or.inr hlt

theorem finishLoad_cache (config : Config) (state : State V) (load : Load V)
    (result : Except Failure V) (clock : Clock) :
    ∃ cache, Ages state.cache cache ∧
      (finishLoad config state load result clock).1 =
        { state with
          cache := detach cache load.request.key load.id,
          loads := setLoad state load.id fun load =>
            { load with finished := true } } := by
  unfold finishLoad
  simp only
  split
  · exact ⟨state.cache, ages_of_eq rfl rfl, rfl⟩
  · split
    · exact ⟨state.cache, ages_of_eq rfl rfl, rfl⟩
    · exact ⟨_, put_ages _ _ _ _ _ _, rfl⟩

theorem finishLoad_inv (config : Config) (h : Inv state) (load : Load V)
    (result : Except Failure V) (clock : Clock) :
    Inv (finishLoad config state load result clock).1 := by
  obtain ⟨cache, hages, hstate⟩ :=
    finishLoad_cache config state load result clock
  rw [hstate]
  have hmarked := (h.ages hages).setLoad load.id
    (fun load => { load with finished := true }) (fun _ => rfl)
    (fun _ => rfl) (fun _ => rfl) fun _ _ _ hopen => nomatch hopen
  apply hmarked.detach
  intro found hfound hid
  obtain ⟨old, _, rfl⟩ := List.mem_map.mp hfound
  split at hid
  · rename_i hmatch
    rw [if_pos hmatch]
  · rename_i hmatch
    exact absurd (beq_iff_eq.mpr hid) hmatch

theorem beginLoad_inv (h : Inv state) (caller : Nat) (request : Request V)
    (clock : Clock) : Inv (beginLoad state caller request clock).1 := by
  have hages := get_ages state.cache request.key clock
  unfold beginLoad
  generalize get state.cache request.key clock = result at hages ⊢
  obtain ⟨cache, cached⟩ := result
  have hgot := h.ages hages
  simp only
  split
  · exact hgot
  split
  · exact ⟨hgot.keyed, hgot.fresh, hgot.pending, hgot.flight⟩
  · rename_i hnone
    have hunused : getLoad state state.nextLoad = none := by
      rw [getLoad, lookup, List.find?_eq_none]
      intro load hload heq
      have hlt := h.fresh load hload
      simp only [decide_eq_true_eq] at heq
      omega
    refine ⟨h.keyed.append hunused, ?_, ?_, ?_⟩
    · intro load hload
      rcases List.mem_append.mp hload with hold | hnew
      · exact Nat.lt_succ_of_lt (h.fresh load hold)
      · rw [List.mem_singleton.mp hnew]
        exact Nat.lt_succ_self _
    · intro key id hmem
      change ∃ load, lookup Load.id id (state.loads ++ _) = some load ∧ _
      rw [lookup_append]
      rcases List.mem_append.mp hmem with hold | hnew
      · obtain ⟨load, hload, hkey, hgeneration⟩ := hgot.pending hold
        rw [show lookup Load.id id state.loads = some load from hload]
        exact ⟨load, rfl, hkey, hgeneration⟩
      · simp only [List.mem_singleton, Prod.mk.injEq] at hnew
        obtain ⟨rfl, rfl⟩ := hnew
        rw [show lookup Load.id state.nextLoad state.loads = none
          from hunused, if_pos rfl]
        exact ⟨_, rfl, rfl, rfl⟩
    · intro load hload hopen
      rcases List.mem_append.mp hload with hold | hnew
      · rcases hgot.flight load hold hopen with hmem | hlt
        · exact Or.inl (List.mem_append_left _ hmem)
        · exact Or.inr hlt
      · rw [List.mem_singleton.mp hnew]
        exact Or.inl (List.mem_append_right _ (List.mem_singleton.mpr rfl))

theorem step_inv (config : Config) (h : Inv state) (action : Action V) :
    Inv ((machine config).next state action) := by
  change Inv (step config state action).1
  cases action with
  | getOrLoad caller request clock => exact beginLoad_inv h caller request clock
  | settle id outcome clock =>
      simp only [step]
      split
      · rename_i load _
        split
        · exact h
        · exact (h.ages (operationResult_ages _ load outcome clock)).setLoad id
            (fun load => { load with result := some _ }) (fun _ => rfl)
            (fun _ => rfl) (fun _ => rfl) fun _ _ _ hopen => hopen
      · exact h
  | continueOwner id clock =>
      simp only [step]
      split
      · split
        · exact finishLoad_inv config h _ _ clock
        · exact h
      · exact h
  | continueJoined joined =>
      simp only [step]
      split
      · split
        · exact ⟨h.keyed, h.fresh, h.pending, h.flight⟩
        · exact h
      · exact h
  | get key clock => exact h.ages (get_ages _ key clock)
  | put key value options clock =>
      exact h.ages (put_ages config _ key value options clock)
  | clear clear => exact h.ages (applyClear_ages _ clear)

theorem initial_inv : Inv (initial : State V) :=
  ⟨Keyed.nil _, fun _ h => (nomatch h), fun h => (nomatch h),
    fun _ h => nomatch h⟩

/-! ### Single flight -/

/-- A key has one pending load at most. -/
def PendingOnce (cache : Cache V) : Prop :=
  ∀ key id other, (key, id) ∈ cache.pending → (key, other) ∈ cache.pending →
    id = other

theorem PendingOnce.ages {before after : Cache V} (h : PendingOnce before)
    (hages : Ages before after) : PendingOnce after :=
  fun key id other hid hother => h key id other (hages.pending hid).1
    (hages.pending hother).1

theorem beginLoad_once (h : PendingOnce state.cache) (caller : Nat)
    (request : Request V) (clock : Clock) :
    PendingOnce (beginLoad state caller request clock).1.cache := by
  have hgot : PendingOnce (get state.cache request.key clock).1 :=
    h.ages (get_ages state.cache request.key clock)
  unfold beginLoad
  generalize get state.cache request.key clock = result at hgot ⊢
  obtain ⟨cache, cached⟩ := result
  simp only
  split
  · exact hgot
  split
  · exact hgot
  · next hnone =>
      have hfree : ∀ {id}, (request.key, id) ∉ cache.pending := fun hid =>
        absurd (decide_eq_true rfl) (List.find?_eq_none.mp hnone _ hid)
      intro key id other hid hother
      simp only [List.mem_append, List.mem_singleton, Prod.mk.injEq]
        at hid hother
      rcases hid with hid | ⟨rfl, rfl⟩ <;> rcases hother with hother | hother
      · exact hgot _ _ _ hid hother
      · exact absurd (hother.1 ▸ hid) hfree
      · exact absurd hother hfree
      · exact hother.2.symm

theorem step_once (config : Config) (h : PendingOnce state.cache)
    (action : Action V) : PendingOnce (step config state action).1.cache := by
  cases action with
  | getOrLoad caller request clock => exact beginLoad_once h caller request clock
  | settle id outcome clock =>
      simp only [step]
      split
      · next load _ =>
          split
          · exact h
          · exact h.ages (operationResult_ages _ load outcome clock)
      · exact h
  | continueOwner id clock =>
      simp only [step]
      split
      · next load _ =>
          split
          · next result _ _ =>
              obtain ⟨cache, hages, hstate⟩ :=
                finishLoad_cache config state load result clock
              rw [hstate]
              intro key id other hid hother
              exact h.ages hages _ _ _ (List.mem_filter.mp hid).1
                (List.mem_filter.mp hother).1
          · exact h
      · exact h
  | continueJoined joined =>
      simp only [step]
      split_ifs
      · split <;> exact h
      · exact h
  | get key clock => exact h.ages (get_ages _ key clock)
  | put key value options clock =>
      exact h.ages (put_ages config _ key value options clock)
  | clear clear => exact h.ages (applyClear_ages _ clear)

/-- Two loads of one key that are under way are one, unless the key was
cleared after one of them began. -/
def SingleFlight (state : State V) : Prop :=
  ∀ load ∈ state.loads, ∀ other ∈ state.loads,
    load.request.key = other.request.key →
    load.finished = false → other.finished = false →
    load.generation = generation state.cache load.request.key →
    other.generation = generation state.cache load.request.key →
    load.id = other.id

theorem loads_single_flight (config : Config) (actions : List (Action V)) :
    SingleFlight ((machine config).run initial actions) := by
  have h := (machine config).stateInvariant
    (fun state : State V => Inv state ∧ PendingOnce state.cache)
    (fun _ action h _ =>
      ⟨step_inv config h.1 action, step_once config h.2 action⟩)
    actions ⟨initial_inv, fun _ _ _ h => nomatch h⟩
    ((machine config).admissible_true _ _)
  intro load hload other hother hkey hopen hopen' hcurrent hcurrent'
  rcases h.1.flight load hload hopen with hpending | hlt
  · rcases h.1.flight other hother hopen' with hpending' | hlt'
    · exact h.2 _ _ _ hpending (hkey ▸ hpending')
    · rw [← hkey, hcurrent'] at hlt'
      exact absurd hlt' (Nat.lt_irrefl _)
  · rw [hcurrent] at hlt
    exact absurd hlt (Nat.lt_irrefl _)

/-! ### Revoked loads -/

/-- The key of the load was cleared: it is no longer pending, and no joined
call is about to take a value from it. -/
structure Revoked (state : State V) (id : Nat) : Prop where
  cleared : ∃ load, getLoad state id = some load ∧
    load.generation < generation state.cache load.request.key ∧
    ∀ value, load.result = some (.ok value) →
      ∀ joined ∈ state.joined, joined.load ≠ id
  detached : ∀ key, (key, id) ∉ state.cache.pending

/-- The action clears the key. -/
def Clears (state : State V) (key : String) : Action V → Prop
  | .clear clear => clear.covers key = true
  -- a denied load clears its own key
  | .settle id (.failed true _) _ => ∃ load, getLoad state id = some load ∧
      load.result.isSome = false ∧ load.request.key = key
  | _ => False

/-- A call has joined the load and has not continued. -/
def Shared (state : State V) (id : Nat) : Prop :=
  ∃ joined ∈ state.joined, joined.load = id

/-- No value comes from a cleared load to joined calls: a loader that succeeds
while calls have joined it was not cleared since, and no clear covers a load
that has its value while joined calls have not continued. -/
def Exclusive (state : State V) (action : Action V) : Prop :=
  (∀ id value clock load, action = .settle id (.value value) clock →
    getLoad state id = some load → Shared state id →
    generation state.cache load.request.key = load.generation) ∧
  ∀ load ∈ state.loads, load.finished = false →
    Clears state load.request.key action →
    ∀ value, load.result = some (.ok value) → ¬ Shared state load.id

theorem Revoked.ages (h : Revoked state id) (hages : Ages state.cache cache) :
    Revoked { state with cache } id := by
  obtain ⟨⟨load, hload, hlt, hunshared⟩, hdetached⟩ := h
  refine ⟨⟨load, hload, Nat.lt_of_lt_of_le hlt (hages.generation_le _),
    hunshared⟩, ?_⟩
  intro key hmem
  exact hdetached key (hages.pending hmem).1

/-- The result of a revoked load other than a value of its loader is an
error. -/
theorem operationResult_error {load : Load V}
    (hlt : load.generation < generation cache load.request.key)
    (denial retryable : Bool) (clock : Clock) (value : V) :
    (operationResult cache load (.failed denial retryable) clock).2 ≠
      .ok value := by
  unfold operationResult
  split
  · rename_i houtcome
    exact nomatch houtcome
  · exact fun h => nomatch h
  · rw [if_pos]
    · exact fun h => nomatch h
    · simp only [bne_iff_ne]
      omega

/-- A revoked load stays revoked when results are recorded, unless it gets a
value that joined calls wait for. -/
theorem Revoked.record (h : Revoked state id) (settled : Nat)
    (result : Except Failure V)
    (hresult : id = settled → ∀ value, result = .ok value →
      ∀ joined ∈ state.joined, joined.load ≠ id) :
    Revoked { state with
      loads := setLoad state settled fun load =>
        { load with result := some result } } id := by
  obtain ⟨⟨load, hload, hlt, hunshared⟩, hdetached⟩ := h
  have hid : load.id = id := lookup_key hload
  have hfound := getLoad_setLoad state settled
    (fun load => { load with result := some result }) (fun _ => rfl) id
  rw [hload, Option.map_some] at hfound
  refine ⟨⟨_, hfound, ?_⟩, hdetached⟩
  split
  · rename_i hmatch
    refine ⟨hlt, ?_⟩
    intro value hvalue
    exact hresult (hid.symm.trans (beq_iff_eq.mp hmatch)) value
      (Option.some.inj hvalue)
  · exact ⟨hlt, hunshared⟩

theorem settle_revoked {config : Config} (h : Revoked state id) {settled : Nat}
    {outcome : Outcome V} {clock : Clock}
    (hexclusive : Exclusive state (.settle settled outcome clock)) :
    Revoked ((machine config).next state (.settle settled outcome clock))
      id := by
  change Revoked (step config state (.settle settled outcome clock)).1 id
  simp only [step]
  split
  · rename_i load hload
    split
    · exact h
    · have hages := operationResult_ages state.cache load outcome clock
      refine (h.ages hages).record settled _ ?_
      rintro rfl value hvalue joined hjoined hwaits
      obtain ⟨found, hfound, hlt, _⟩ := h.cleared
      rw [hload] at hfound
      rw [← Option.some.inj hfound] at hlt
      cases outcome with
      | value loaded =>
          have hcurrent := hexclusive.1 id loaded clock load rfl hload
            ⟨joined, hjoined, hwaits⟩
          omega
      | failed denial retryable =>
          exact operationResult_error hlt denial retryable clock value hvalue
  · exact h

theorem beginLoad_revoked (hinv : Inv state) (h : Revoked state id)
    (caller : Nat) (request : Request V) (clock : Clock) :
    Revoked (beginLoad state caller request clock).1 id := by
  have hages := get_ages state.cache request.key clock
  unfold beginLoad
  generalize get state.cache request.key clock = result at hages ⊢
  obtain ⟨cache, cached⟩ := result
  have hgot := h.ages hages
  obtain ⟨⟨load, hload, hlt, hunshared⟩, hdetached⟩ := hgot
  simp only
  split
  · exact h.ages hages
  split
  · -- a call joins a pending load, and the revoked one is not pending
    rename_i pendingKey joinedLoad hpending
    refine ⟨⟨load, hload, hlt, ?_⟩, hdetached⟩
    intro value hvalue joined hjoined
    rcases List.mem_append.mp hjoined with hold | hnew
    · exact hunshared value hvalue joined hold
    · rw [List.mem_singleton.mp hnew]
      rintro rfl
      exact hdetached _ (lookup_mem hpending)
  · have hmem : id < state.nextLoad := by
      have hfound := lookup_mem hload
      rw [← (lookup_key hload : load.id = id)]
      exact hinv.fresh load hfound
    refine ⟨⟨load, ?_, hlt, hunshared⟩, ?_⟩
    · change lookup Load.id id (state.loads ++ _) = some load
      rw [lookup_append, show lookup Load.id id state.loads = some load
        from hload]
      rfl
    · intro key hpending
      rcases List.mem_append.mp hpending with hold | hnew
      · exact hdetached key hold
      · simp only [List.mem_singleton, Prod.mk.injEq] at hnew
        omega

theorem finishLoad_revoked (config : Config) (h : Revoked state id)
    (load : Load V) (result : Except Failure V) (clock : Clock) :
    Revoked (finishLoad config state load result clock).1 id := by
  obtain ⟨cache, hages, hstate⟩ :=
    finishLoad_cache config state load result clock
  rw [hstate]
  obtain ⟨⟨revoked, hrevoked, hlt, hunshared⟩, hdetached⟩ := h.ages hages
  constructor
  · change ∃ found, lookup Load.id id (setLoad state load.id _) =
      some found ∧ _
    rw [getLoad_setLoad state load.id (fun load => { load with
      finished := true }) (fun _ => rfl), show getLoad state id =
        some revoked from hrevoked]
    refine ⟨_, rfl, ?_⟩
    dsimp only
    split
    · exact ⟨hlt, hunshared⟩
    · exact ⟨hlt, hunshared⟩
  · intro key hmem
    exact hdetached key (List.mem_filter.mp hmem).1

theorem step_revoked (config : Config) {action : Action V} (hinv : Inv state)
    (h : Revoked state id) (hexclusive : Exclusive state action) :
    Revoked ((machine config).next state action) id := by
  cases action with
  | getOrLoad caller request clock =>
      exact beginLoad_revoked hinv h caller request clock
  | settle settled outcome clock => exact settle_revoked h hexclusive
  | continueOwner other clock =>
      change Revoked (step config state (.continueOwner other clock)).1 id
      simp only [step]
      split
      · split
        · exact finishLoad_revoked config h _ _ clock
        · exact h
      · exact h
  | continueJoined joined =>
      change Revoked (step config state (.continueJoined joined)).1 id
      simp only [step]
      split
      · split
        · obtain ⟨⟨load, hload, hlt, hunshared⟩, hdetached⟩ := h
          exact ⟨⟨load, hload, hlt, fun value hvalue other hother =>
            hunshared value hvalue other (List.mem_of_mem_erase hother)⟩,
            hdetached⟩
        · exact h
      · exact h
  | get key clock => exact h.ages (get_ages _ key clock)
  | put key value options clock =>
      exact h.ages (put_ages config _ key value options clock)
  | clear clear => exact h.ages (applyClear_ages _ clear)

/-- Events that carry the value of a load to a call or to the cache. -/
def Event.delivers (id : Nat) : Event V → Bool
  | .resolved _ load _ => load == id
  | .stored load _ => load == id
  | _ => false

/-- A revoked load delivers nothing. -/
theorem Revoked.silent {config : Config} (h : Revoked state id)
    (action : Action V) :
    ∀ event ∈ (machine config).emit state action,
      event.delivers id = false := by
  obtain ⟨⟨load, hload, hlt, hunshared⟩, _⟩ := h
  change ∀ event ∈ (step config state action).2, event.delivers id = false
  intro event hevent
  cases action with
  | getOrLoad caller request clock =>
      simp only [step, beginLoad] at hevent
      split at hevent
      · rw [List.mem_singleton.mp hevent]
        rfl
      split at hevent <;> cases hevent
  | settle settled outcome clock =>
      simp only [step] at hevent
      split at hevent
      · split at hevent <;> cases hevent
      · cases hevent
  | continueOwner other clock =>
      simp only [step] at hevent
      split at hevent
      · rename_i found hfound
        have hother : found.id = other := lookup_key hfound
        split at hevent
        · unfold finishLoad at hevent
          simp only at hevent
          split at hevent
          · rw [List.mem_singleton.mp hevent]
            rfl
          split at hevent
          · rw [List.mem_singleton.mp hevent]
            rfl
          · -- only a load whose generation is current stores and resolves
            rename_i hcurrent
            have hne : found.id ≠ id := by
              intro heq
              rw [← hother, heq, hload] at hfound
              rw [← Option.some.inj hfound] at hcurrent
              simp only [bne_iff_ne, not_not] at hcurrent
              omega
            rcases List.mem_append.mp hevent with hstored | hresolved
            · split at hstored
              · rw [List.mem_singleton.mp hstored]
                simpa [Event.delivers] using hne
              · cases hstored
            · rw [List.mem_singleton.mp hresolved]
              simpa [Event.delivers] using hne
        · cases hevent
      · cases hevent
  | continueJoined joined =>
      simp only [step] at hevent
      split at hevent
      · rename_i hjoined
        split at hevent
        · rename_i result hresult
          rw [List.mem_singleton.mp hevent]
          cases result with
          | error failure => rfl
          | ok value =>
              have hne : joined.load ≠ id := by
                intro heq
                rw [heq, hload, Option.bind_some] at hresult
                exact hunshared value hresult joined
                  (List.contains_iff_mem.mp hjoined) heq
              simpa [Event.delivers] using hne
        · cases hevent
      · cases hevent
  | get key clock => cases hevent
  | put key value options clock => cases hevent
  | clear clear => cases hevent

/-! ### Clearing a load in flight -/

theorem Inv.generation_le (h : Inv state) {load : Load V}
    (hload : load ∈ state.loads) (hopen : load.finished = false) :
    load.generation ≤ generation state.cache load.request.key := by
  rcases h.flight load hload hopen with hmem | hlt
  · obtain ⟨found, hfound, _, hgeneration⟩ := h.pending hmem
    have hself := h.keyed load hload
    rw [show lookup Load.id load.id state.loads = some found from hfound]
      at hself
    rw [← Option.some.inj hself]
    exact Nat.le_of_eq (by rw [hgeneration, Option.some.inj hself])
  · exact Nat.le_of_lt hlt

theorem Inv.known (h : Inv state) {load : Load V} (hload : load ∈ state.loads)
    (hopen : load.finished = false) :
    load.request.key ∈ knownKeys state.cache := by
  rcases h.flight load hload hopen with hmem | hlt
  · exact mem_knownKeys_of_pending hmem
  · exact mem_knownKeys_of_generation (Nat.lt_of_le_of_lt (Nat.zero_le _) hlt)

/-- Moving the generation of its key on revokes a load in flight. -/
theorem Inv.revoke (h : Inv state) {load : Load V} (hload : load ∈ state.loads)
    (hopen : load.finished = false) (hages : Ages state.cache cache)
    (hlt : generation state.cache load.request.key <
      generation cache load.request.key)
    (hunshared : ∀ value, load.result = some (.ok value) →
      ¬ Shared state load.id) : Revoked { state with cache } load.id := by
  have hself := h.keyed load hload
  refine ⟨⟨load, hself, ?_, ?_⟩, ?_⟩
  · exact Nat.lt_of_le_of_lt (h.generation_le hload hopen) hlt
  · intro value hvalue joined hjoined hwaits
    exact hunshared value hvalue ⟨joined, hjoined, hwaits⟩
  · intro key hmem
    obtain ⟨hbefore, hsame⟩ := hages.pending hmem
    obtain ⟨found, hfound, hkey, _⟩ := h.pending hbefore
    rw [show lookup Load.id load.id state.loads = some found from hfound]
      at hself
    rw [← hkey, Option.some.inj hself] at hsame
    omega

/-- A clearing step revokes the loads in flight it covers. -/
theorem clears_revoked (config : Config) (h : Inv state) {load : Load V}
    (hload : load ∈ state.loads) (hopen : load.finished = false)
    {action : Action V} (hclears : Clears state load.request.key action)
    (hexclusive : Exclusive state action) :
    Revoked ((machine config).next state action) load.id := by
  have hunshared := hexclusive.2 load hload hopen hclears
  unfold Clears at hclears
  split at hclears
  · rename_i clear
    exact h.revoke hload hopen (applyClear_ages _ clear)
      (applyClear_generation_lt hclears (h.known hload hopen)) hunshared
  · rename_i id retryable clock
    obtain ⟨denied, hdenied, hpending, hkey⟩ := hclears
    change Revoked (step config state _).1 load.id
    simp only [step, hdenied, hpending, Bool.false_eq_true, ↓reduceIte,
      operationResult]
    have hlt : generation state.cache load.request.key <
        generation (clear state.cache denied.request.key)
          load.request.key := by
      rw [hkey]
      exact (generationIn_foldl_bump _ [_] _).2.1 List.mem_cons_self
    refine (h.revoke hload hopen (invalidate_ages _ _) hlt hunshared).record
      id (.error .loader) ?_
    intro _ value hvalue
    exact nomatch hvalue
  · exact hclears.elim

/-- Revocation of runtime leases is effective, in runs whose clears and
successful loaders leave no value of a cleared load to joined calls: a load in
flight when a step clears its key neither resolves a call with its value nor
puts it into the cache afterwards. -/
theorem revoked_load_delivers_nothing (config : Config)
    (before after : List (Action V)) (action : Action V) (load : Load V)
    (hload : load ∈ ((machine config).run initial before).loads)
    (hflight : load.finished = false)
    (hclears : Clears ((machine config).run initial before) load.request.key
      action)
    (hexclusive : Exclusive ((machine config).run initial before) action)
    (hafter : (machine config).Admissible Exclusive
      ((machine config).next ((machine config).run initial before) action)
      after) :
    (∀ caller value, Event.resolved caller load.id value ∉
      (machine config).trace ((machine config).next
        ((machine config).run initial before) action) after) ∧
    ∀ key, Event.stored load.id key ∉ (machine config).trace
      ((machine config).next ((machine config).run initial before) action)
      after := by
  have hinv : Inv ((machine config).run initial before) :=
    (machine config).stateInvariant Inv
      (fun _ action h _ => step_inv config h action) before initial_inv
      ((machine config).admissible_true initial before)
  have hrevoked := clears_revoked config hinv hload hflight hclears hexclusive
  have htrace := (machine config).trace_forall_from
    (fun state => Inv state ∧ Revoked state load.id)
    (fun event => event.delivers load.id = false)
    (fun state action h hallowed => ⟨step_inv config h.1 action,
      step_revoked config h.1 h.2 hallowed⟩)
    (fun state action h => h.2.silent action) after
    ⟨step_inv config hinv action, hrevoked⟩ hafter
  constructor
  · intro caller value hmem
    have hsilent := htrace _ hmem
    simp [Event.delivers] at hsilent
  · intro key hmem
    have hsilent := htrace _ hmem
    simp [Event.delivers] at hsilent

namespace RevocationWitness

def config : Config := ⟨none, none⟩

def request : Request Nat where
  key := "k"
  putOptions := fun _ loadedAt => ⟨some loadedAt, some 60000, some 60000,
    none, none⟩
  allowReuseOnFailure := true
  forceRefresh := true

/-- One call loads, and its key is cleared before the loader answers. -/
def loadRun : List (Action Nat) := [.getOrLoad 0 request ⟨1000, 0⟩]

def load : Load Nat :=
  ⟨0, request, 0, 1000, 0, none, 0, none, false⟩

def answerRun : List (Action Nat) :=
  [.settle 0 (.value 7) ⟨2000, 0⟩, .continueOwner 0 ⟨2000, 0⟩]

/-- A second call joins before the key is cleared. -/
def joinRun : List (Action Nat) :=
  loadRun ++ [.getOrLoad 1 request ⟨1000, 0⟩]

end RevocationWitness

open RevocationWitness in
theorem revoked_load_delivers_nothing_answerRun :
    (∀ caller value, Event.resolved caller 0 value ∉
      (machine config).trace ((machine config).next
        ((machine config).run initial loadRun) (.clear (.clear "k")))
        answerRun) ∧
    ∀ key, Event.stored 0 key ∉ (machine config).trace
      ((machine config).next ((machine config).run initial loadRun)
        (.clear (.clear "k"))) answerRun := by
  have hunshared : ∀ {state : State Nat} {id}, state.joined = [] →
      ¬ Shared state id := by
    rintro state id hnone ⟨joined, hjoined, _⟩
    rw [hnone] at hjoined
    exact nomatch hjoined
  refine revoked_load_delivers_nothing config loadRun answerRun
    (.clear (.clear "k")) load List.mem_cons_self rfl rfl ?_ ?_
  · exact ⟨fun _ _ _ _ h => (nomatch h), fun _ _ _ _ _ _ => hunshared rfl⟩
  · refine ⟨⟨?_, fun _ _ _ _ _ _ => hunshared rfl⟩, ⟨?_, ?_⟩, trivial⟩
    · intro id value clock found _ _ hshared
      exact absurd hshared (hunshared rfl)
    · exact fun _ _ _ _ h => nomatch h
    · exact fun _ _ _ _ _ _ => hunshared rfl

open RevocationWitness in
theorem joined_call_gets_revoked_value :
    ¬ ∀ (config : Config) (before after : List (Action Nat))
        (action : Action Nat) (load : Load Nat),
      load ∈ ((machine config).run initial before).loads →
      load.finished = false →
      Clears ((machine config).run initial before) load.request.key action →
      ∀ caller value, Event.resolved caller load.id value ∉
        (machine config).trace ((machine config).next
          ((machine config).run initial before) action) after := by
  intro h
  refine h config joinRun
    (answerRun ++ [.continueJoined ⟨1, 0⟩]) (.clear (.clear "k")) load
    List.mem_cons_self rfl rfl 1 7 ?_
  decide

end AiTeam.Lease
