/-
Rotation keeps the sessions: along every run whose rotations leave their old
keys in time, every live token verifies, one key of a tenant is current and
new tokens carry the newest key.
-/
import AiTeam.Interleaving
import AiTeam.SigningKey.Keys

namespace AiTeam.SigningKey

/-! ### The law -/

/-- The token is verified with the tenant's key set and with the key that its
`kid` resolves to. -/
def Verifies (db : Database) (state : State) (token : Token) : Prop :=
  (token.kid, token.signedWith) ∈
      activePublicRows db state.rows token.tenantId state.now ∧
    resolvedPublicKeyForKid db state.rows token.kid state.now =
      some (token.tenantId, token.signedWith)

def Goal.running (goal : Goal) (tenantId : Text) (call : Call) : Prop :=
  call.goal = goal ∧ call.tenantId = tenantId ∧ call.stage ≠ .returned ∧
    call.stage ≠ .failed

/-- Signing-key rotation as it is promised, for a state and the events that led
to it. -/
structure RotationLaw (db : Database) (state : State)
    (past : List Event) : Prop where
  verifies : ∀ token, .issued token ∈ past → token.jti ∉ state.revoked →
    state.now < token.exp * second → Verifies db state token
  oneCurrent : ∀ tenantId, keysOf state.rows tenantId ≠ [] →
    (∀ call ∈ state.calls, ¬ Goal.rotate.running tenantId call) →
    ∃ row, currentRows state.rows tenantId = [row]
  increasing : ∀ tenantId,
    ((keysOf state.rows tenantId).map KeyRow.version).Pairwise (· < ·)
  newest : ∀ before tenantId version after,
    past = before ++ .rotated tenantId version :: after →
    ∀ token, .issued token ∈ after → token.tenantId = tenantId →
      ∃ number, token.kid = kidOf tenantId number ∧ version ≤ number

/-- How long both queries answer a retired key. -/
def Database.graceSeconds (db : Database) : Nat :=
  min db.activeSeconds db.resolvedSeconds

/-- No live token outlasts its key in the two queries when that is retired
now. -/
def Outlived (db : Database) (state : State) (kid : Text) : Prop :=
  ∀ token ∈ state.tokens, token.kid = kid → token.jti ∉ state.revoked →
    token.exp * second ≤ state.now + db.graceSeconds * second

/-- What a statement has to meet: a rotation retires its key when the tokens
signed with it end while the queries answer it and no older key is current, and
a token is signed while its key still is current. -/
def Stage.Careful (db : Database) (state : State) (tenantId : Text) :
    Stage → Prop
  | .retire current _ => Outlived db state current.kid ∧
      ∀ row ∈ currentRows state.rows tenantId, current.version ≤ row.version
  | .sign row => ∃ stored ∈ currentRows state.rows tenantId,
      stored.kid = row.kid
  | _ => True

def Stage.retires : Stage → Bool
  | .retire _ _ => true
  | _ => false

/-- What the runs have to keep: the statements meet their conditions, and a
rotation does not die between its two. -/
def Careful (db : Database) (state : State) : Action → Prop
  | .crash index => ∀ call ∈ state.calls[index]?, call.stage.retires = false
  | .advance index _ _ => ∀ call ∈ state.calls[index]?,
      call.stage.Careful db state call.tenantId
  | _ => True

section

variable (db : Database) (state : State)

instance (kid : Text) : Decidable (Outlived db state kid) :=
  inferInstanceAs (Decidable (∀ token ∈ state.tokens, token.kid = kid →
    token.jti ∉ state.revoked →
    token.exp * second ≤ state.now + db.graceSeconds * second))

instance (tenantId : Text) :
    (stage : Stage) → Decidable (stage.Careful db state tenantId)
  | .retire current _ => inferInstanceAs (Decidable
      (Outlived db state current.kid ∧
        ∀ row ∈ currentRows state.rows tenantId,
          current.version ≤ row.version))
  | .sign row => inferInstanceAs (Decidable
      (∃ stored ∈ currentRows state.rows tenantId, stored.kid = row.kid))
  | .ensureRead | .ensureInsert | .readCurrent | .insertKey _ | .serve
  | .returned | .failed => isTrue trivial

instance : (action : Action) → Decidable (Careful db state action)
  | .crash index => inferInstanceAs (Decidable
      (∀ call ∈ state.calls[index]?, call.stage.retires = false))
  | .advance index _ _ => inferInstanceAs (Decidable
      (∀ call ∈ state.calls[index]?,
        call.stage.Careful db state call.tenantId))
  | .begin _ _ | .revoke _ | .tick _ => isTrue trivial

end

/-! ### The invariant -/

/-- What a call carries from statement to statement. -/
def CallOk (db : Database) (rows : List KeyRow) (call : Call) :
    Prop :=
  isTenant db call.tenantId = true ∧
    match call.stage with
    | .insertKey current =>
        call.goal = .rotate ∧ Stored rows call.tenantId current
    | .retire current version =>
        call.goal = .rotate ∧ Stored rows call.tenantId current ∧
          version = current.version + 1 ∧
          version ≤ (keysOf rows call.tenantId).length
    | .sign row => Stored rows call.tenantId row
    | _ => True

/-- A rotation is between its two statements and is about to retire the
key. -/
def Retiring (calls : List Call) (row : KeyRow) : Prop :=
  ∃ call ∈ calls, call.tenantId = row.tenantId ∧ call.goal = .rotate ∧
    ∃ current version, call.stage = .retire current version ∧
      current.kid = row.kid

/-- The key of a token is there, and stays until the token ends. -/
def Backed (db : Database) (state : State) (token : Token) : Prop :=
  ∃ row ∈ state.rows, row.tenantId = token.tenantId ∧ row.kid = token.kid ∧
    row.publicPem = token.signedWith ∧
    ∀ retiredAt, row.retiredAt = some retiredAt →
      token.jti ∉ state.revoked →
      token.exp * second ≤ retiredAt + db.graceSeconds * second

/-- The keys that a finished rotation left behind are not current. -/
def Passed (rows : List KeyRow) (tenantId : Text) (version : Nat) : Prop :=
  version ≤ (keysOf rows tenantId).length ∧
    ∀ row ∈ currentRows rows tenantId, version ≤ row.version

structure Sound (db : Database) (state : State) (past : List Event) :
    Prop where
  rows : Rows db state.rows
  calls : ∀ call ∈ state.calls, CallOk db state.rows call
  retiring : ∀ row ∈ state.rows, row.isCurrent = true →
    row.version < (keysOf state.rows row.tenantId).length →
    Retiring state.calls row
  backed : ∀ token ∈ state.tokens, Backed db state token
  issued : ∀ token, .issued token ∈ past → token ∈ state.tokens
  passed : ∀ tenantId version, .rotated tenantId version ∈ past →
    Passed state.rows tenantId version
  newest : ∀ before tenantId version after,
    past = before ++ .rotated tenantId version :: after →
    ∀ token, .issued token ∈ after → token.tenantId = tenantId →
      ∃ number, token.kid = kidOf tenantId number ∧ version ≤ number

variable {call : Call} {index version : Nat} {row : KeyRow} {token : Token}

section

variable {db : Database} {state : State} {past : List Event}

theorem CallOk.extend {rows rows' : List KeyRow} (h : CallOk db rows call)
    (hextends : Extends rows rows') : CallOk db rows' call := by
  obtain ⟨htenant, hstage⟩ := h
  have hcount := (hextends call.tenantId).1
  constructor
  · exact htenant
  · cases hcall : call.stage with
    | insertKey current =>
        rw [hcall] at hstage
        exact ⟨hstage.1, hstage.2.extend hextends⟩
    | retire current version =>
        rw [hcall] at hstage
        obtain ⟨hgoal, hstored, hversion, hbound⟩ := hstage
        exact ⟨hgoal, hstored.extend hextends, hversion,
          Nat.le_trans hbound hcount⟩
    | sign row =>
        rw [hcall] at hstage
        exact hstage.extend hextends
    | _ => trivial

/-! ### Steps -/

/-- The other calls keep the promise to retire their keys. -/
theorem Retiring.set {calls : List Call} (h : Retiring calls row)
    (hcall : calls[index]? = some call)
    (hkeep : ∀ current version, call.stage = .retire current version →
      call.tenantId = row.tenantId → current.kid ≠ row.kid) (next : Call) :
    Retiring (calls.set index next) row := by
  obtain ⟨other, hother, htenant, hgoal, current, version, hstage, hkid⟩ := h
  have hne : other ≠ call := by
    rintro rfl
    exact hkeep current version hstage htenant hkid
  exact ⟨other, mem_set_of_ne hcall hother hne next, htenant, hgoal,
    current, version, hstage, hkid⟩

/-- A call goes on and leaves the table as it is. -/
theorem Sound.setStage (h : Sound db state past) (stage : Stage)
    (hcall : state.calls[index]? = some call)
    (hkeep : ∀ current version, call.stage ≠ .retire current version)
    (hok : CallOk db state.rows { call with stage }) :
    Sound db { state with
      calls := state.calls.set index { call with stage } } past := by
  constructor
  · exact h.rows
  · exact forall_set h.calls index hok
  · intro row hrow hcurrent hlow
    apply (h.retiring row hrow hcurrent hlow).set hcall
    intro current version hstage
    exact absurd hstage (hkeep current version)
  · exact h.backed
  · exact h.issued
  · exact h.passed
  · exact h.newest

/-- A call adds the next key of its tenant; what was the newest one until then
is about to be retired. -/
theorem Sound.insert (h : Sound db state past) (stage : Stage) (keyPair : Nat)
    (hcall : state.calls[index]? = some call)
    (hkeep : ∀ current number, call.stage ≠ .retire current number)
    (hversion :
      version = (keysOf state.rows call.tenantId).length + 1)
    (hok : CallOk db
      (state.rows ++ [newRow call.tenantId version keyPair])
      { call with stage })
    (hlast : ∀ row ∈ keysOf state.rows call.tenantId,
      row.version = (keysOf state.rows call.tenantId).length →
      Retiring (state.calls.set index { call with stage }) row) :
    Sound db { state with
      rows := state.rows ++ [newRow call.tenantId version keyPair]
      calls := state.calls.set index { call with stage } } past := by
  have htenant := (h.calls call (List.mem_of_getElem? hcall)).1
  have hextends := extends_append state.rows
    (newRow call.tenantId version keyPair)
  constructor
  · exact h.rows.insert htenant hversion keyPair
  · apply forall_set _ index hok
    intro other hother
    exact (h.calls other hother).extend hextends
  · intro row hrow hcurrent hlow
    rw [length_keysOf_append] at hlow
    rcases List.mem_append.mp hrow with hmem | hmem
    · by_cases hlater :
          row.version < (keysOf state.rows row.tenantId).length
      · apply (h.retiring row hmem hcurrent hlater).set hcall
        intro current number hstage
        exact absurd hstage (hkeep current number)
      · have hsame : call.tenantId = row.tenantId := by
          by_contra hne
          rw [newRow_tenantId, if_neg hne] at hlow
          omega
        have hbound := (h.rows.bounds hmem).2
        apply hlast row (mem_keysOf.mpr ⟨hmem, hsame.symm⟩)
        rw [hsame]
        omega
    · rw [List.mem_singleton.mp hmem, newRow_tenantId, newRow_version,
        if_pos rfl] at hlow
      omega
  · intro token htoken
    obtain ⟨row, hrow, hbacked⟩ := h.backed token htoken
    exact ⟨row, List.mem_append_left _ hrow, hbacked⟩
  · exact h.issued
  · intro tenantId number hmem
    obtain ⟨hbound, hpassed⟩ := h.passed tenantId number hmem
    constructor
    · exact Nat.le_trans hbound (hextends tenantId).1
    · intro row hrow
      obtain ⟨hrow, hrowTenant, hcurrent⟩ := mem_currentRows.mp hrow
      rcases List.mem_append.mp hrow with hold | hnew
      · exact hpassed row (mem_currentRows.mpr ⟨hold, hrowTenant, hcurrent⟩)
      · rw [List.mem_singleton.mp hnew] at hrowTenant ⊢
        rw [newRow_tenantId] at hrowTenant
        rw [newRow_version]
        subst hrowTenant
        omega
  · exact h.newest

theorem issued_mem_rotated {tenantId : Text}
    (h : .issued token ∈ [Event.rotated tenantId version]) : False := by
  simp at h

/-- The order of rotations and tokens after another event. -/
theorem newest_append {new : List Event}
    (hpast : ∀ before tenantId version after,
      past = before ++ .rotated tenantId version :: after →
      ∀ token, .issued token ∈ after → token.tenantId = tenantId →
        ∃ number, token.kid = kidOf tenantId number ∧ version ≤ number)
    (hlength : new.length ≤ 1)
    (hnew : ∀ tenantId version, .rotated tenantId version ∈ past →
      ∀ token, .issued token ∈ new → token.tenantId = tenantId →
        ∃ number, token.kid = kidOf tenantId number ∧ version ≤ number) :
    ∀ before tenantId version after,
      past ++ new = before ++ .rotated tenantId version :: after →
      ∀ token, .issued token ∈ after → token.tenantId = tenantId →
        ∃ number, token.kid = kidOf tenantId number ∧ version ≤ number := by
  intro before tenantId version after hsplit token htoken htenant
  rcases split_append hsplit with ⟨rest, hbefore, rfl⟩ | ⟨front, -, hafter⟩
  · rcases List.mem_append.mp htoken with hrest | hlast
    · exact hpast before tenantId version rest hbefore token hrest htenant
    · apply hnew tenantId version _ token hlast htenant
      rw [hbefore]
      exact List.mem_append_right _ List.mem_cons_self
  · rw [hafter, List.length_append, List.length_cons] at hlength
    have hempty : after = [] := List.eq_nil_of_length_eq_zero (by omega)
    rw [hempty] at htoken
    exact absurd htoken List.not_mem_nil

/-- A rotation retires the key it followed. -/
theorem Sound.retire (h : Sound db state past) {current : KeyRow}
    (hcall : state.calls[index]? = some call)
    (hstage : call.stage = .retire current version)
    (houtlived : Outlived db state current.kid)
    (holdest : ∀ row ∈ currentRows state.rows call.tenantId,
      current.version ≤ row.version) :
    Sound db { state with
      rows := retireRow state.rows call.tenantId current.kid state.now
      calls := state.calls.set index { call with stage := .returned } }
      (past ++ [.rotated call.tenantId version]) := by
  obtain ⟨htenant, hok⟩ := h.calls call (List.mem_of_getElem? hcall)
  rw [hstage] at hok
  obtain ⟨hgoal, ⟨hnamed, hstored⟩, hversion, hbound⟩ := hok
  have hextends := extends_retireRow state.rows call.tenantId current.kid
    state.now
  have hsame := retiredRow_same call.tenantId current.kid state.now
  have hcount : ∀ tenantId,
      (keysOf (retireRow state.rows call.tenantId current.kid state.now)
        tenantId).length = (keysOf state.rows tenantId).length := by
    intro tenantId
    rw [keysOf_retireRow, List.length_map]
  have hcurrent : ∀ row ∈ retireRow state.rows call.tenantId current.kid
      state.now, row.isCurrent = true → row ∈ state.rows ∧
        ¬ (row.tenantId = call.tenantId ∧ row.kid = current.kid) := by
    intro row hrow hcurrent
    rw [retireRow_eq] at hrow
    obtain ⟨before, hbefore, rfl⟩ := List.mem_map.mp hrow
    obtain ⟨hkept, hother⟩ := retiredRow_current hcurrent
    rw [hkept]
    exact ⟨hbefore, hother⟩
  constructor
  · apply h.rows.retire
    intro row hrow hrowTenant hkid
    rw [h.rows.named row hrow, hnamed, hrowTenant] at hkid
    have hplain := (isTenant_plain htenant).2
    have hrowVersion := (kidOf_inj hplain hplain hkid).2
    omega
  · apply forall_set
    · intro other hother
      exact (h.calls other hother).extend hextends
    · exact ⟨htenant, trivial⟩
  · intro row hrow hrowCurrent hlow
    obtain ⟨hmem, hother⟩ := hcurrent row hrow hrowCurrent
    rw [hcount] at hlow
    apply (h.retiring row hmem hrowCurrent hlow).set hcall
    intro read number hread hrowTenant hkid
    rw [hstage] at hread
    obtain ⟨rfl, -⟩ := Stage.retire.inj hread
    exact hother ⟨hrowTenant.symm, hkid.symm⟩
  · intro token htoken
    obtain ⟨row, hrow, hrowTenant, hkid, hpem, hends⟩ :=
      h.backed token htoken
    apply Exists.intro (retiredRow call.tenantId current.kid state.now row)
    refine ⟨List.mem_map_of_mem hrow, (hsame row).1.trans hrowTenant,
      (hsame row).2.1.trans hkid, (hsame row).2.2.2.2.trans hpem, ?_⟩
    intro retiredAt hretired hactive
    rw [retiredRow] at hretired
    split at hretired
    · next hmatch =>
        have hrowKid : row.kid = current.kid := by
          simp only [Bool.and_eq_true, beq_iff_eq] at hmatch
          exact hmatch.2
        rw [← Option.some.inj hretired]
        exact houtlived token htoken (hkid.symm.trans hrowKid) hactive
    · exact hends retiredAt hretired hactive
  · intro token htoken
    rcases List.mem_append.mp htoken with hpast | hnew
    · exact h.issued token hpast
    · exact (issued_mem_rotated hnew).elim
  · intro tenantId number hmem
    rcases List.mem_append.mp hmem with hpast | hnew
    · obtain ⟨hnumber, hpassed⟩ := h.passed tenantId number hpast
      constructor
      · exact Nat.le_trans hnumber (hextends tenantId).1
      · intro row hrow
        obtain ⟨hrow, hrowTenant, hrowCurrent⟩ := mem_currentRows.mp hrow
        have hmem := (hcurrent row hrow hrowCurrent).1
        exact hpassed row (mem_currentRows.mpr
          ⟨hmem, hrowTenant, hrowCurrent⟩)
    · obtain ⟨rfl, rfl⟩ := Event.rotated.inj (List.mem_singleton.mp hnew)
      constructor
      · exact Nat.le_trans hbound (hextends call.tenantId).1
      · intro row hrow
        obtain ⟨hrow, hrowTenant, hrowCurrent⟩ := mem_currentRows.mp hrow
        obtain ⟨hmem, hother⟩ := hcurrent row hrow hrowCurrent
        have hlow := holdest row
          (mem_currentRows.mpr ⟨hmem, hrowTenant, hrowCurrent⟩)
        have hne : row.version ≠ current.version := by
          intro heq
          apply hother
          rw [h.rows.named row hmem, hnamed, hrowTenant, heq]
          exact ⟨rfl, rfl⟩
        omega
  · have hlength : [Event.rotated call.tenantId version].length ≤ 1 :=
      Nat.le_refl 1
    apply newest_append h.newest hlength
    intro tenantId number _ token htoken
    exact (issued_mem_rotated htoken).elim

/-- A call signs with a key that still is current. -/
theorem Sound.sign (h : Sound db state past)
    (hcall : state.calls[index]? = some call) (hstage : call.stage = .sign row)
    (hcurrent : ∃ stored ∈ currentRows state.rows call.tenantId,
      stored.kid = row.kid) :
    Sound db { state with
      calls := state.calls.set index { call with stage := .returned }
      tokens := state.tokens ++ [signToken index call row] }
      (past ++ [.issued (signToken index call row)]) := by
  obtain ⟨htenant, hok⟩ := h.calls call (List.mem_of_getElem? hcall)
  rw [hstage] at hok
  obtain ⟨hnamed, read, hread, hversion, hpem⟩ := hok
  obtain ⟨hreadMem, hreadTenant⟩ := mem_keysOf.mp hread
  -- The key that was read and the one that is current have one `kid`.
  have hreadKid : read.kid = row.kid := by
    rw [h.rows.named read hreadMem, hreadTenant, hversion, hnamed]
  obtain ⟨stored, hstored, hkid⟩ := hcurrent
  obtain ⟨hstoredMem, -, hstoredCurrent⟩ := mem_currentRows.mp hstored
  have hsame : stored = read :=
    h.rows.eq_of_kid hstoredMem hreadMem (hkid.trans hreadKid.symm)
  subst hsame
  have hquiet : ∀ tenantId number, Event.rotated tenantId number ∈
      past ++ [.issued (signToken index call row)] →
      .rotated tenantId number ∈ past := by
    intro tenantId number hmem
    simpa using hmem
  constructor
  · exact h.rows
  · apply forall_set h.calls index
    exact ⟨htenant, trivial⟩
  · intro other hother hotherCurrent hlow
    apply (h.retiring other hother hotherCurrent hlow).set hcall
    intro current version hretire
    rw [hstage] at hretire
    exact Stage.noConfusion hretire
  · intro token htoken
    rcases List.mem_append.mp htoken with hold | hnew
    · exact h.backed token hold
    · rw [List.mem_singleton.mp hnew]
      refine ⟨stored, hstoredMem, hreadTenant, hreadKid,
        (h.rows.paired stored hstoredMem).symm.trans hpem, ?_⟩
      intro retiredAt hretired
      have hunretired := h.rows.retired stored hstoredMem
      rw [hretired, hstoredCurrent] at hunretired
      exact absurd hunretired.symm Bool.false_ne_true
  · intro token htoken
    rcases List.mem_append.mp htoken with hpast | hnew
    · exact List.mem_append_left _ (h.issued token hpast)
    · rw [Event.issued.inj (List.mem_singleton.mp hnew)]
      exact List.mem_append_right _ List.mem_cons_self
  · intro tenantId number hmem
    exact h.passed tenantId number (hquiet tenantId number hmem)
  · have hlength : [Event.issued (signToken index call row)].length ≤ 1 :=
      Nat.le_refl 1
    apply newest_append h.newest hlength
    intro tenantId number hmem token htoken htokenTenant
    rw [Event.issued.inj (List.mem_singleton.mp htoken)] at htokenTenant ⊢
    obtain ⟨-, hpassed⟩ := h.passed tenantId number hmem
    have hlow := hpassed stored (by rw [← htokenTenant]; exact hstored)
    refine ⟨row.version, ?_, by omega⟩
    rw [← htokenTenant]
    exact hnamed

/-- A call returns what it read. -/
theorem Sound.serve (h : Sound db state past) (tenantId : Text)
    (keys : List (Text × Nat)) :
    Sound db state (past ++ [.served tenantId keys]) := by
  constructor
  · exact h.rows
  · exact h.calls
  · exact h.retiring
  · exact h.backed
  · intro token htoken
    apply h.issued token
    simpa using htoken
  · intro other version hmem
    apply h.passed other version
    simpa using hmem
  · have hlength : [Event.served tenantId keys].length ≤ 1 := Nat.le_refl 1
    apply newest_append h.newest hlength
    intro other version _ token htoken
    simp at htoken

theorem callOk_afterEnsure {rows : List KeyRow}
    (h : isTenant db call.tenantId = true) :
    CallOk db rows { call with stage := call.goal.afterEnsure } := by
  constructor
  · exact h
  · cases hgoal : call.goal <;> rw [Goal.afterEnsure] <;> trivial

/-- A rotation adds its new key. -/
theorem Sound.insertKey (h : Sound db state past) (keyPair : Nat)
    {current : KeyRow} (hcall : state.calls[index]? = some call)
    (hstage : call.stage = .insertKey current)
    (hfresh : ∀ row ∈ state.rows,
      row.kid ≠ kidOf call.tenantId (current.version + 1)) :
    Sound db { state with
      rows := state.rows ++
        [newRow call.tenantId (current.version + 1) keyPair]
      calls := state.calls.set index
        { call with stage := .retire current (current.version + 1) } }
      past := by
  obtain ⟨htenant, hok⟩ := h.calls call (List.mem_of_getElem? hcall)
  rw [hstage] at hok
  obtain ⟨hgoal, hstored⟩ := hok
  obtain ⟨hnamed, read, hread, hversion, -⟩ := id hstored
  have habove := h.rows.fresh (Nat.le_add_left 1 _) hfresh
  have hbound := (h.rows.numbered.bounds hread).2
  have hcount : current.version =
      (keysOf state.rows call.tenantId).length := by omega
  have hlength := length_keysOf_append state.rows
    (newRow call.tenantId (current.version + 1) keyPair) call.tenantId
  rw [newRow_tenantId, if_pos rfl, ← hcount] at hlength
  apply h.insert (.retire current (current.version + 1)) keyPair hcall
  · simp [hstage]
  · rw [hcount]
  · exact ⟨htenant, hgoal, hstored.extend (extends_append _ _), rfl,
      Nat.le_of_eq hlength.symm⟩
  · intro row hrow hnewest
    obtain ⟨hmem, hrowTenant⟩ := mem_keysOf.mp hrow
    have hplace := (List.getElem?_eq_some_iff.mp hcall).1
    refine ⟨_, List.mem_set hplace _, hrowTenant.symm, hgoal, current, _,
      rfl, ?_⟩
    rw [hnamed, h.rows.named row hmem, hrowTenant, hnewest, hcount]

theorem Sound.advance (h : Sound db state past) {pick keyPair : Nat}
    (hcareful : Careful db state (.advance index pick keyPair)) :
    Sound db (advance db state index pick keyPair).1
      (past ++ (advance db state index pick keyPair).2) := by
  rw [SigningKey.advance]
  cases hcall : state.calls[index]? with
  | none => simpa using h
  | some call =>
      have hok := h.calls call (List.mem_of_getElem? hcall)
      have htenant := hok.1
      have hcare := hcareful call hcall
      have hplain : ∀ stage, (∀ current version,
          call.stage ≠ .retire current version) →
          CallOk db state.rows { call with stage } →
          Sound db { state with
            rows := state.rows
            calls := state.calls.set index { call with stage }
            tokens := state.tokens ++ issuedTokens [] } (past ++ []) := by
        intro stage hkeep hstage
        simpa [issuedTokens] using h.setStage stage hcall hkeep hstage
      cases hstage : call.stage with
      | ensureRead =>
          simp only [runStage, hstage]
          cases currentRow state.rows call.tenantId pick with
          | none =>
              exact hplain .ensureInsert (by simp [hstage])
                ⟨htenant, trivial⟩
          | some _ =>
              exact hplain _ (by simp [hstage])
                (callOk_afterEnsure htenant)
      | ensureInsert =>
          simp only [runStage, hstage]
          cases hinsert : insertRow state.rows
              (newRow call.tenantId 1 keyPair) with
          | none =>
              exact hplain _ (by simp [hstage])
                (callOk_afterEnsure htenant)
          | some next =>
              obtain ⟨rfl, hfresh⟩ := insertRow_some hinsert
              have hempty := h.rows.fresh (Nat.le_refl 1) hfresh
              have hnone := List.eq_nil_of_length_eq_zero
                (Nat.lt_one_iff.mp hempty)
              have hinserted := h.insert call.goal.afterEnsure keyPair hcall
                (by simp [hstage]) (by rw [hnone, List.length_nil])
                (callOk_afterEnsure htenant) (by simp [hnone])
              simpa [issuedTokens] using hinserted
      | readCurrent =>
          simp only [runStage, hstage]
          cases hrow : currentRow state.rows call.tenantId pick with
          | none =>
              exact hplain .failed (by simp [hstage]) ⟨htenant, trivial⟩
          | some row =>
              have hstored := h.rows.stored (currentRow_mem hrow)
              apply hplain (if call.goal = .rotate then .insertKey row
                else .sign row) (by simp [hstage])
              by_cases hgoal : call.goal = .rotate
              · rw [if_pos hgoal]
                exact ⟨htenant, hgoal, hstored⟩
              · rw [if_neg hgoal]
                exact ⟨htenant, hstored⟩
      | insertKey current =>
          simp only [runStage, hstage]
          obtain ⟨-, hbody⟩ := hok
          rw [hstage] at hbody
          obtain ⟨hgoal, hstored⟩ := hbody
          rw [currentVersion_kidOf hstored.1]
          cases hinsert : insertRow state.rows
              (newRow call.tenantId (current.version + 1) keyPair) with
          | none =>
              exact hplain .failed (by simp [hstage]) ⟨htenant, trivial⟩
          | some next =>
              obtain ⟨rfl, hfresh⟩ := insertRow_some hinsert
              have hinserted := h.insertKey keyPair hcall hstage hfresh
              simpa [issuedTokens] using hinserted
      | retire current version =>
          rw [hstage] at hcare
          simpa [runStage, hstage, issuedTokens] using
            h.retire hcall hstage hcare.1 hcare.2
      | sign row =>
          rw [hstage] at hcare
          simpa [runStage, hstage, issuedTokens] using
            h.sign hcall hstage hcare
      | serve =>
          have hserved := (h.setStage .returned hcall
            (by simp [hstage]) ⟨htenant, trivial⟩).serve call.tenantId
              (activePublicRows db state.rows call.tenantId state.now)
          simpa [runStage, hstage, issuedTokens] using hserved
      | returned =>
          simp only [runStage, hstage]
          exact hplain .returned (by simp [hstage]) ⟨htenant, trivial⟩
      | failed =>
          simp only [runStage, hstage]
          exact hplain .failed (by simp [hstage]) ⟨htenant, trivial⟩

theorem Sound.step (h : Sound db state past) {action : Action}
    (hcareful : Careful db state action) :
    Sound db ((machine db).next state action)
      (past ++ (machine db).emit state action) := by
  cases action with
  | advance index pick keyPair => exact h.advance hcareful
  | «begin» tenantId goal =>
      simp only [Machine.next, Machine.emit, machine, SigningKey.step]
      by_cases htenant : isTenant db tenantId = true
      · rw [if_pos htenant, List.append_nil]
        constructor
        · exact h.rows
        · intro call hcall
          rcases List.mem_append.mp hcall with hold | hnew
          · exact h.calls call hold
          · rw [List.mem_singleton.mp hnew]
            exact ⟨htenant, trivial⟩
        · intro row hrow hcurrent hlow
          obtain ⟨call, hcall, hretiring⟩ := h.retiring row hrow hcurrent hlow
          exact ⟨call, List.mem_append_left _ hcall, hretiring⟩
        · exact h.backed
        · exact h.issued
        · exact h.passed
        · exact h.newest
      · rw [if_neg htenant, List.append_nil]
        exact h
  | crash index =>
      simp only [Machine.next, Machine.emit, machine, SigningKey.step]
      cases hcall : state.calls[index]? with
      | none => simpa using h
      | some call =>
          have htenant := (h.calls call (List.mem_of_getElem? hcall)).1
          rw [List.append_nil]
          have hkept := hcareful call hcall
          apply h.setStage .failed hcall
          · intro current version hstage
            rw [hstage] at hkept
            exact Bool.noConfusion hkept
          · exact ⟨htenant, trivial⟩
  | revoke jti =>
      simp only [Machine.next, Machine.emit, machine, SigningKey.step,
        List.append_nil]
      constructor
      · exact h.rows
      · exact h.calls
      · exact h.retiring
      · intro token htoken
        obtain ⟨row, hrow, htenant, hkid, hpem, hends⟩ :=
          h.backed token htoken
        refine ⟨row, hrow, htenant, hkid, hpem, ?_⟩
        intro retiredAt hretired hactive
        apply hends retiredAt hretired
        exact fun hrevoked => hactive (List.mem_cons_of_mem _ hrevoked)
      · exact h.issued
      · exact h.passed
      · exact h.newest
  | tick microseconds =>
      simp only [Machine.next, Machine.emit, machine, SigningKey.step,
        List.append_nil]
      exact ⟨h.rows, h.calls, h.retiring, h.backed, h.issued, h.passed,
        h.newest⟩

theorem sound_initial (now : Nat) : Sound db (initial now) [] := by
  constructor
  · constructor <;> simp [initial, Numbered, keysOf]
  · simp [initial]
  · simp [initial]
  · simp [initial]
  · simp
  · simp
  · simp

/-! ### The law in a sound state -/

theorem Backed.verifiable {seconds : Nat}
    (hseconds : db.graceSeconds ≤ seconds) (hrows : Rows db state.rows)
    (hrow : row ∈ state.rows)
    (hends : ∀ retiredAt, row.retiredAt = some retiredAt →
      token.jti ∉ state.revoked →
      token.exp * second ≤ retiredAt + db.graceSeconds * second)
    (hactive : token.jti ∉ state.revoked)
    (hlive : state.now < token.exp * second) :
    row.verifiable seconds state.now = true := by
  rw [KeyRow.verifiable]
  cases hretired : row.retiredAt with
  | none =>
      have hcurrent := hrows.retired row hrow
      rw [hretired, Option.isNone_none] at hcurrent
      rw [hcurrent, Bool.true_or]
  | some retiredAt =>
      have hend := hends retiredAt hretired hactive
      have hinside : state.now < retiredAt + seconds * second :=
        Nat.lt_of_lt_of_le hlive (Nat.le_trans hend
          (Nat.add_le_add_left (Nat.mul_le_mul_right second hseconds) _))
      rw [Option.any_some, decide_eq_true hinside, Bool.or_true]

theorem Sound.verifies (h : Sound db state past)
    (htoken : .issued token ∈ past) (hactive : token.jti ∉ state.revoked)
    (hlive : state.now < token.exp * second) : Verifies db state token := by
  obtain ⟨row, hrow, htenant, hkid, hpem, hends⟩ :=
    h.backed token (h.issued token htoken)
  have hactiveRow : row.verifiable db.activeSeconds state.now = true :=
    Backed.verifiable (Nat.min_le_left _ _) h.rows hrow hends hactive hlive
  have hresolvedRow : row.verifiable db.resolvedSeconds state.now = true :=
    Backed.verifiable (Nat.min_le_right _ _) h.rows hrow hends hactive hlive
  constructor
  · apply List.mem_map.mpr
    refine ⟨row, List.mem_filter.mpr ⟨hrow, ?_⟩, by rw [hkid, hpem]⟩
    rw [htenant, hactiveRow, beq_self_eq_true, Bool.true_and]
  · obtain ⟨huuid, hplain⟩ := isTenant_plain (h.rows.tenant row hrow)
    have hnamed := h.rows.named row hrow
    have htenantOf : tenantOfKid token.kid = some token.tenantId := by
      rw [← hkid, hnamed, tenantOfKid_kidOf hplain, htenant]
    have hfound : (state.rows.find? fun other =>
        other.tenantId == token.tenantId && other.kid == token.kid &&
          other.verifiable db.resolvedSeconds state.now) = some row := by
      cases hfind : state.rows.find? fun other =>
          other.tenantId == token.tenantId && other.kid == token.kid &&
            other.verifiable db.resolvedSeconds state.now with
      | none =>
          have hmissing := List.find?_eq_none.mp hfind row hrow
          simp [htenant, hkid, hresolvedRow] at hmissing
      | some other =>
          have hmatch := List.find?_some hfind
          simp only [Bool.and_eq_true, beq_iff_eq] at hmatch
          have hother := List.mem_of_find?_eq_some hfind
          rw [h.rows.eq_of_kid hother hrow (hmatch.1.2.trans hkid.symm)]
    rw [← htenant] at hfound htenantOf ⊢
    rw [resolvedPublicKeyForKid, htenantOf]
    simp only [huuid, if_true, hfound, Option.map_some, hpem]

/-- Without a rotation under way the newest key is the only current one. -/
theorem Sound.oneCurrent (h : Sound db state past) {tenantId : Text}
    (hkeys : keysOf state.rows tenantId ≠ [])
    (hidle : ∀ call ∈ state.calls, ¬ Goal.rotate.running tenantId call) :
    ∃ row, currentRows state.rows tenantId = [row] := by
  have hnewest : ∀ row ∈ currentRows state.rows tenantId,
      row.version = (keysOf state.rows tenantId).length := by
    intro row hrow
    obtain ⟨hmem, htenant, hcurrent⟩ := mem_currentRows.mp hrow
    have hbound := (h.rows.bounds hmem).2
    rw [← htenant]
    by_contra hne
    obtain ⟨call, hcall, hcallTenant, hgoal, current, version, hstage, -⟩ :=
      h.retiring row hmem hcurrent (by omega)
    apply hidle call hcall
    exact ⟨hgoal, hcallTenant.trans htenant, by simp [hstage],
      by simp [hstage]⟩
  have hpositive : 1 ≤ (keysOf state.rows tenantId).length :=
    List.length_pos_iff.mpr hkeys
  obtain ⟨row, hrow, hversion⟩ :=
    h.rows.numbered.exists_version hpositive (Nat.le_refl _)
  obtain ⟨hmem, htenant⟩ := mem_keysOf.mp hrow
  have hcurrent := h.rows.newest row hmem (by rw [htenant, hversion])
  have hself := mem_currentRows.mpr ⟨hmem, htenant, hcurrent⟩
  -- Every current key is the newest one, and no key is stored twice.
  have hall : ∀ other ∈ currentRows state.rows tenantId, other = row := by
    intro other hother
    obtain ⟨hotherMem, hotherTenant, -⟩ := mem_currentRows.mp hother
    apply h.rows.numbered.eq_of_version
      (mem_keysOf.mpr ⟨hotherMem, hotherTenant⟩) hrow
    rw [hnewest other hother, hversion]
  have hnodup : (currentRows state.rows tenantId).Nodup := by
    have hkeysNodup := List.Nodup.of_map _ (h.rows.numbered.nodup tenantId)
    have hsub : currentRows state.rows tenantId =
        (keysOf state.rows tenantId).filter (·.isCurrent) := by
      rw [currentRows, keysOf, List.filter_filter]
      apply List.filter_congr
      intro other _
      exact Bool.and_comm _ _
    rw [hsub]
    exact hkeysNodup.filter _
  have hreplicate := List.eq_replicate_of_mem hall
  rw [hreplicate, List.nodup_replicate] at hnodup
  have hone : (currentRows state.rows tenantId).length = 1 :=
    Nat.le_antisymm hnodup (List.length_pos_of_mem hself)
  rw [hone] at hreplicate
  exact ⟨row, hreplicate⟩

end

/-- Along every run whose rotations are careful the rotation law holds. -/
theorem careful_rotation_keeps_sessions (db : Database) (now : Nat)
    (actions : List Action)
    (hcareful : (machine db).Admissible (Careful db) (initial now) actions) :
    RotationLaw db ((machine db).run (initial now) actions)
      ((machine db).trace (initial now) actions) := by
  have hsound : Sound db ((machine db).run (initial now) actions)
      ([] ++ (machine db).trace (initial now) actions) := by
    apply (machine db).invariant_from (Sound db)
    · intro state past action h hallowed
      exact h.step hallowed
    · exact sound_initial now
    · exact hcareful
  rw [List.nil_append] at hsound
  constructor
  · intro token htoken hactive hlive
    exact hsound.verifies htoken hactive hlive
  · intro tenantId hkeys hidle
    exact hsound.oneCurrent hkeys hidle
  · intro tenantId
    rw [hsound.rows.numbered tenantId]
    exact List.pairwise_lt_range'
  · exact hsound.newest

namespace RotationWitness

def tenant : Text := ['t']

/-- The client puts the value into the quoted intervals. -/
def inlined : Database :=
  ⟨fun _ => true, rotationGraceSeconds, rotationGraceSeconds⟩

/-- The server binds it, and reads `'$2 seconds'` and `'$3 seconds'`. -/
def bound : Database := ⟨fun _ => true, 2, 3⟩

/-- A call from its first statement to its last one. -/
def complete (index keyPair : Nat) : List Action :=
  List.replicate 5 (.advance index 0 keyPair)

def pass (seconds : Nat) : Action := .tick (seconds * second)

/-- A login, and a rotation after so many seconds. -/
def rotatedAfter (seconds : Nat) : List Action :=
  .begin tenant .issue :: complete 0 7 ++
    pass seconds :: .begin tenant .rotate :: complete 1 8

def login : Token :=
  ⟨tenant, kidOf tenant 1, 7, authSessionTtlSeconds, 0⟩

/-- The rotation ends after the new key was stored. -/
def crashed : List Action :=
  [.begin tenant .rotate, .advance 0 0 7, .advance 0 0 7, .advance 0 0 7,
    .advance 0 0 8, .crash 0]

def Law (db : Database) (actions : List Action) : Prop :=
  RotationLaw db ((machine db).run (initial 0) actions)
    ((machine db).trace (initial 0) actions)

theorem not_law {db : Database} {actions : List Action}
    (hissued : .issued login ∈ (machine db).trace (initial 0) actions)
    (hactive : login.jti ∉ ((machine db).run (initial 0) actions).revoked)
    (hlive : ((machine db).run (initial 0) actions).now < login.exp * second)
    (hrejected : resolvedPublicKeyForKid db
      ((machine db).run (initial 0) actions).rows login.kid
      ((machine db).run (initial 0) actions).now = none) :
    ¬ Law db actions := by
  intro law
  have hverifies := (law.verifies login hissued hactive hlive).2
  exact absurd (hrejected.symm.trans hverifies) (Option.some_ne_none _).symm

end RotationWitness

open RotationWitness in
/-- A session of thirty days is rejected once its key, retired a day after the
login, is a day old, and where the server binds the parameters once it is three
seconds old; and a rotation that dies half way leaves two current keys. -/
theorem rotation_rejects_live_session :
    ¬ Law inlined (rotatedAfter 86400 ++ [pass 86400]) ∧
      ¬ Law bound (rotatedAfter 86400 ++ [pass 3]) ∧
      ¬ Law inlined crashed := by
  refine ⟨?_, ?_, ?_⟩
  · exact not_law (by decide) (by decide) (by decide) (by decide)
  · exact not_law (by decide) (by decide) (by decide) (by decide)
  · intro law
    obtain ⟨row, hrow⟩ := law.oneCurrent tenant (by decide) (by
      have hfailed : ∀ call ∈ ((machine inlined).run (initial 0)
          crashed).calls, call.stage = .failed := by decide
      intro call hcall hrunning
      exact hrunning.2.2.2 (hfailed call hcall))
    have htwo : (currentRows ((machine inlined).run (initial 0) crashed).rows
        tenant).length = 2 := by decide
    rw [hrow, List.length_singleton] at htwo
    exact absurd htwo (by decide)

open RotationWitness in
/-- A login of day zero, a rotation in its last second and a second login. -/
theorem careful_rotation_keeps_sessions_lastDay :
    let actions := rotatedAfter (30 * 86400 - 1) ++
      .begin tenant .issue :: complete 2 9
    (machine bound).Admissible (Careful bound) (initial 0) actions ∧
      RotationLaw bound ((machine bound).run (initial 0) actions)
        ((machine bound).trace (initial 0) actions) := by
  have hcareful : (machine bound).Admissible (Careful bound) (initial 0)
      (rotatedAfter (30 * 86400 - 1) ++
        .begin tenant .issue :: complete 2 9) := by
    decide
  exact ⟨hcareful, careful_rotation_keeps_sessions bound 0 _ hcareful⟩

end AiTeam.SigningKey
