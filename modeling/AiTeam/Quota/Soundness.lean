/-
`evaluate_quota` answers what a policy asks for exactly when its cost cap is
set and its alert threshold is compared with the counter that reaches it.
-/
import Mathlib.Algebra.Order.BigOperators.Group.List
import AiTeam.Quota.Budget

namespace AiTeam.Quota

open AiTeam.Fallible

section

variable {numerals : Numerals} {policy : QuotaPolicyRow}
  {agg agg' : Aggregate} {out out' : QuotaEnforcementActionOut}

variable (numerals policy agg) in
/-- The cap that the cost is compared with. -/
def costCapRead : ℚ :=
  (toDecimal numerals (policy.dimension "cost_cap_usd")).toOption.getD 0

variable (numerals policy agg) in
/-- The branches that the evaluation takes. -/
def hits : Limit → Bool
  | .alertThreshold =>
    (policy.usageRatio numerals agg).any fun ratio => decide (1 ≤ ratio)
  | .costCap => decide (costCapRead numerals policy ≤ agg.knownCost)
  | .tokenCap =>
    (counterCap (policy.dimension "token_cap")).any
      fun cap => decide (cap ≤ (agg.tokenTotal : ℚ))
  | .runCap =>
    (counterCap (policy.dimension "run_cap")).any
      fun cap => decide (cap ≤ (agg.runCount : ℚ))

variable (numerals policy agg) in
/-- The parts of the detail that the branches append. -/
def parts : Limit → DetailPart
  | .alertThreshold => .threshold (policy.dimension "alert_threshold")
  | .costCap => .cost agg.knownCost (costCapRead numerals policy)
  | .tokenCap => .token agg.tokenTotal (policy.dimension "token_cap")
  | .runCap => .run agg.runCount (policy.dimension "run_cap")

@[simp] theorem parts_limit (limit : Limit) :
    (parts numerals policy agg limit).limit = some limit := by
  cases limit <;> rfl

theorem toDecimal_nonneg {value : Dimension} {amount : ℚ}
    (h : toDecimal numerals value = .ok amount) : 0 ≤ amount := by
  cases value with
  | null => simp_all [toDecimal]
  | bool value => simp [toDecimal] at h
  | number value =>
      rw [toDecimal, guard_ok, Except.ok.injEq] at h
      linarith [not_lt.mp h.1, h.2]
  | text value =>
      rw [toDecimal] at h
      cases hread : numerals.decimal value with
      | none => simp [hread] at h
      | some read =>
          simp only [hread, guard_ok, Except.ok.injEq] at h
          linarith [not_lt.mp h.1, h.2]
  | compound => simp [toDecimal] at h

theorem toDecimal_cost {cost : ℚ}
    (h : toDecimal numerals (agg.costTotal.elim .null .number) = .ok cost) :
    cost = agg.knownCost := by
  cases hcost : agg.costTotal with
  | none => simp_all [toDecimal, Aggregate.knownCost]
  | some value =>
      simp only [hcost, Option.elim_some, toDecimal, guard_ok,
        Except.ok.injEq] at h
      simp [Aggregate.knownCost, hcost, h.2]

theorem reaches_ok {used : Nat} {cap : Dimension} {hit : Bool}
    (h : reaches used cap = .ok hit) :
    hit = (counterCap cap).any fun bound => decide (bound ≤ (used : ℚ)) := by
  cases cap with
  | null => simp_all [reaches, counterCap]
  | bool value =>
      rw [reaches, Except.ok.injEq] at h
      cases value <;> simp [counterCap, ← h]
  | number value =>
      rw [reaches, Except.ok.injEq] at h
      simp [counterCap, ← h]
  | text value => simp [reaches] at h
  | compound => simp [reaches] at h

/-- An evaluation that returns is the branches taken, concluded. -/
theorem evaluate_ok (h : evaluate numerals policy agg = .ok out) :
    (∃ cap, toDecimal numerals (policy.dimension "cost_cap_usd") = .ok cap) ∧
      0 ≤ agg.knownCost ∧
      out = (drafted (hits numerals policy agg)
        (parts numerals policy agg)).conclude policy := by
  simp only [evaluate, bind_ok, pure_ok] at h
  obtain ⟨cost, hcost, cap, hcap, token, htoken, run, hrun, rfl⟩ := h
  have hnonneg := toDecimal_nonneg hcost
  obtain rfl := toDecimal_cost hcost
  obtain rfl := reaches_ok htoken
  obtain rfl := reaches_ok hrun
  have hread : costCapRead numerals policy = cap := by
    simp [costCapRead, hcap, Except.toOption]
  refine ⟨⟨cap, hcap⟩, hnonneg, ?_⟩
  simp only [drafted, hits, parts, hread, QuotaPolicyRow.usageRatio]

/-! ### The branches and the limits -/

/-- The whole-unit cost without runs, else the runs. -/
def Aggregate.measured (agg : Aggregate) : ℤ :=
  if agg.runCount = 0 then ⌊agg.knownCost⌋ else agg.runCount

theorem limits_configured {limit : Limit}
    (h : limits numerals policy limit ≠ none) : policy.Configures limit := by
  intro hnull
  apply h
  cases limit <;> simp_all [limits, Limit.key, counterCap, toFloat]

theorem usageRatio_none
    (h : limits numerals policy .alertThreshold = none) :
    policy.usageRatio numerals agg = none := by
  by_cases hnull : policy.dimension "alert_threshold" = .null
  · simp [QuotaPolicyRow.usageRatio, usageRatio, hnull]
  · have hratio (numerator : ℚ) :
        ratio numerals numerator (policy.dimension "alert_threshold")
          = none := by
      cases hfloat : toFloat numerals (policy.dimension "alert_threshold") with
      | none => simp [ratio, hfloat]
      | some d =>
          have hd : d ≤ 0 := by simpa [limits, hfloat] using h
          simp [ratio, hfloat, hd]
    simp [QuotaPolicyRow.usageRatio, usageRatio, hratio, orElse]

variable (agg) in
theorem usageRatio_some {d : ℚ}
    (h : limits numerals policy .alertThreshold = some d) :
    0 < d ∧ policy.usageRatio numerals agg = some (agg.measured / d) := by
  have hnull : policy.dimension "alert_threshold" ≠ .null :=
    limits_configured (by simp [h] :
      limits numerals policy .alertThreshold ≠ none)
  obtain ⟨hfloat, hd⟩ := Option.filter_eq_some_iff.mp h
  have hpos : 0 < d := by simpa using hd
  have hratio (numerator : ℚ) :
      ratio numerals numerator (policy.dimension "alert_threshold")
        = some (numerator / d) := by
    simp [ratio, hfloat, not_le.mpr hpos]
  refine ⟨hpos, ?_⟩
  by_cases hruns : agg.runCount = 0
  · simp [QuotaPolicyRow.usageRatio, usageRatio, hnull, hratio, orElse,
      Aggregate.measured, hruns]
  · simp [QuotaPolicyRow.usageRatio, usageRatio, hnull, hratio, orElse,
      Aggregate.measured, hruns, hpos.ne']

theorem hits_alertThreshold :
    hits numerals policy agg .alertThreshold = true ↔
      ∃ d, limits numerals policy .alertThreshold = some d ∧
        d ≤ agg.measured := by
  cases h : limits numerals policy .alertThreshold with
  | none => simp [hits, usageRatio_none h]
  | some d =>
      obtain ⟨hpos, hratio⟩ := usageRatio_some agg h
      simp [hits, hratio, one_le_div hpos]

theorem hits_tokenCap :
    hits numerals policy agg .tokenCap = true ↔
      policy.Reaches numerals agg .tokenCap := by
  simp [hits, QuotaPolicyRow.Reaches, Reached, limits, used,
    Option.any_eq_true]

theorem hits_runCap :
    hits numerals policy agg .runCap = true ↔
      policy.Reaches numerals agg .runCap := by
  simp [hits, QuotaPolicyRow.Reaches, Reached, limits, used,
    Option.any_eq_true]

/-- A cost cap that is not set is read as zero and so always reached. -/
theorem hits_costCap (h : evaluate numerals policy agg = .ok out) :
    hits numerals policy agg .costCap = true ↔
      ¬ policy.Configures .costCap ∨ policy.Reaches numerals agg .costCap := by
  obtain ⟨⟨cap, hcap⟩, hcost, -⟩ := evaluate_ok h
  by_cases hnull : policy.dimension "cost_cap_usd" = .null
  · simp [hits, costCapRead, toDecimal, Except.toOption, hcost,
      QuotaPolicyRow.Configures, Limit.key, hnull]
  · simp [hits, costCapRead, hcap, Except.toOption, Limit.key, hnull,
      QuotaPolicyRow.Configures, QuotaPolicyRow.Reaches, Reached, limits, used]

theorem Aggregate.measured_le_used (agg : Aggregate) :
    (agg.measured : ℚ) ≤ used agg .alertThreshold := by
  by_cases hruns : agg.runCount = 0
  · simp [Aggregate.measured, used, hruns]
  · simp [Aggregate.measured, used, hruns]

/-- Under the condition the evaluation takes the branch of a limit exactly
when the limit is reached. -/
theorem hits_iff (h : evaluate numerals policy agg = .ok out)
    (hclear : Clear numerals policy agg agg') (limit : Limit) :
    hits numerals policy agg limit = true ↔
      policy.Reaches numerals agg limit := by
  cases limit with
  | alertThreshold =>
      rw [hits_alertThreshold]
      constructor
      · rintro ⟨d, hlimit, hle⟩
        exact ⟨d, hlimit, hle.trans agg.measured_le_used⟩
      · rintro ⟨d, hlimit, hle⟩
        refine ⟨d, hlimit, ?_⟩
        by_cases hruns : agg.runCount = 0
        · have hpos := (usageRatio_some agg hlimit).1
          simpa [Aggregate.measured, used, hruns, hpos.not_ge] using hle
        · have hshown := hclear.shown d hlimit (Nat.pos_of_ne_zero hruns)
          rw [used, le_max_iff] at hle
          simp only [Aggregate.measured, hruns, if_false, Int.cast_natCast]
          by_contra hlt
          have hcost := hshown (not_le.mp hlt)
          rcases hle with hle | hle
          · exact hlt hle
          · exact absurd hle (not_le.mpr hcost)
  | costCap =>
      rw [hits_costCap h]
      simp [hclear.costCap]
  | tokenCap => exact hits_tokenCap
  | runCap => exact hits_runCap

theorem Aggregate.Within.used_le (hle : agg.Within agg') (limit : Limit) :
    used agg limit ≤ used agg' limit := by
  cases limit with
  | alertThreshold =>
      exact max_le_max (Nat.cast_le.mpr hle.runCount)
        (Int.cast_le.mpr (Int.floor_mono hle.knownCost))
  | costCap => exact hle.knownCost
  | tokenCap => exact Nat.cast_le.mpr hle.tokenTotal
  | runCap => exact Nat.cast_le.mpr hle.runCount

theorem measured_mono (hle : agg.Within agg')
    (hcarried : agg.runCount = 0 → 0 < agg'.runCount →
      ⌊agg.knownCost⌋ ≤ (agg'.runCount : ℤ)) :
    agg.measured ≤ agg'.measured := by
  have hruns := hle.runCount
  by_cases hzero : agg.runCount = 0
  · by_cases hzero' : agg'.runCount = 0
    · simpa [Aggregate.measured, hzero, hzero'] using
        Int.floor_mono hle.knownCost
    · simpa [Aggregate.measured, hzero, hzero'] using
        hcarried hzero (Nat.pos_of_ne_zero hzero')
  · have hzero' : agg'.runCount ≠ 0 := by omega
    simpa [Aggregate.measured, hzero, hzero'] using hruns

variable (numerals policy agg agg') in
/-- A threshold that a cost without runs is measured by is not measured by
fewer runs later. -/
def Carried : Prop :=
  ∀ bound, limits numerals policy .alertThreshold = some bound →
    agg.runCount = 0 → 0 < agg'.runCount →
      ⌊agg.knownCost⌋ ≤ (agg'.runCount : ℤ)

theorem hits_mono (hle : agg.Within agg')
    (hcarried : Carried numerals policy agg agg') (limit : Limit)
    (hhit : hits numerals policy agg limit = true) :
    hits numerals policy agg' limit = true := by
  cases limit with
  | alertThreshold =>
      obtain ⟨d, hlimit, hd⟩ := hits_alertThreshold.mp hhit
      have hmeasured := measured_mono hle (hcarried d hlimit)
      exact hits_alertThreshold.mpr
        ⟨d, hlimit, hd.trans (Int.cast_le.mpr hmeasured)⟩
  | costCap =>
      exact decide_eq_true ((of_decide_eq_true hhit).trans hle.knownCost)
  | tokenCap =>
      exact hits_tokenCap.mpr ((hits_tokenCap.mp hhit).mono (hle.used_le _))
  | runCap => exact hits_runCap.mpr ((hits_runCap.mp hhit).mono (hle.used_le _))

/-! ### The answer -/

theorem sound_of_clear (h : evaluate numerals policy agg = .ok out)
    (h' : evaluate numerals policy agg' = .ok out')
    (hle : agg.Within agg') (hclear : Clear numerals policy agg agg') :
    Sound numerals policy agg agg' out out' := by
  obtain ⟨-, -, rfl⟩ := evaluate_ok h
  obtain ⟨-, -, rfl⟩ := evaluate_ok h'
  have hits_iff := hits_iff h hclear
  constructor
  case within =>
    rw [withinBudget_mem]
    simp only [hits_iff, not_exists]
  case acts =>
    intro limit
    rw [limitAction_mem]
    simp only [hits_iff]
  case blocks =>
    rw [blockNewRuns_mem]
    simp only [hits_iff]
  case absent =>
    intro note hnote limit hlimit
    rcases detail_mem _ _ _ note hnote with rfl | ⟨taken, rfl, hhit⟩
    · simp [DetailPart.limit] at hlimit
    · rw [parts_limit, Option.some.injEq] at hlimit
      subst hlimit
      exact limits_configured ((hits_iff taken).mp hhit).configured
  case ratio =>
    intro x hx
    cases hlimit : limits numerals policy .alertThreshold with
    | none => simp [usageRatio_none hlimit] at hx
    | some d =>
        obtain ⟨hpos, hratio⟩ := usageRatio_some agg hlimit
        obtain ⟨-, hratio'⟩ := usageRatio_some agg' hlimit
        have hmeasured := measured_mono hle (hclear.carried d hlimit)
        rw [hratio, Option.some.injEq] at hx
        refine ⟨_, hratio', ?_⟩
        rw [← hx]
        exact div_le_div_of_nonneg_right (Int.cast_le.mpr hmeasured) hpos.le
  case severity =>
    exact severity_mono policy (hits_mono hle hclear.carried) _ _

theorem clear_of_sound (h : evaluate numerals policy agg = .ok out)
    (hsound : Sound numerals policy agg agg' out out') :
    Clear numerals policy agg agg' := by
  obtain ⟨-, -, rfl⟩ := evaluate_ok h
  constructor
  case costCap =>
    by_contra hunset
    have hhit := (hits_costCap h).mpr (Or.inl hunset)
    exact hunset (hsound.absent _ (part_mem _ _ _ hhit) _ (parts_limit _))
  case shown =>
    intro d hlimit hpos hruns
    by_contra hcost
    have hreached : policy.Reaches numerals agg .alertThreshold :=
      ⟨d, hlimit, le_max_of_le_right (not_lt.mp hcost)⟩
    have hacts := (hsound.acts .alertThreshold).mpr ⟨_, rfl, hreached⟩
    obtain ⟨taken, haction, hhit⟩ := (limitAction_mem _ _ _ _).mp hacts
    have htaken : taken = .alertThreshold := by
      cases taken <;> simp_all [Limit.action]
    rw [htaken] at hhit
    obtain ⟨bound, hbound, hle⟩ := hits_alertThreshold.mp hhit
    rw [hlimit, Option.some.injEq] at hbound
    rw [Aggregate.measured, if_neg hpos.ne', ← hbound, Int.cast_natCast] at hle
    exact absurd hruns (not_lt.mpr hle)
  case carried =>
    intro d hlimit hzero hpos
    obtain ⟨hd, hratio⟩ := usageRatio_some agg hlimit
    obtain ⟨-, hratio'⟩ := usageRatio_some agg' hlimit
    obtain ⟨y, hy, hle⟩ := hsound.ratio _ hratio
    rw [hratio', Option.some.injEq] at hy
    rw [← hy, div_le_div_iff_of_pos_right hd, Int.cast_le] at hle
    simpa [Aggregate.measured, hzero, hpos.ne'] using hle

end

/-! ### Evaluations over the stored usage -/

theorem evaluateQuota_ok {numerals : Numerals} {repo : Repository}
    {ctx : TenantContext} {policyId : String} {windowStart windowEnd : Int}
    {out : QuotaEnforcementActionOut} :
    evaluateQuota numerals repo ctx policyId windowStart windowEnd = .ok out ↔
      ∃ policy, repo.getQuota ctx policyId = some policy ∧
        evaluate numerals policy
          (repo.aggregateUsage ctx windowStart windowEnd) = .ok out := by
  rw [evaluateQuota]
  cases repo.getQuota ctx policyId with
  | none => simp
  | some policy => simp

theorem aggregateUsage_knownCost (repo : Repository) (ctx : TenantContext)
    (windowStart windowEnd : Int) :
    (repo.aggregateUsage ctx windowStart windowEnd).knownCost =
      ((repo.usage.filter fun row =>
        row.tenantId = ctx.tenantId ∧
          windowStart ≤ row.windowStart ∧
            row.windowEnd ≤ windowEnd).map (·.knownCost)).sum := rfl

/-- Rows that are added only add to the aggregate. -/
theorem aggregateUsage_within (repo : Repository) (ctx : TenantContext)
    (windowStart windowEnd : Int) {rows : List UsageRollupRow}
    (hcost : ∀ row ∈ rows, 0 ≤ row.knownCost) :
    (repo.aggregateUsage ctx windowStart windowEnd).Within
      ({ repo with usage := repo.usage ++ rows }.aggregateUsage ctx
        windowStart windowEnd) := by
  constructor
  case runCount => simp [Repository.aggregateUsage]
  case tokenTotal => simp [Repository.aggregateUsage]
  case knownCost =>
    rw [aggregateUsage_knownCost, aggregateUsage_knownCost,
      List.filter_append, List.map_append, List.sum_append]
    have hnonneg := List.sum_nonneg (l := (rows.filter fun row =>
      row.tenantId = ctx.tenantId ∧ windowStart ≤ row.windowStart ∧
        row.windowEnd ≤ windowEnd).map (·.knownCost)) (by
          intro cost hmem
          obtain ⟨row, hrow, rfl⟩ := List.mem_map.mp hmem
          exact hcost row (List.mem_filter.mp hrow).1)
    linarith

/-- The severity of a policy does not fall as its tenant uses more. -/
theorem evaluateQuota_severity {numerals : Numerals} {repo : Repository}
    {ctx : TenantContext} {policyId : String} {windowStart windowEnd : Int}
    {rows : List UsageRollupRow} {policy : QuotaPolicyRow}
    {out out' : QuotaEnforcementActionOut}
    (hcost : ∀ row ∈ rows, 0 ≤ row.knownCost)
    (hpolicy : repo.getQuota ctx policyId = some policy)
    (hcarried : Carried numerals policy
      (repo.aggregateUsage ctx windowStart windowEnd)
      ({ repo with usage := repo.usage ++ rows }.aggregateUsage ctx
        windowStart windowEnd))
    (h : evaluateQuota numerals repo ctx policyId windowStart windowEnd
      = .ok out)
    (h' : evaluateQuota numerals { repo with usage := repo.usage ++ rows } ctx
      policyId windowStart windowEnd = .ok out') :
    out.severity.rank ≤ out'.severity.rank := by
  obtain ⟨found, hfound, heval⟩ := evaluateQuota_ok.mp h
  obtain ⟨found', hfound', heval'⟩ := evaluateQuota_ok.mp h'
  obtain rfl : policy = found := Option.some.inj (hpolicy.symm.trans hfound)
  obtain rfl : policy = found' := Option.some.inj (hpolicy.symm.trans hfound')
  obtain ⟨-, -, rfl⟩ := evaluate_ok heval
  obtain ⟨-, -, rfl⟩ := evaluate_ok heval'
  have hle := aggregateUsage_within repo ctx windowStart windowEnd hcost
  exact severity_mono policy (hits_mono hle hcarried) _ _

/-- The answer to a policy's usage is what its limits ask for, and the ratio
and the severity do not fall as usage grows, exactly under the condition.  Run
counts and whole-unit costs are taken as floats without rounding, as they are
below `2 ^ 53`. -/
theorem evaluate_sound_iff (numerals : Numerals) (policy : QuotaPolicyRow)
    (agg agg' : Aggregate) (out out' : QuotaEnforcementActionOut)
    (h : evaluate numerals policy agg = .ok out)
    (h' : evaluate numerals policy agg' = .ok out')
    (hle : agg.Within agg') :
    Sound numerals policy agg agg' out out' ↔
      Clear numerals policy agg agg' := by
  constructor
  · exact clear_of_sound h
  · exact sound_of_clear h h' hle

namespace SoundnessWitness

def numerals : Numerals where
  decimal _ := none
  float _ := none

/-- A policy with a cap of tokens alone. -/
def tokensOnly : QuotaPolicyRow where
  policyId := "p"
  tenantId := "t"
  policySlug := "tokens"
  dimensions := [("token_cap", .number 1000)]
  enforcement := .hard

/-- A policy with a cost cap and a threshold. -/
def watched : QuotaPolicyRow where
  policyId := "q"
  tenantId := "t"
  policySlug := "watched"
  dimensions := [("cost_cap_usd", .number 100), ("alert_threshold", .number 5)]
  enforcement := .soft

def idle : Aggregate where
  runCount := 0
  tokenTotal := 0
  costTotal := some 0

def busy : Aggregate where
  runCount := 6
  tokenTotal := 10
  costTotal := some 2

/-- Nothing is used, nothing is reached, and new runs are to be blocked. -/
def blocked : QuotaEnforcementActionOut where
  policyId := "p"
  policySlug := "tokens"
  enforcement := .hard
  actions := [.notifyOwner, .blockNewRuns]
  severity := .alert
  detail := [.cost 0 0]

def quiet : QuotaEnforcementActionOut where
  policyId := "q"
  policySlug := "watched"
  enforcement := .soft
  actions := [.withinBudget]
  severity := .info
  detail := [.within]

def warned : QuotaEnforcementActionOut where
  policyId := "q"
  policySlug := "watched"
  enforcement := .soft
  actions := [.alertThreshold]
  severity := .warn
  detail := [.threshold (.number 5)]

theorem idle_blocked : evaluate numerals tokensOnly idle = .ok blocked := by
  decide

theorem idle_quiet : evaluate numerals watched idle = .ok quiet := by
  decide +kernel

theorem busy_warned : evaluate numerals watched busy = .ok warned := by
  decide +kernel

theorem idle_within : idle.Within busy := by
  constructor <;> decide

theorem watched_clear : Clear numerals watched idle busy := by
  constructor
  case costCap =>
    show watched.dimension "cost_cap_usd" ≠ .null
    decide
  case shown => simp [idle]
  case carried =>
    intro _ _ _ _
    decide

end SoundnessWitness

open SoundnessWitness in
theorem evaluate_sound_iff_watched :
    evaluate numerals watched idle = .ok quiet ∧
      evaluate numerals watched busy = .ok warned ∧
      Sound numerals watched idle busy quiet warned :=
  ⟨idle_quiet, busy_warned,
    (evaluate_sound_iff numerals watched idle busy quiet warned idle_quiet
      busy_warned idle_within).mpr watched_clear⟩

open SoundnessWitness in
theorem evaluateQuota_severity_watched :
    quiet.severity.rank ≤ warned.severity.rank := by
  have hbusy : Repository.aggregateUsage ⟨[watched], [] ++
      [⟨"t", 0, 1, 6, 10, some 2, .known⟩]⟩ ⟨"t"⟩ 0 1 = busy := by
    simp [Repository.aggregateUsage, UsageRollupRow.knownCost, busy]
  refine @evaluateQuota_severity numerals ⟨[watched], []⟩ ⟨"t"⟩ "q" 0 1
    [⟨"t", 0, 1, 6, 10, some 2, .known⟩] watched quiet warned
    (by simp [UsageRollupRow.knownCost]) rfl ?_
    (evaluateQuota_ok.mpr ⟨watched, rfl, idle_quiet⟩)
    (evaluateQuota_ok.mpr ⟨watched, rfl, ?_⟩)
  · exact hbusy ▸ watched_clear.carried
  · exact hbusy ▸ busy_warned

open SoundnessWitness in
/-- Without a cost cap the owner is alerted and new runs are blocked before
anything is used. -/
theorem unset_cap_blocks :
    ¬ ∀ (numerals : Numerals) (policy : QuotaPolicyRow)
        (agg agg' : Aggregate) (out out' : QuotaEnforcementActionOut),
      evaluate numerals policy agg = .ok out →
        evaluate numerals policy agg' = .ok out' → agg.Within agg' →
          Sound numerals policy agg agg' out out' := by
  intro hall
  have hsound := hall numerals tokensOnly idle idle blocked blocked
    idle_blocked idle_blocked ⟨le_rfl, le_rfl, le_rfl⟩
  have hunset : tokensOnly.dimension "cost_cap_usd" = .null := rfl
  exact hsound.absent (.cost 0 0) (by decide) .costCap rfl hunset

end AiTeam.Quota
