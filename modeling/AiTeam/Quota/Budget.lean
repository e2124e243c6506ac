/-
What a quota evaluation should answer, from the limits a policy configures and
the usage counted against each, and exactly when `evaluate_quota` answers it.
-/
import AiTeam.Fallible
import AiTeam.Quota.Evaluation

namespace AiTeam.Quota

open AiTeam.Fallible

section

variable {ι α : Type} [Preorder α]

/-- A configured limit that the usage counted against it has come up to. -/
def Reached (limit : ι → Option α) (used : ι → α) (i : ι) : Prop :=
  ∃ bound, limit i = some bound ∧ bound ≤ used i

theorem Reached.mono {limit : ι → Option α} {used used' : ι → α} {i : ι}
    (h : Reached limit used i) (hle : used i ≤ used' i) :
    Reached limit used' i := by
  obtain ⟨bound, hlimit, hbound⟩ := h
  exact ⟨bound, hlimit, le_trans hbound hle⟩

theorem Reached.configured {limit : ι → Option α} {used : ι → α} {i : ι}
    (h : Reached limit used i) : limit i ≠ none := by
  obtain ⟨bound, hlimit, -⟩ := h
  simp [hlimit]

end

inductive Limit where
  | alertThreshold
  | costCap
  | tokenCap
  | runCap
deriving DecidableEq

namespace Limit

def key : Limit → String
  | .alertThreshold => "alert_threshold"
  | .costCap => "cost_cap_usd"
  | .tokenCap => "token_cap"
  | .runCap => "run_cap"

def action : Limit → ActionLabel
  | .alertThreshold => .alertThreshold
  | .costCap => .notifyOwner
  | .tokenCap => .notifyOwner
  | .runCap => .suggestThrottle

end Limit

/-- The limit that a detail part reports as reached. -/
def DetailPart.limit : DetailPart → Option Limit
  | .threshold _ => some .alertThreshold
  | .cost _ _ => some .costCap
  | .token _ _ => some .tokenCap
  | .run _ _ => some .runCap
  | .within => none

def QuotaPolicyRow.Configures (policy : QuotaPolicyRow) (limit : Limit) :
    Prop :=
  policy.dimension limit.key ≠ .null

/-- An unknown cost counts for nothing. -/
def Aggregate.knownCost (agg : Aggregate) : ℚ := agg.costTotal.getD 0

/-- Every counter of the first is at most that of the second. -/
structure Aggregate.Within (agg agg' : Aggregate) : Prop where
  runCount : agg.runCount ≤ agg'.runCount
  tokenTotal : agg.tokenTotal ≤ agg'.tokenTotal
  knownCost : agg.knownCost ≤ agg'.knownCost

/-- The cap of a counter, none where the comparison raises. -/
def counterCap : Dimension → Option ℚ
  | .null => none
  | .bool value => some (if value then 1 else 0)
  | .number value => some value
  | .text _ => none
  | .compound => none

section

variable (numerals : Numerals) (policy : QuotaPolicyRow) (agg : Aggregate)

/-- The limits a policy configures; only a positive threshold is one. -/
def limits : Limit → Option ℚ
  | .alertThreshold =>
    (toFloat numerals (policy.dimension "alert_threshold")).filter (0 < ·)
  | .costCap =>
    if policy.dimension "cost_cap_usd" = .null then none
    else (toDecimal numerals (policy.dimension "cost_cap_usd")).toOption
  | .tokenCap => counterCap (policy.dimension "token_cap")
  | .runCap => counterCap (policy.dimension "run_cap")

/-- The usage counted against each limit: a threshold bounds the runs as well
as the whole units of the cost. -/
def used : Limit → ℚ
  | .alertThreshold => max agg.runCount ⌊agg.knownCost⌋
  | .costCap => agg.knownCost
  | .tokenCap => agg.tokenTotal
  | .runCap => agg.runCount

/-- The policy's limit is reached by the usage. -/
def QuotaPolicyRow.Reaches (limit : Limit) : Prop :=
  Reached (limits numerals policy) (used agg) limit

/-- The ratio that the evaluation compares with one. -/
def QuotaPolicyRow.usageRatio : Option ℚ :=
  Quota.usageRatio numerals (policy.dimension "alert_threshold") agg.runCount
    agg.knownCost

end

def Severity.rank : Severity → Nat
  | .info => 0
  | .warn => 1
  | .alert => 2

/-- What is asked of the answer `out` for `agg` and, against the answer `out'`
for a usage that is nowhere smaller, of the ratio and the severity. -/
structure Sound (numerals : Numerals) (policy : QuotaPolicyRow)
    (agg agg' : Aggregate) (out out' : QuotaEnforcementActionOut) :
    Prop where
  within : .withinBudget ∈ out.actions ↔
    ∀ limit, ¬ policy.Reaches numerals agg limit
  acts : ∀ limit : Limit, limit.action ∈ out.actions ↔
    ∃ reached : Limit, reached.action = limit.action ∧
      policy.Reaches numerals agg reached
  blocks : .blockNewRuns ∈ out.actions ↔
    policy.enforcement = .hard ∧ ∃ limit, policy.Reaches numerals agg limit
  absent : ∀ part ∈ out.detail, ∀ limit, part.limit = some limit →
    policy.Configures limit
  ratio : ∀ x, policy.usageRatio numerals agg = some x →
    ∃ y, policy.usageRatio numerals agg' = some y ∧ x ≤ y
  severity : out.severity.rank ≤ out'.severity.rank

/-- The cost cap is set, and a threshold is neither hidden behind a run count
below it nor measured by the runs after it was measured by a larger cost. -/
structure Clear (numerals : Numerals) (policy : QuotaPolicyRow)
    (agg agg' : Aggregate) : Prop where
  costCap : policy.Configures .costCap
  shown : ∀ bound, limits numerals policy .alertThreshold = some bound →
    0 < agg.runCount → (agg.runCount : ℚ) < bound →
      (⌊agg.knownCost⌋ : ℚ) < bound
  carried : ∀ bound, limits numerals policy .alertThreshold = some bound →
    agg.runCount = 0 → 0 < agg'.runCount →
      ⌊agg.knownCost⌋ ≤ (agg'.runCount : ℤ)

/-! ### The answer as a function of the branches taken -/

/-- The four branches of the evaluation in their order. -/
def drafted (hit : Limit → Bool) (part : Limit → DetailPart) : Draft :=
  let draft := Draft.empty.note (hit .alertThreshold)
    .alertThreshold .warn (part .alertThreshold)
  let draft := draft.note (hit .costCap) .notifyOwner .alert (part .costCap)
  let draft := draft.note (hit .tokenCap) .notifyOwner draft.warned
    (part .tokenCap)
  draft.note (hit .runCap) .suggestThrottle draft.warned (part .runCap)

section

variable (hit : Limit → Bool) (part : Limit → DetailPart)
  (policy : QuotaPolicyRow)

theorem exists_limit {p : Limit → Prop} :
    (∃ limit, p limit) ↔
      p .alertThreshold ∨ p .costCap ∨ p .tokenCap ∨ p .runCap := by
  constructor
  · rintro ⟨limit, h⟩
    cases limit <;> simp [h]
  · rintro (h | h | h | h)
    · exact ⟨_, h⟩
    · exact ⟨_, h⟩
    · exact ⟨_, h⟩
    · exact ⟨_, h⟩

@[simp] theorem note_actions (draft : Draft) (taken : Bool)
    (action : ActionLabel) (severity : Severity) (note : DetailPart) :
    (draft.note taken action severity note).actions =
      draft.actions ++ if taken then [action] else [] := by
  cases taken <;> simp [Draft.note]

@[simp] theorem note_detail (draft : Draft) (taken : Bool)
    (action : ActionLabel) (severity : Severity) (note : DetailPart) :
    (draft.note taken action severity note).detail =
      draft.detail ++ if taken then [note] else [] := by
  cases taken <;> simp [Draft.note]

@[simp] theorem note_severity (draft : Draft) (taken : Bool)
    (action : ActionLabel) (severity : Severity) (note : DetailPart) :
    (draft.note taken action severity note).severity =
      if taken then severity else draft.severity := by
  cases taken <;> simp [Draft.note]

theorem mem_drafted_actions (label : ActionLabel) :
    label ∈ (drafted hit part).actions ↔
      ∃ limit : Limit, limit.action = label ∧ hit limit = true := by
  rw [exists_limit]
  simp only [drafted, Draft.empty, note_actions, List.nil_append,
    List.mem_append, List.mem_ite_nil_right, List.mem_singleton, Limit.action,
    or_assoc]
  grind

theorem mem_drafted_detail (note : DetailPart) :
    note ∈ (drafted hit part).detail ↔
      ∃ limit, part limit = note ∧ hit limit = true := by
  rw [exists_limit]
  simp only [drafted, Draft.empty, note_detail, List.nil_append,
    List.mem_append, List.mem_ite_nil_right, List.mem_singleton, or_assoc]
  grind

theorem drafted_actions_ne_nil :
    (drafted hit part).actions ≠ [] ↔ ∃ limit, hit limit = true := by
  rw [ne_eq, List.eq_nil_iff_forall_not_mem, not_forall]
  constructor
  · rintro ⟨label, hlabel⟩
    obtain ⟨limit, -, hhit⟩ :=
      (mem_drafted_actions hit part _).mp (not_not.mp hlabel)
    exact ⟨limit, hhit⟩
  · rintro ⟨limit, hhit⟩
    exact ⟨_, not_not.mpr
      ((mem_drafted_actions hit part _).mpr ⟨limit, rfl, hhit⟩)⟩

theorem drafted_severity_alert :
    (drafted hit part).severity = .alert ↔ hit .costCap = true := by
  simp only [drafted, Draft.empty, note_severity, Draft.warned]
  cases hit .costCap <;> cases hit .alertThreshold <;>
    cases hit .tokenCap <;> cases hit .runCap <;> simp

theorem drafted_severity_info :
    (drafted hit part).severity = .info ↔ ¬ ∃ limit, hit limit = true := by
  simp only [drafted, Draft.empty, note_severity, Draft.warned, exists_limit]
  cases hit .costCap <;> cases hit .alertThreshold <;>
    cases hit .tokenCap <;> cases hit .runCap <;> simp

theorem conclude_nil {draft : Draft} (hnil : draft.actions = []) :
    (draft.conclude policy).actions = [.withinBudget] ∧
      (draft.conclude policy).severity = draft.severity ∧
      (draft.conclude policy).detail = draft.detail ++ [.within] := by
  simp [Draft.conclude, hnil]

theorem conclude_soft {draft : Draft} (hne : draft.actions ≠ [])
    (hsoft : policy.enforcement ≠ .hard) :
    (draft.conclude policy).actions = draft.actions ∧
      (draft.conclude policy).severity = draft.severity ∧
      (draft.conclude policy).detail = draft.detail := by
  simp [Draft.conclude, hne, hsoft]

theorem conclude_hard {draft : Draft} (hne : draft.actions ≠ [])
    (hhard : policy.enforcement = .hard) :
    (draft.conclude policy).actions = draft.actions ++ [.blockNewRuns] ∧
      (draft.conclude policy).severity = .alert ∧
      (draft.conclude policy).detail = draft.detail := by
  simp [Draft.conclude, hne, hhard]

theorem conclude_actions {draft : Draft} (hne : draft.actions ≠ [])
    (label : ActionLabel) :
    label ∈ (draft.conclude policy).actions ↔
      label ∈ draft.actions ∨
        (label = .blockNewRuns ∧ policy.enforcement = .hard) := by
  by_cases hhard : policy.enforcement = .hard
  · simp [(conclude_hard policy hne hhard).1, hhard]
  · simp [(conclude_soft policy hne hhard).1, hhard]

theorem withinBudget_mem :
    .withinBudget ∈ ((drafted hit part).conclude policy).actions ↔
      ¬ ∃ limit, hit limit = true := by
  rw [← drafted_actions_ne_nil hit part]
  by_cases hnil : (drafted hit part).actions = []
  · simp [(conclude_nil policy hnil).1, hnil]
  · rw [conclude_actions policy hnil, mem_drafted_actions]
    simp [hnil, exists_limit, Limit.action]

theorem limitAction_mem (limit : Limit) :
    limit.action ∈ ((drafted hit part).conclude policy).actions ↔
      ∃ reached : Limit, reached.action = limit.action ∧
        hit reached = true := by
  rw [← mem_drafted_actions hit part]
  by_cases hnil : (drafted hit part).actions = []
  · rw [(conclude_nil policy hnil).1, hnil]
    cases limit <;> simp [Limit.action]
  · rw [conclude_actions policy hnil]
    cases limit <;> simp [Limit.action]

theorem blockNewRuns_mem :
    .blockNewRuns ∈ ((drafted hit part).conclude policy).actions ↔
      policy.enforcement = .hard ∧ ∃ limit, hit limit = true := by
  rw [← drafted_actions_ne_nil hit part]
  by_cases hnil : (drafted hit part).actions = []
  · simp [(conclude_nil policy hnil).1, hnil]
  · rw [conclude_actions policy hnil, mem_drafted_actions]
    simp [hnil, exists_limit, Limit.action]

theorem detail_mem (note : DetailPart) :
    note ∈ ((drafted hit part).conclude policy).detail →
      note = .within ∨ ∃ limit, part limit = note ∧ hit limit = true := by
  rw [← mem_drafted_detail hit part]
  by_cases hnil : (drafted hit part).actions = []
  · simp [(conclude_nil policy hnil).2.2, or_comm]
  · by_cases hhard : policy.enforcement = .hard
    · rw [(conclude_hard policy hnil hhard).2.2]
      exact Or.inr
    · rw [(conclude_soft policy hnil hhard).2.2]
      exact Or.inr

theorem part_mem {limit : Limit} (h : hit limit = true) :
    part limit ∈ ((drafted hit part).conclude policy).detail := by
  have hmem : part limit ∈ (drafted hit part).detail :=
    (mem_drafted_detail hit part _).mpr ⟨limit, rfl, h⟩
  have hne := (drafted_actions_ne_nil hit part).mpr ⟨limit, h⟩
  by_cases hhard : policy.enforcement = .hard
  · rw [(conclude_hard policy hne hhard).2.2]
    exact hmem
  · rw [(conclude_soft policy hne hhard).2.2]
    exact hmem

theorem severity_alert :
    ((drafted hit part).conclude policy).severity = .alert ↔
      hit .costCap = true ∨
        (policy.enforcement = .hard ∧ ∃ limit, hit limit = true) := by
  rw [← drafted_severity_alert hit part, ← drafted_actions_ne_nil hit part]
  by_cases hnil : (drafted hit part).actions = []
  · simp [(conclude_nil policy hnil).2.1, hnil]
  · by_cases hhard : policy.enforcement = .hard
    · simp [(conclude_hard policy hnil hhard).2.1, hhard, hnil]
    · simp [(conclude_soft policy hnil hhard).2.1, hhard]

theorem severity_info :
    ((drafted hit part).conclude policy).severity = .info ↔
      ¬ ∃ limit, hit limit = true := by
  rw [← drafted_severity_info hit part]
  by_cases hnil : (drafted hit part).actions = []
  · rw [(conclude_nil policy hnil).2.1]
  · by_cases hhard : policy.enforcement = .hard
    · have hsome := (drafted_actions_ne_nil hit part).mp hnil
      have hnot := mt (drafted_severity_info hit part).mp (not_not.mpr hsome)
      simp [(conclude_hard policy hnil hhard).2.1, hnot]
    · rw [(conclude_soft policy hnil hhard).2.1]

/-- The severity is monotone in the branches taken. -/
theorem severity_mono {hit hit' : Limit → Bool}
    (hle : ∀ limit, hit limit = true → hit' limit = true)
    (part part' : Limit → DetailPart) :
    ((drafted hit part).conclude policy).severity.rank ≤
      ((drafted hit' part').conclude policy).severity.rank := by
  have hsome : (∃ limit, hit limit = true) → ∃ limit, hit' limit = true := by
    rintro ⟨limit, hlimit⟩
    exact ⟨limit, hle limit hlimit⟩
  have hinfo := severity_info hit part policy
  have hinfo' := severity_info hit' part' policy
  have halert := severity_alert hit part policy
  have halert' := severity_alert hit' part' policy
  have hcost := hle .costCap
  cases h : ((drafted hit part).conclude policy).severity <;>
    cases h' : ((drafted hit' part').conclude policy).severity <;>
    grind [Severity.rank]

end

end AiTeam.Quota
