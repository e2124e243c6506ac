/-
Usage summaries: what one finished run contributes (`aggregateUsage`), how its
cost is measured, and how a contribution is merged into the cumulative payload
of its hour.  SHA-256, date texts and the rounding of costs are parameters;
counters are added exactly, as doubles add integers up to `maxSafeInteger`.
-/
import Mathlib.Algebra.GroupWithZero.Nat
import Mathlib.Algebra.Order.Ring.Rat
import AiTeam.Table

namespace AiTeam.Usage

structure Config where
  /-- The hex SHA-256 of a text. -/
  sha256 : String → String
  /-- `new Date(instant).toISOString()`. -/
  toISOString : Int → String
  /-- `toFixed(12)` of the double nearest to a decimal text, from 1e21 on
  undefined. -/
  toFixed : String → Option String
  /-- `CAST(ROUND(CAST(text AS REAL) * 100) AS INTEGER)`. -/
  roundedMinor : String → Nat

def maxSafeInteger : Nat := 9007199254740991

/-- A JSON cost: a decimal text, or the double nearest to a decimal text. -/
inductive Amount where
  | text (decimal : String)
  | real (decimal : String)
deriving DecidableEq

inductive PricingStatus where
  | known
  | unknown
deriving DecidableEq

/-- The counters of a summary.  Tokens are what the provider counted. -/
@[ext] structure Counters where
  promptCount : Nat
  settledCount : Nat
  errorCount : Nat
  inputTokens : ℚ
  outputTokens : ℚ
  cacheTokens : ℚ
  durationMsTotal : Nat
  runCount : Nat
  tokenTotal : ℚ
  durationSecondsTotal : Nat
deriving DecidableEq

def Counters.add (old new : Counters) : Counters where
  promptCount := old.promptCount + new.promptCount
  settledCount := old.settledCount + new.settledCount
  errorCount := old.errorCount + new.errorCount
  inputTokens := old.inputTokens + new.inputTokens
  outputTokens := old.outputTokens + new.outputTokens
  cacheTokens := old.cacheTokens + new.cacheTokens
  durationMsTotal := old.durationMsTotal + new.durationMsTotal
  runCount := old.runCount + new.runCount
  tokenTotal := old.tokenTotal + new.tokenTotal
  durationSecondsTotal := old.durationSecondsTotal + new.durationSecondsTotal

instance : Add Counters := ⟨Counters.add⟩

instance : Zero Counters := ⟨⟨0, 0, 0, 0, 0, 0, 0, 0, 0, 0⟩⟩

/-- `UsageSummary`.  Schema version and currency are constants. -/
structure UsageSummary where
  summaryId : String
  tenantId : String
  memberId : String
  employeeId : String
  windowStart : String
  windowEnd : String
  counters : Counters
  costMinor : Option Nat
  pricingVersion : Option Int
  pricingStatus : PricingStatus
  costTotal : Option Amount
deriving DecidableEq

/-- The provider's usage record of an assistant message.  A counter that is
not a finite number is `none`. -/
structure ProviderUsage where
  input : Option ℚ
  output : Option ℚ
  cacheRead : Option ℚ
  cacheWrite : Option ℚ
deriving DecidableEq

inductive SessionEntry where
  | assistant (usage : Option ProviderUsage)
  | other
deriving DecidableEq

inductive BillingMode where
  | token
  | request
deriving DecidableEq

structure RuntimePricingSnapshot where
  pricingVersion : Int
  pricingStatus : PricingStatus
  billingMode : BillingMode
  inputUsdPerMillion : Option String
  outputUsdPerMillion : Option String
  cacheReadUsdPerMillion : Option String
  cacheWriteUsdPerMillion : Option String
  requestUsd : Option String
  currency : String
deriving DecidableEq

structure UsageCapture where
  tenantId : String
  memberId : String
  employeeId : String
  startedAt : Int
  endedAt : Int
  entries : List SessionEntry
  settled : Bool
  pricing : Option RuntimePricingSnapshot
deriving DecidableEq

/-- A decimal text with at most `places` decimals, in units of the last
place: `/^\d+(\.\d{1,places})?$/`, then whole and padded fraction. -/
def decimalUnits (places : Nat) (text : String) : Option Nat :=
  let whole := text.toList.takeWhile Char.isDigit
  let rest := text.toList.dropWhile Char.isDigit
  if whole = [] then none
  else match rest with
    | [] => some (Nat.ofDigitChars 10 whole 0 * 10 ^ places)
    | point :: fraction =>
        if point = '.' ∧ fraction ≠ [] ∧ fraction.length ≤ places ∧
            fraction.all Char.isDigit then
          some (Nat.ofDigitChars 10 whole 0 * 10 ^ places +
            Nat.ofDigitChars 10
              (fraction ++ List.replicate (places - fraction.length) '0') 0)
        else none

/-- A text of whole digits, a point and at most `places` digits. -/
theorem decimalUnits_ofList (places : Nat) {whole fraction : List Char}
    (hwhole : ∀ c ∈ whole, c.isDigit) (hne : whole ≠ [])
    (hfraction : ∀ c ∈ fraction, c.isDigit) (hsome : fraction ≠ [])
    (hlength : fraction.length ≤ places) :
    decimalUnits places (String.ofList (whole ++ '.' :: fraction)) =
      some (Nat.ofDigitChars 10 whole 0 * 10 ^ places +
        Nat.ofDigitChars 10
          (fraction ++ List.replicate (places - fraction.length) '0') 0) := by
  have hpoint : Char.isDigit '.' = false := by decide
  have htake : (whole ++ '.' :: fraction).takeWhile Char.isDigit = whole := by
    rw [List.takeWhile_append_of_pos hwhole]
    simp [hpoint]
  have hdrop : (whole ++ '.' :: fraction).dropWhile Char.isDigit =
      '.' :: fraction := by
    rw [List.dropWhile_append_of_pos hwhole]
    simp [hpoint]
  have hall : fraction.all Char.isDigit = true := List.all_eq_true.mpr hfraction
  simp only [decimalUnits, String.toList_ofList, htake, hdrop, hne, if_false]
  exact if_pos ⟨trivial, hsome, hlength, hall⟩

/-- Exact USD units: twelve decimals. -/
def usdUnits (config : Config) : Option Amount → Option Nat
  | some (.text decimal) => decimalUnits 12 decimal
  | some (.real decimal) => (config.toFixed decimal).bind (decimalUnits 12)
  | none => none

def usdDecimal (units : Nat) : String :=
  let fraction := Nat.toDigits 10 (units % 10 ^ 12)
  String.ofList (Nat.toDigits 10 (units / 10 ^ 12) ++ '.' ::
    (List.replicate (12 - fraction.length) '0' ++ fraction))

/-- A decimal that was written by `usdDecimal` reads back. -/
theorem decimalUnits_usdDecimal (units : Nat) :
    decimalUnits 12 (usdDecimal units) = some units := by
  have hdigit : ∀ n, ∀ c ∈ Nat.toDigits 10 n, c.isDigit := fun n c hc =>
    Nat.isDigit_of_mem_toDigits (by decide) (by decide) hc
  have hlength : (Nat.toDigits 10 (units % 10 ^ 12)).length ≤ 12 :=
    (Nat.length_toDigits_le_iff (by decide) (by decide)).mpr
      (Nat.mod_lt _ (by decide))
  rw [usdDecimal, decimalUnits_ofList 12 (hdigit _) Nat.toDigits_ne_nil]
  · -- the padding in front counts for nothing, and none is added behind
    simp only [List.length_append, List.length_replicate]
    rw [show 12 - (12 - (Nat.toDigits 10 (units % 10 ^ 12)).length +
        (Nat.toDigits 10 (units % 10 ^ 12)).length) = 0 by omega,
      List.replicate_zero, List.append_nil, Nat.ofDigitChars_append,
      Nat.ofDigitChars_replicate_zero, Nat.mul_zero,
      Nat.ofDigitChars_ten_toDigits, Nat.ofDigitChars_ten_toDigits,
      Nat.div_add_mod']
  · intro c hc
    rcases List.mem_append.mp hc with hpad | hc
    · rw [List.eq_of_mem_replicate hpad]
      decide
    · exact hdigit _ c hc
  · exact List.append_ne_nil_of_right_ne_nil _ Nat.toDigits_ne_nil
  · simp only [List.length_append, List.length_replicate]
    omega

def minorFromUsdUnits (units : Option Nat) : Option Nat :=
  units.bind fun units =>
    let minor := (units + 5000000000) / 10000000000
    if minor > maxSafeInteger then none else some minor

structure WorkUsage where
  inputTokens : Nat
  outputTokens : Nat
  cacheTokens : Nat
  tokenTotal : Nat
  costTotal : Option String
  pricingStatus : PricingStatus
  pricingVersion : Option Int
deriving DecidableEq

/-- The sums over the four provider counters. -/
structure Totals where
  input : Nat
  output : Nat
  cacheRead : Nat
  cacheWrite : Nat
deriving DecidableEq

/-- `Number.isSafeInteger(value) && value >= 0`, then the checked sum. -/
def addSafe (total : Nat) (value : Option ℚ) : Option Nat :=
  value.bind fun value =>
    if value.den ≠ 1 ∨ value < 0 ∨ value.num.toNat > maxSafeInteger ∨
        total + value.num.toNat > maxSafeInteger then none
    else some (total + value.num.toNat)

/-- The loop over the assistant entries of `measureWorkUsage`. -/
def measureTotals : List (Option ProviderUsage) → Totals → Option Totals
  | [], totals => some totals
  | none :: _, _ => none
  | some usage :: rest, totals => do
      let input ← addSafe totals.input usage.input
      let output ← addSafe totals.output usage.output
      let cacheRead ← addSafe totals.cacheRead usage.cacheRead
      let cacheWrite ← addSafe totals.cacheWrite usage.cacheWrite
      measureTotals rest ⟨input, output, cacheRead, cacheWrite⟩

def assistants (entries : List SessionEntry) : List (Option ProviderUsage) :=
  entries.filterMap fun
    | .assistant usage => some usage
    | .other => none

/-- The rates that the billing mode reads, in units of six decimals; `none`
when one of them is missing or malformed. -/
def rateUnits (pricing : RuntimePricingSnapshot) : Option (List Nat) :=
  let rates := match pricing.billingMode with
    | .request => [pricing.requestUsd]
    | .token => [pricing.inputUsdPerMillion, pricing.outputUsdPerMillion,
        pricing.cacheReadUsdPerMillion, pricing.cacheWriteUsdPerMillion]
  rates.mapM fun rate => rate.bind (decimalUnits 6)

/-- The exact cost in USD units, when the pricing is known. -/
def measuredCost (pricing : Option RuntimePricingSnapshot) (totals : Totals) :
    Option Nat := do
  let pricing ← pricing
  if pricing.pricingStatus = .known ∧ pricing.currency = "USD" then
    let units ← rateUnits pricing
    match pricing.billingMode with
    | .request => some (units.headD 0 * 1000000)
    | .token => some (List.zipWith (· * ·)
        [totals.input, totals.output, totals.cacheRead, totals.cacheWrite]
        units).sum
  else none

def measureWorkUsage (entries : List SessionEntry)
    (pricing : Option RuntimePricingSnapshot) : Option WorkUsage :=
  if assistants entries = [] then none
  else (measureTotals (assistants entries) ⟨0, 0, 0, 0⟩).map fun totals =>
    let cost := measuredCost pricing totals
    { inputTokens := totals.input
      outputTokens := totals.output
      cacheTokens := totals.cacheRead + totals.cacheWrite
      tokenTotal := totals.input + totals.output + totals.cacheRead +
        totals.cacheWrite
      costTotal := cost.map usdDecimal
      pricingStatus := if cost.isSome then .known else .unknown
      pricingVersion := pricing.map (·.pricingVersion) }

/-- `finite`: what is not a nonnegative number counts as zero. -/
def finite (value : Option ℚ) : ℚ :=
  max (value.getD 0) 0

/-- The start of the UTC hour of an instant. -/
def hourStart (instant : Int) : Int :=
  instant - instant % 3600000

/-- The text whose hash is the summary id. -/
def summaryText (config : Config) (capture : UsageCapture)
    (pricingKnown : Bool) : String :=
  capture.tenantId ++ ":" ++ capture.memberId ++ ":" ++ capture.employeeId ++
    ":" ++ config.toISOString (hourStart capture.startedAt) ++ ":" ++
    (match capture.pricing with
      | some pricing => toString pricing.pricingVersion
      | none => "unknown") ++
    (if pricingKnown then "" else ":unknown")

/-- `measured?.cost_total`, when the pricing is known. -/
def capturedCost (capture : UsageCapture) : Option String :=
  (measureWorkUsage capture.entries capture.pricing).bind fun measured =>
    if measured.pricingStatus = .known then measured.costTotal else none

def aggregateUsage (config : Config) (capture : UsageCapture) :
    UsageSummary :=
  let usages := (assistants capture.entries).filterMap id
  let input := (usages.map fun usage => finite usage.input).sum
  let output := (usages.map fun usage => finite usage.output).sum
  let cache := (usages.map fun usage => finite usage.cacheRead).sum +
    (usages.map fun usage => finite usage.cacheWrite).sum
  let costTotal := capturedCost capture
  let pricingKnown := costTotal.isSome
  let duration := (capture.endedAt - capture.startedAt).toNat
  { summaryId := config.sha256 (summaryText config capture pricingKnown)
    tenantId := capture.tenantId
    memberId := capture.memberId
    employeeId := capture.employeeId
    windowStart := config.toISOString (hourStart capture.startedAt)
    windowEnd := config.toISOString (hourStart capture.startedAt + 3600000)
    counters :=
      { promptCount := 1
        settledCount := if capture.settled then 1 else 0
        errorCount := if capture.settled then 0 else 1
        inputTokens := input
        outputTokens := output
        cacheTokens := cache
        durationMsTotal := duration
        runCount := 1
        tokenTotal := input + output + cache
        durationSecondsTotal := (duration + 999) / 1000 }
    costMinor := minorFromUsdUnits
      (usdUnits config (costTotal.map Amount.text))
    pricingVersion := capture.pricing.map (·.pricingVersion)
    pricingStatus := if pricingKnown then .known else .unknown
    costTotal := costTotal.map Amount.text }

/-- The SQL function `add_usage_cost`. -/
def addUsageCost (config : Config) (left right : Option Amount) :
    Option String := do
  let left ← usdUnits config left
  let right ← usdUnits config right
  some (usdDecimal (left + right))

end AiTeam.Usage
