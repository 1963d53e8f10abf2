import Tenet.Lib.Float64
import Tenet.Reconnect

/-! The delay before a reconnect attempt: `calculateBackoff`, for the configurations that `Validate`
accepts. -/

namespace Tenet

open Lib

/-- `ReconnectConfig` with the fields that decide the delay; durations are in nanoseconds. The defaults
are those of `DefaultReconnectConfig`. -/
structure BackoffConfig extends ReconnectConfig where
  initialDelay : Int := 1000000000
  maxDelay : Int := 300000000000
  backoffMultiplier : Float64 := 2
  jitterFactor : Float64 := .ofRat (1 / 5)
  reconnectTimeout : Int := 30000000000

namespace BackoffConfig

def validate (rc : BackoffConfig) : List String :=
  (if rc.maxRetries < 0 then ["ReconnectConfig.MaxRetries must be >= 0"] else []) ++
  (if rc.initialDelay ≤ 0 then ["ReconnectConfig.InitialDelay must be positive"] else []) ++
  (if rc.maxDelay ≤ 0 then ["ReconnectConfig.MaxDelay must be positive"] else []) ++
  (if rc.initialDelay > 0 ∧ rc.maxDelay > 0 ∧ rc.maxDelay < rc.initialDelay then
    ["ReconnectConfig.MaxDelay must be >= ReconnectConfig.InitialDelay"] else []) ++
  (if rc.backoffMultiplier < 1 then ["ReconnectConfig.BackoffMultiplier must be >= 1"] else []) ++
  (if rc.jitterFactor < 0 ∨ 1 < rc.jitterFactor then
    ["ReconnectConfig.JitterFactor must be in [0,1]"] else []) ++
  if rc.reconnectTimeout ≤ 0 then ["ReconnectConfig.ReconnectTimeout must be positive"] else []

def exponential (rc : BackoffConfig) (minDelay attempt : Int) : Float64 :=
  .ofRat minDelay * rc.backoffMultiplier.pow (attempt - 1).toNat

/-- `random` is the value of `randFloat`. -/
def withJitter (rc : BackoffConfig) (delay random : Float64) : Float64 :=
  if 0 < rc.jitterFactor then delay + delay * rc.jitterFactor * (2 * random - 1) else delay

/-- The conversion of a NaN is unspecified. -/
def calculateBackoff (rc : BackoffConfig) (attempt : Int) (random : Float64) : Option Int :=
  let attempt := if attempt < 1 then 1 else attempt
  let maxDelay := if rc.maxDelay ≤ 0 then rc.initialDelay else rc.maxDelay
  let minDelay := if rc.initialDelay ≤ 0 then 1000000 else rc.initialDelay
  let maxDelay := if maxDelay < minDelay then minDelay else maxDelay
  let delay := rc.withJitter (rc.exponential minDelay attempt) random
  (Float64.clamp (.ofRat minDelay) (.ofRat maxDelay) delay).truncate

def DelayBounded (rc : BackoffConfig) (attempt : Int) (random : ℚ) : Prop :=
  ∃ delay, rc.calculateBackoff attempt (.ofRat random) = some delay ∧
    rc.initialDelay ≤ delay ∧ delay ≤ rc.maxDelay

def Overflows (rc : BackoffConfig) (attempt : Int) : Prop :=
  match rc.backoffMultiplier with
  | .finite multiplier _ => Float64.limit ≤ rc.initialDelay * multiplier ^ (attempt - 1).toNat
  | .posInf => 2 ≤ attempt
  | _ => False

end BackoffConfig

open BackoffConfig

example : ({} : BackoffConfig).validate = [] := by decide +kernel

structure BackoffConfig.Accepted (rc : BackoffConfig) : Prop where
  positive : 0 < rc.initialDelay
  ordered : rc.initialDelay ≤ rc.maxDelay
  multiplier : ¬rc.backoffMultiplier < 1
  jitterNonneg : ¬rc.jitterFactor < 0
  jitterSmall : ¬1 < rc.jitterFactor

theorem accepted_of_validate {rc : BackoffConfig} (valid : rc.validate = []) : rc.Accepted := by
  simp only [validate, List.append_eq_nil_iff, ite_eq_right_iff, List.cons_ne_nil, imp_false,
    not_or, not_lt, not_le, gt_iff_lt, not_and] at valid
  obtain ⟨⟨⟨⟨⟨⟨_, initial⟩, max⟩, ordered⟩, multiplier⟩, low, high⟩, _⟩ := valid
  exact ⟨initial, ordered initial max, multiplier, low, high⟩

theorem signedRandom {random : ℚ} (unit : 0 ≤ random ∧ random < 1) :
    ∃ small, 2 * Float64.ofRat random - 1 = .finite (2 * random - 1) small := by
  have smallRandom : -Float64.limit < random ∧ random < Float64.limit :=
    ⟨Float64.small_zero.1.trans_le unit.1, unit.2.trans Float64.small_one.2⟩
  have smallTwo : -Float64.limit < (2 : ℚ) ∧ (2 : ℚ) < Float64.limit :=
    Float64.small_of_int64 (by norm_num) (by norm_num)
  have smallDouble : -Float64.limit < 2 * random ∧ 2 * random < Float64.limit :=
    Float64.small_of_int64 (by linarith) (by linarith)
  have small : -Float64.limit < 2 * random - 1 ∧ 2 * random - 1 < Float64.limit :=
    Float64.small_of_int64 (by linarith) (by linarith)
  have two : (2 : Float64) = .finite 2 smallTwo := Float64.ofRat_small smallTwo
  refine ⟨small, ?_⟩
  rw [two, Float64.ofRat_small smallRandom, Float64.finite_mul_finite, Float64.ofRat_small smallDouble,
    Float64.one_eq, Float64.finite_sub_finite, Float64.ofRat_small small]

section Delay

variable {rc : BackoffConfig} (accepted : rc.Accepted)

include accepted

theorem multiplier_cases :
    (∃ multiplier small, rc.backoffMultiplier = .finite multiplier small ∧ 1 ≤ multiplier) ∨
      rc.backoffMultiplier = .posInf ∨ rc.backoffMultiplier = .nan := by
  have large := accepted.multiplier
  rw [Float64.one_eq] at large
  cases multiplier : rc.backoffMultiplier with
  | finite value small =>
      rw [multiplier, Float64.finite_lt_finite] at large
      exact Or.inl ⟨value, small, rfl, not_lt.mp large⟩
  | posInf => exact Or.inr (Or.inl rfl)
  | negInf =>
      rw [multiplier] at large
      exact absurd rfl large
  | nan => exact Or.inr (Or.inr rfl)

theorem jitter_cases (jitters : 0 < rc.jitterFactor) :
    ∃ factor small, rc.jitterFactor = .finite factor small ∧ 0 < factor ∧ factor ≤ 1 := by
  have high := accepted.jitterSmall
  rw [Float64.zero_eq] at jitters
  rw [Float64.one_eq] at high
  cases jitter : rc.jitterFactor with
  | finite value small =>
      rw [jitter, Float64.finite_lt_finite] at jitters high
      exact ⟨value, small, rfl, jitters, not_lt.mp high⟩
  | posInf =>
      rw [jitter] at high
      exact absurd rfl high
  | negInf =>
      rw [jitter] at jitters
      cases jitters
  | nan =>
      rw [jitter] at jitters
      exact absurd jitters (Float64.not_lt_nan _)

variable (fits : rc.maxDelay < 2 ^ 63)

include fits

theorem initialDelay_small : -Float64.limit < (rc.initialDelay : ℚ) ∧
    (rc.initialDelay : ℚ) < Float64.limit := by
  have positive : (0 : ℚ) < rc.initialDelay := by exact_mod_cast accepted.positive
  have bound : (rc.initialDelay : ℚ) < 2 ^ 63 := by exact_mod_cast accepted.ordered.trans_lt fits
  exact Float64.small_of_int64 (by linarith) bound

theorem maxDelay_small : -Float64.limit < (rc.maxDelay : ℚ) ∧ (rc.maxDelay : ℚ) < Float64.limit := by
  have positive : (0 : ℚ) < rc.maxDelay := by
    exact_mod_cast accepted.positive.trans_le accepted.ordered
  have bound : (rc.maxDelay : ℚ) < 2 ^ 63 := by exact_mod_cast fits
  exact Float64.small_of_int64 (by linarith) bound

theorem exponential_finite {multiplier : ℚ} {small : -Float64.limit < multiplier ∧
    multiplier < Float64.limit} (finite : rc.backoffMultiplier = .finite multiplier small)
    (large : 1 ≤ multiplier) (attempt : Int) :
    rc.exponential rc.initialDelay attempt =
      .ofRat (rc.initialDelay * multiplier ^ (attempt - 1).toNat) := by
  have start := initialDelay_small accepted fits
  have least : (1 : ℚ) ≤ rc.initialDelay := by exact_mod_cast accepted.positive
  have power : rc.backoffMultiplier.pow (attempt - 1).toNat =
      .ofRat (multiplier ^ (attempt - 1).toNat) := by
    rw [finite]
    cases (attempt - 1).toNat with
    | zero => rw [pow_zero]; exact Float64.one_eq.trans (Float64.ofRat_small _).symm
    | succ exponent => rfl
  have nonneg : 0 ≤ multiplier ^ (attempt - 1).toNat := by positivity
  rw [exponential, power, Float64.ofRat_small start]
  rcases Float64.ofRat_nonneg nonneg with ⟨_, inside⟩ | infinite
  · rw [inside, Float64.finite_mul_finite]
  · have outside : Float64.limit ≤ multiplier ^ (attempt - 1).toNat := by
      by_contra inside
      have bounded : -Float64.limit < multiplier ^ (attempt - 1).toNat ∧
          multiplier ^ (attempt - 1).toNat < Float64.limit :=
        ⟨(neg_lt_zero.mpr Float64.limit_pos).trans_le nonneg, not_le.mp inside⟩
      rw [Float64.ofRat_small bounded] at infinite
      cases infinite
    rw [infinite, Float64.finite_mul_posInf start (by linarith)]
    exact (Float64.ofRat_large (outside.trans (le_mul_of_one_le_left nonneg least))).symm

theorem exponential_cases (attempt : Int) (counted : 1 ≤ attempt) :
    (rc.backoffMultiplier = .nan ∧ 2 ≤ attempt ∧ rc.exponential rc.initialDelay attempt = .nan) ∨
      (rc.Overflows attempt ∧ rc.exponential rc.initialDelay attempt = .posInf) ∨
      (¬(rc.backoffMultiplier = .nan ∧ 2 ≤ attempt) ∧ ¬rc.Overflows attempt ∧
        ∃ delay small, rc.exponential rc.initialDelay attempt = .finite delay small ∧ 0 ≤ delay) := by
  have start := initialDelay_small accepted fits
  have positive : (0 : ℚ) < rc.initialDelay := by exact_mod_cast accepted.positive
  -- the first attempt waits for the initial delay, whatever the multiplier is
  have first (single : attempt = 1) :
      rc.exponential rc.initialDelay attempt = .finite rc.initialDelay start := by
    rw [exponential, single, Float64.ofRat_small start]
    change Float64.finite _ start * (1 : Float64) = _
    rw [Float64.one_eq, Float64.finite_mul_finite, mul_one, Float64.ofRat_small start]
  have later : attempt = 1 ∨ ∃ exponent, (attempt - 1).toNat = exponent + 1 ∧ 2 ≤ attempt := by
    rcases (Int.le_iff_lt_or_eq.mp counted) with more | one
    · exact Or.inr ⟨(attempt - 2).toNat, by omega, by omega⟩
    · exact Or.inl one.symm
  rcases multiplier_cases accepted with ⟨multiplier, small, finite, large⟩ | infinite | undefined
  · have value := exponential_finite accepted fits finite large attempt
    have nonneg : 0 ≤ rc.initialDelay * multiplier ^ (attempt - 1).toNat := by positivity
    have overflow : rc.Overflows attempt ↔
        Float64.limit ≤ rc.initialDelay * multiplier ^ (attempt - 1).toNat := by
      rw [Overflows, finite]
    by_cases overflows : rc.Overflows attempt
    · exact Or.inr (Or.inl ⟨overflows, value.trans (Float64.ofRat_large (overflow.mp overflows))⟩)
    · have bounded : -Float64.limit < rc.initialDelay * multiplier ^ (attempt - 1).toNat ∧
          rc.initialDelay * multiplier ^ (attempt - 1).toNat < Float64.limit :=
        ⟨(neg_lt_zero.mpr Float64.limit_pos).trans_le nonneg, not_le.mp (overflow.not.mp overflows)⟩
      refine Or.inr (Or.inr ⟨by simp [finite], overflows, _, bounded, ?_, nonneg⟩)
      exact value.trans (Float64.ofRat_small bounded)
  · rcases later with single | ⟨exponent, more, second⟩
    · refine Or.inr (Or.inr ⟨by simp [infinite], ?_, _, start, first single, positive.le⟩)
      rw [Overflows, infinite]
      omega
    · refine Or.inr (Or.inl ⟨?_, ?_⟩)
      · rw [Overflows, infinite]
        exact second
      · rw [exponential, infinite, more, Float64.ofRat_small start]
        exact Float64.finite_mul_posInf start positive
  · rcases later with single | ⟨exponent, more, second⟩
    · refine Or.inr (Or.inr ⟨by omega, ?_, _, start, first single, positive.le⟩)
      simp [Overflows, undefined]
    · refine Or.inl ⟨undefined, second, ?_⟩
      rw [exponential, undefined, more]
      exact Float64.mul_nan _

omit fits in
theorem withJitter_finite {delay : ℚ} (small : -Float64.limit < delay ∧ delay < Float64.limit)
    (nonneg : 0 ≤ delay) {random : ℚ} (unit : 0 ≤ random ∧ random < 1) :
    rc.withJitter (.finite delay small) (.ofRat random) ≠ .nan := by
  unfold withJitter
  split
  next jitters =>
    obtain ⟨factor, smallFactor, jitter, positive, high⟩ := jitter_cases accepted jitters
    obtain ⟨smallSign, sign⟩ := signedRandom unit
    have product : 0 ≤ delay * factor := mul_nonneg nonneg positive.le
    have smaller : delay * factor ≤ delay := mul_le_of_le_one_right nonneg high
    have smallProduct : -Float64.limit < delay * factor ∧ delay * factor < Float64.limit :=
      ⟨Float64.small_zero.1.trans_le product, smaller.trans_lt small.2⟩
    rw [jitter, sign, Float64.finite_mul_finite, Float64.ofRat_small smallProduct,
      Float64.finite_mul_finite]
    exact Float64.finite_add_ne_nan small (Float64.ofRat_ne_nan _)
  next => exact Float64.noConfusion

omit fits in
theorem withJitter_posInf {random : ℚ} (unit : 0 ≤ random ∧ random < 1) :
    rc.withJitter .posInf (.ofRat random) ≠ .nan ↔ (0 < rc.jitterFactor → 1 / 2 < random) := by
  unfold withJitter
  split
  next jitters =>
    obtain ⟨factor, smallFactor, jitter, positive, high⟩ := jitter_cases accepted jitters
    obtain ⟨smallSign, sign⟩ := signedRandom unit
    rw [imp_iff_right jitters, jitter, sign, Float64.posInf_mul_finite, if_pos positive,
      Float64.posInf_mul_finite]
    by_cases upper : 1 / 2 < random
    · have raises : 0 < 2 * random - 1 := by linarith
      rw [if_pos raises]
      exact iff_of_true Float64.noConfusion upper
    · have lowers : ¬0 < 2 * random - 1 := by linarith
      rw [if_neg lowers]
      refine iff_of_false (not_not.mpr ?_) upper
      split <;> rfl
  next steady => exact iff_of_true Float64.noConfusion (fun jitters => absurd jitters steady)

/-- The delay is within its bounds unless it is NaN before the two comparisons. -/
theorem delayBounded_iff_number {attempt : Int} (counted : 1 ≤ attempt) (random : ℚ) :
    rc.DelayBounded attempt random ↔
      rc.withJitter (rc.exponential rc.initialDelay attempt) (.ofRat random) ≠ .nan := by
  have smallInitial := initialDelay_small accepted fits
  have smallMax := maxDelay_small accepted fits
  have positive := accepted.positive
  have ordered := accepted.ordered
  have result : rc.calculateBackoff attempt (.ofRat random) =
      (Float64.clamp (.finite rc.initialDelay smallInitial) (.finite rc.maxDelay smallMax)
        (rc.withJitter (rc.exponential rc.initialDelay attempt) (.ofRat random))).truncate := by
    rw [calculateBackoff, if_neg (by omega), if_neg (by omega), if_neg (by omega), if_neg (by omega),
      Float64.ofRat_small smallInitial, Float64.ofRat_small smallMax]
  rw [DelayBounded, result]
  constructor
  · rintro ⟨delay, specified, _⟩ undefined
    rw [undefined, Float64.clamp_nan] at specified
    cases specified
  · exact Float64.truncate_clamp smallInitial smallMax ordered positive.le

end Delay

/-- `calculateBackoff` keeps to the bounds exactly when its exponential is a number and, once that has
overflowed, the jitter does not lower it. -/
theorem delayBounded_iff {rc : BackoffConfig} (valid : rc.validate = []) (fits : rc.maxDelay < 2 ^ 63)
    {attempt : Int} (counted : 1 ≤ attempt) {random : ℚ} (unit : 0 ≤ random ∧ random < 1) :
    rc.DelayBounded attempt random ↔ ¬(rc.backoffMultiplier = .nan ∧ 2 ≤ attempt) ∧
      (rc.Overflows attempt → 0 < rc.jitterFactor → 1 / 2 < random) := by
  have accepted := accepted_of_validate valid
  rw [delayBounded_iff_number accepted fits counted]
  rcases exponential_cases accepted fits attempt counted with
    ⟨undefined, second, value⟩ | ⟨overflows, value⟩ | ⟨defined, bounded, delay, small, value, nonneg⟩
  · have spreads : rc.withJitter .nan (.ofRat random) = .nan := by
      unfold withJitter
      split
      · exact Float64.nan_add _
      · rfl
    rw [value, spreads]
    exact iff_of_false (fun number => number rfl) (fun holds => holds.1 ⟨undefined, second⟩)
  · have defined : rc.backoffMultiplier ≠ .nan := by
      intro undefined
      simp [Overflows, undefined] at overflows
    rw [value, withJitter_posInf accepted unit]
    exact ⟨fun raised => ⟨fun both => defined both.1, fun _ => raised⟩, fun holds => holds.2 overflows⟩
  · rw [value]
    exact iff_of_true (withJitter_finite accepted small nonneg unit)
      ⟨defined, fun overflows => absurd overflows bounded⟩

/-- The thousandth attempt of the defaults, where the jitter raises the delay. -/
theorem delayBounded_iff_raised :
    ({} : BackoffConfig).validate = [] ∧ ({} : BackoffConfig).DelayBounded 1000 (3 / 4) := by
  have valid : ({} : BackoffConfig).validate = [] := by decide +kernel
  have defined : ({} : BackoffConfig).backoffMultiplier ≠ .nan := by decide +kernel
  have unit : (0 : ℚ) ≤ 3 / 4 ∧ (3 / 4 : ℚ) < 1 := by norm_num
  refine ⟨valid, (delayBounded_iff valid (by decide) (by decide) unit).mpr ⟨?_, ?_⟩⟩
  · exact fun undefined => defined undefined.1
  · exact fun _ _ => by norm_num

/-- Where nothing limits the attempts, the thousandth delay overflows and the jitter then has no value. -/
theorem thousandth_delay_unspecified :
    let rc : BackoffConfig := { maxRetries := 0 }
    rc.validate = [] ∧ rc.calculateBackoff 1000 (.ofRat (1 / 4)) = none ∧
      ¬rc.DelayBounded 1000 (1 / 4) := by
  intro rc
  have unspecified : rc.calculateBackoff 1000 (.ofRat (1 / 4)) = none := by decide +kernel
  refine ⟨by decide +kernel, unspecified, ?_⟩
  rintro ⟨delay, specified, _⟩
  rw [unspecified] at specified
  cases specified

end Tenet
