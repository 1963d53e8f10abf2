import Mathlib.Data.Rat.Floor
import Mathlib.Tactic.Linarith
import Mathlib.Tactic.Positivity

/-! Floating-point numbers without rounding: the rationals of magnitude below `2 ^ 1024`, the two
infinities and NaN. What is too large becomes an infinity; the other rules for the special values are
those of IEEE 754. The two zeros are one. -/

namespace Lib

@[irreducible] def Float64.limit : ℚ := 2 ^ 1024

inductive Float64 where
  | finite (value : ℚ) (small : -Float64.limit < value ∧ value < Float64.limit)
  | posInf
  | negInf
  | nan
  deriving DecidableEq

namespace Float64

/-- The result of an operation with that exact value. -/
def ofRat (value : ℚ) : Float64 :=
  if small : -limit < value ∧ value < limit then .finite value small
  else if 0 < value then .posInf else .negInf

instance (n : Nat) : OfNat Float64 n := ⟨ofRat n⟩

def neg : Float64 → Float64
  | .finite value _ => ofRat (-value)
  | .posInf => .negInf
  | .negInf => .posInf
  | .nan => .nan

/-- The product with the positive infinity. -/
def mulInf : Float64 → Float64
  | .finite value _ => if 0 < value then .posInf else if value < 0 then .negInf else .nan
  | special => special

def mul : Float64 → Float64 → Float64
  | .finite x _, .finite y _ => ofRat (x * y)
  | .nan, _ => .nan
  | _, .nan => .nan
  | .posInf, y => y.mulInf
  | .negInf, y => y.mulInf.neg
  | x, .posInf => x.mulInf
  | x, .negInf => x.mulInf.neg

def add : Float64 → Float64 → Float64
  | .finite x _, .finite y _ => ofRat (x + y)
  | .nan, _ => .nan
  | _, .nan => .nan
  | .posInf, .negInf => .nan
  | .negInf, .posInf => .nan
  | .posInf, _ => .posInf
  | .negInf, _ => .negInf
  | _, infinity => infinity

instance : Mul Float64 := ⟨mul⟩
instance : Add Float64 := ⟨add⟩
instance : Sub Float64 := ⟨fun x y => add x y.neg⟩

/-- Nothing is less than NaN, nor is NaN less than anything. -/
def lt : Float64 → Float64 → Bool
  | .finite x _, .finite y _ => decide (x < y)
  | .negInf, .finite _ _ => true
  | .negInf, .posInf => true
  | .finite _ _, .posInf => true
  | _, _ => false

instance : LT Float64 := ⟨fun x y => lt x y = true⟩

instance (x y : Float64) : Decidable (x < y) := inferInstanceAs (Decidable (lt x y = true))

/-- The power with a whole exponent; the power with the exponent 0 is 1, of NaN too. -/
def pow (x : Float64) : Nat → Float64
  | 0 => 1
  | exponent + 1 =>
      match x with
      | .finite value _ => ofRat (value ^ (exponent + 1))
      | .posInf => .posInf
      | .negInf => if exponent % 2 = 0 then .negInf else .posInf
      | .nan => .nan

/-- The conversion to a whole number, towards zero; what has no whole part is unspecified. -/
def truncate : Float64 → Option Int
  | .finite value _ => some (if 0 ≤ value then ⌊value⌋ else ⌈value⌉)
  | _ => none

/-- Into an interval, by two comparisons. -/
def clamp (low high x : Float64) : Float64 :=
  let raised := if x < low then low else x
  if high < raised then high else raised

theorem limit_pos : 0 < limit := by
  unfold limit
  positivity

theorem two_pow_lt_limit {exponent : Nat} (below : exponent < 1024) : (2 : ℚ) ^ exponent < limit := by
  unfold limit
  exact pow_lt_pow_right₀ one_lt_two below

theorem ofRat_small {value : ℚ} (small : -limit < value ∧ value < limit) :
    ofRat value = .finite value small := dif_pos small

theorem small_of_int64 {value : ℚ} (low : -2 ^ 63 < value) (high : value < 2 ^ 63) :
    -limit < value ∧ value < limit := by
  have below := two_pow_lt_limit (show 63 < 1024 by decide)
  exact ⟨(neg_lt_neg below).trans low, high.trans below⟩

theorem small_zero : -limit < (0 : ℚ) ∧ (0 : ℚ) < limit := small_of_int64 (by norm_num) (by norm_num)

theorem small_one : -limit < (1 : ℚ) ∧ (1 : ℚ) < limit := small_of_int64 (by norm_num) (by norm_num)

theorem zero_eq : (0 : Float64) = .finite 0 small_zero := ofRat_small small_zero

theorem one_eq : (1 : Float64) = .finite 1 small_one := ofRat_small small_one

theorem ofRat_large {value : ℚ} (large : limit ≤ value) : ofRat value = .posInf := by
  have positive := limit_pos.trans_le large
  rw [ofRat, dif_neg (fun small => absurd small.2 (not_lt.mpr large)), if_pos positive]

theorem ofRat_ne_nan (value : ℚ) : ofRat value ≠ .nan := by
  unfold ofRat
  split
  · exact nofun
  · split <;> exact nofun

theorem ofRat_nonneg {value : ℚ} (nonneg : 0 ≤ value) :
    (∃ small, ofRat value = .finite value small) ∨ ofRat value = .posInf := by
  have positive := limit_pos
  by_cases below : value < limit
  · have small : -limit < value ∧ value < limit := ⟨by linarith, below⟩
    exact Or.inl ⟨small, ofRat_small small⟩
  · exact Or.inr (ofRat_large (not_lt.mp below))

@[simp] theorem finite_mul_posInf {x : ℚ} (small : -limit < x ∧ x < limit) (positive : 0 < x) :
    finite x small * posInf = posInf :=
  if_pos positive

theorem posInf_mul_finite {x : ℚ} (small : -limit < x ∧ x < limit) :
    posInf * finite x small = if 0 < x then posInf else if x < 0 then negInf else nan := rfl

theorem finite_mul_finite {x y : ℚ} (smallX : -limit < x ∧ x < limit)
    (smallY : -limit < y ∧ y < limit) : finite x smallX * finite y smallY = ofRat (x * y) := rfl

theorem finite_sub_finite {x y : ℚ} (smallX : -limit < x ∧ x < limit)
    (smallY : -limit < y ∧ y < limit) : finite x smallX - finite y smallY = ofRat (x - y) := by
  have smallNeg : -limit < -y ∧ -y < limit := ⟨neg_lt_neg smallY.2, neg_lt.mp smallY.1⟩
  change add _ (ofRat (-y)) = _
  rw [ofRat_small smallNeg, sub_eq_add_neg]
  rfl

theorem finite_add_ne_nan {x : ℚ} (small : -limit < x ∧ x < limit) {y : Float64} (number : y ≠ nan) :
    finite x small + y ≠ nan := by
  cases y with
  | finite value _ => exact ofRat_ne_nan (x + value)
  | posInf => exact Float64.noConfusion
  | negInf => exact Float64.noConfusion
  | nan => exact absurd rfl number

theorem finite_lt_finite {x y : ℚ} (smallX : -limit < x ∧ x < limit)
    (smallY : -limit < y ∧ y < limit) : finite x smallX < finite y smallY ↔ x < y :=
  decide_eq_true_iff

@[simp] theorem mul_nan (x : Float64) : x * nan = nan := by cases x <;> rfl

@[simp] theorem nan_add (x : Float64) : nan + x = nan := by cases x <;> rfl

@[simp] theorem not_nan_lt (x : Float64) : ¬nan < x := by cases x <;> exact Bool.false_ne_true

@[simp] theorem not_lt_nan (x : Float64) : ¬x < nan := by cases x <;> exact Bool.false_ne_true

theorem clamp_nan (low high : Float64) : clamp low high nan = nan := by
  rw [clamp, if_neg (not_nan_lt low), if_neg (not_lt_nan high)]

theorem truncate_clamp {low high : Int} (smallLow : -limit < (low : ℚ) ∧ (low : ℚ) < limit)
    (smallHigh : -limit < (high : ℚ) ∧ (high : ℚ) < limit) (ordered : low ≤ high) (nonneg : 0 ≤ low)
    {x : Float64} (number : x ≠ nan) :
    ∃ result, (clamp (finite low smallLow) (finite high smallHigh) x).truncate = some result ∧
      low ≤ result ∧ result ≤ high := by
  have whole (value : Int) (small : -limit < (value : ℚ) ∧ (value : ℚ) < limit) (least : 0 ≤ value) :
      (finite value small).truncate = some value := by
    have nonneg : (0 : ℚ) ≤ value := by exact_mod_cast least
    rw [truncate, if_pos nonneg, Int.floor_intCast]
  have highNonneg := nonneg.trans ordered
  have unordered : ¬finite (high : ℚ) smallHigh < finite (low : ℚ) smallLow := by
    rw [finite_lt_finite, Int.cast_lt]
    exact not_lt.mpr ordered
  cases x with
  | nan => exact absurd rfl number
  | posInf =>
      refine ⟨high, ?_, ordered, le_refl high⟩
      exact whole high smallHigh highNonneg
  | negInf =>
      refine ⟨low, ?_, le_refl low, ordered⟩
      rw [clamp, if_pos (show negInf < finite (low : ℚ) smallLow from rfl), if_neg unordered]
      exact whole low smallLow nonneg
  | finite value small =>
      by_cases below : value < low
      · refine ⟨low, ?_, le_refl low, ordered⟩
        rw [clamp, if_pos ((finite_lt_finite small smallLow).mpr below), if_neg unordered]
        exact whole low smallLow nonneg
      · have raised : ¬finite value small < finite (low : ℚ) smallLow :=
          fun less => below ((finite_lt_finite small smallLow).mp less)
        rw [clamp, if_neg raised]
        by_cases above : (high : ℚ) < value
        · refine ⟨high, ?_, ordered, le_refl high⟩
          rw [if_pos ((finite_lt_finite smallHigh small).mpr above)]
          exact whole high smallHigh highNonneg
        · have capped : ¬finite (high : ℚ) smallHigh < finite value small :=
            fun less => above ((finite_lt_finite smallHigh small).mp less)
          have least : (0 : ℚ) ≤ low := by exact_mod_cast nonneg
          rw [if_neg capped, truncate, if_pos (least.trans (not_lt.mp below))]
          refine ⟨_, rfl, Int.le_floor.mpr (not_lt.mp below), ?_⟩
          exact Int.cast_le.mp ((Int.floor_le value).trans (not_lt.mp above))

end Float64

end Lib
