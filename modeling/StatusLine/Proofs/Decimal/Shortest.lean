import Mathlib.Data.Nat.Log
import Mathlib.Tactic.FieldSimp
import StatusLine.Proofs.Decimal.Rounding

/-!
The shortest decimal of a double rounds to it: a grid of eighteen digits is finer than the interval
of any double is wide. Different doubles have different decimals, then.
-/

namespace StatusLine.Decimal

/-! Fractions as rational numbers. -/

namespace Ratio

variable {base : Nat}

def value (r : Ratio) : ℚ :=
  r.num / r.den

theorem den_scaled (positive : 0 < base) (mantissa : Nat) (exponent : Int) :
    0 < (scaled mantissa base exponent).den := by
  cases exponent with
  | ofNat n => exact Nat.one_pos
  | negSucc n => exact Nat.pow_pos positive

theorem value_scaled (mantissa base : Nat) (exponent : Int) :
    (scaled mantissa base exponent).value = mantissa * (base : ℚ) ^ exponent := by
  cases exponent with
  | ofNat n => simp [value, scaled]
  | negSucc n => simp [value, scaled, zpow_negSucc, div_eq_mul_inv]

theorem le_iff {a b : Ratio} (left : 0 < a.den) (right : 0 < b.den) :
    a.le b = true ↔ a.value ≤ b.value := by
  rw [le, decide_eq_true_eq, value, value, div_le_div_iff₀ (by exact_mod_cast left)
    (by exact_mod_cast right)]
  exact_mod_cast Iff.rfl

theorem lt_iff {a b : Ratio} (left : 0 < a.den) (right : 0 < b.den) :
    a.lt b = true ↔ a.value < b.value := by
  rw [lt, decide_eq_true_eq, value, value, div_lt_div_iff₀ (by exact_mod_cast left)
    (by exact_mod_cast right)]
  exact_mod_cast Iff.rfl

end Ratio

/-- What a decimal stands for. -/
def Digits.value (d : Digits) : ℚ :=
  d.digits * (10 : ℚ) ^ d.exponent

/-! The position of the leading digit. -/

section Position

variable {value : Ratio}

theorem settlePosition_le (positive : 0 < value.den) (fuel : Nat) (guess : Int)
    (close : (10 : ℚ) ^ (guess - 1 - fuel) ≤ value.value) :
    (10 : ℚ) ^ (settlePosition value fuel guess - 1) ≤ value.value := by
  induction fuel generalizing guess with
  | zero => simpa [settlePosition] using close
  | succ fuel ih =>
      rw [settlePosition]
      split
      · rename_i raised
        rw [Ratio.le_iff (Ratio.den_scaled (by decide) 1 guess) positive, Ratio.value_scaled] at raised
        refine ih (guess + 1) (le_trans (zpow_le_zpow_right₀ (by norm_num) ?_)
          (by simpa using raised))
        omega
      · split
        · refine ih (guess - 1) (le_trans (le_of_eq ?_) close)
          congr 1
          push_cast
          omega
        · rename_i settled
          rw [Ratio.lt_iff positive (Ratio.den_scaled (by decide) 1 (guess - 1)),
            Ratio.value_scaled] at settled
          simpa using settled

theorem two_pow_le_ten_pow {n k : Nat} (few : 10 * n ≤ 33 * k) : 2 ^ n ≤ 10 ^ k := by
  refine (Nat.pow_le_pow_iff_left (n := 10) (by decide)).mp ?_
  calc (2 ^ n) ^ 10 = 2 ^ (10 * n) := by rw [← pow_mul, mul_comm]
    _ ≤ 2 ^ (33 * k) := Nat.pow_le_pow_right (by decide) few
    _ = (2 ^ 33) ^ k := pow_mul 2 33 k
    _ ≤ (10 ^ 10) ^ k := Nat.pow_le_pow_left (by decide) k
    _ = (10 ^ k) ^ 10 := by rw [← pow_mul, ← pow_mul, mul_comm]

theorem ten_pow_le_two_pow {n k : Nat} (few : 10 * k ≤ 3 * n) : 10 ^ k ≤ 2 ^ n := by
  refine (Nat.pow_le_pow_iff_left (n := 3) (by decide)).mp ?_
  calc (10 ^ k) ^ 3 = (10 ^ 3) ^ k := by rw [← pow_mul, ← pow_mul, mul_comm]
    _ ≤ (2 ^ 10) ^ k := Nat.pow_le_pow_left (by decide) k
    _ = 2 ^ (10 * k) := (pow_mul 2 10 k).symm
    _ ≤ 2 ^ (3 * n) := Nat.pow_le_pow_right (by decide) few
    _ = (2 ^ n) ^ 3 := by rw [← pow_mul, mul_comm]

theorem two_zpow_le_value (numerator : 0 < value.num) (denominator : 0 < value.den) :
    (2 : ℚ) ^ ((Nat.log2 value.num : Int) - Nat.log2 value.den - 1) ≤ value.value := by
  have low : 2 ^ Nat.log2 value.num ≤ value.num := Nat.log2_self_le numerator.ne'
  have high : value.den ≤ 2 ^ (Nat.log2 value.den + 1) := Nat.lt_log2_self.le
  have positive : (0 : ℚ) < value.den := by exact_mod_cast denominator
  rw [Ratio.value, le_div_iff₀ positive]
  calc (2 : ℚ) ^ ((Nat.log2 value.num : Int) - Nat.log2 value.den - 1) * value.den
      ≤ 2 ^ ((Nat.log2 value.num : Int) - Nat.log2 value.den - 1) *
          2 ^ (Nat.log2 value.den + 1) := by
        gcongr
        exact_mod_cast high
    _ = 2 ^ Nat.log2 value.num := by
        rw [← zpow_natCast, ← zpow_natCast, ← zpow_add₀ (by norm_num)]
        congr 1
        push_cast
        ring
    _ ≤ value.num := by exact_mod_cast low

theorem guess_close {bits : Int} (least : -3000 ≤ bits) (most : bits ≤ 3000) :
    (10 : ℚ) ^ (Int.fdiv (bits * 30103) 100000 - 8) ≤ 2 ^ (bits - 1) := by
  rw [Int.fdiv_eq_ediv_of_nonneg _ (by decide)]
  rcases Int.le_total 8 (bits * 30103 / 100000) with high | low
  · obtain ⟨k, shape⟩ := Int.eq_ofNat_of_zero_le (a := bits * 30103 / 100000 - 8) (by omega)
    obtain ⟨n, exponent⟩ := Int.eq_ofNat_of_zero_le (a := bits - 1) (by omega)
    rw [shape, exponent, zpow_natCast, zpow_natCast]
    exact_mod_cast ten_pow_le_two_pow (by omega)
  · rcases Int.le_total 1 bits with positive | negative
    · calc (10 : ℚ) ^ (bits * 30103 / 100000 - 8) ≤ 10 ^ (0 : Int) :=
            zpow_le_zpow_right₀ (by norm_num) (by omega)
        _ = 2 ^ (0 : Int) := by simp
        _ ≤ 2 ^ (bits - 1) := zpow_le_zpow_right₀ (by norm_num) (by omega)
    · obtain ⟨k, shape⟩ := Int.eq_ofNat_of_zero_le (a := 8 - bits * 30103 / 100000) (by omega)
      obtain ⟨n, exponent⟩ := Int.eq_ofNat_of_zero_le (a := 1 - bits) (by omega)
      have smaller : ((2 : ℚ) ^ n) ≤ 10 ^ k := by exact_mod_cast two_pow_le_ten_pow (by omega)
      rw [← neg_sub, shape, ← neg_sub 1 bits, exponent, zpow_neg, zpow_neg, zpow_natCast,
        zpow_natCast]
      exact inv_anti₀ (by positivity) smaller

end Position

/-! The grids. -/

section Grids

variable {value : Ratio} {unit : Int} {inside : Ratio → Bool}

def gridBelow (value : Ratio) : (unit : Int) → Nat
  | .ofNat n => value.num / (value.den * Nat.pow 10 n)
  | .negSucc n => value.num * Nat.pow 10 (n + 1) / value.den

theorem pick_eq (value : Ratio) (unit : Int) (inside : Ratio → Bool) :
    pick value unit inside =
      match inside (.scaled (gridBelow value unit) 10 unit),
        inside (.scaled (gridBelow value unit + 1) 10 unit) with
      | false, false => none
      | true, false => some ⟨gridBelow value unit, unit⟩
      | false, true => some ⟨gridBelow value unit + 1, unit⟩
      | true, true =>
          let below := gridBelow value unit
          let low := Ratio.scaled below 10 unit
          let high := Ratio.scaled (below + 1) 10 unit
          let gapBelow := (value.num * low.den - low.num * value.den) * high.den
          let gapAbove := (high.num * value.den - value.num * high.den) * low.den
          if gapBelow < gapAbove || (gapBelow == gapAbove && below % 2 == 0) then some ⟨below, unit⟩
          else some ⟨below + 1, unit⟩ := by
  cases unit <;> rfl

theorem pick_cases (value : Ratio) (unit : Int) (inside : Ratio → Bool) :
    (pick value unit inside = none ∧ inside (.scaled (gridBelow value unit) 10 unit) = false ∧
        inside (.scaled (gridBelow value unit + 1) 10 unit) = false) ∨
      ∃ d, pick value unit inside = some d ∧ inside (.scaled d.digits 10 d.exponent) = true := by
  rw [pick_eq]
  cases low : inside (.scaled (gridBelow value unit) 10 unit) <;>
    cases high : inside (.scaled (gridBelow value unit + 1) 10 unit)
  case false.false => exact .inl ⟨rfl, rfl, rfl⟩
  case true.false => exact .inr ⟨_, rfl, low⟩
  case false.true => exact .inr ⟨_, rfl, high⟩
  case true.true =>
    right
    dsimp only
    split
    · exact ⟨_, rfl, low⟩
    · exact ⟨_, rfl, high⟩

theorem gridBelow_spec (positive : 0 < value.den) (unit : Int) :
    gridBelow value unit * (10 : ℚ) ^ unit ≤ value.value ∧
      value.value < (gridBelow value unit + 1) * (10 : ℚ) ^ unit := by
  have denominator : (0 : ℚ) < value.den := by exact_mod_cast positive
  cases unit with
  | ofNat n =>
      have whole : 0 < value.den * 10 ^ n := Nat.mul_pos positive (Nat.pow_pos (by decide))
      have low := Nat.div_mul_le_self value.num (value.den * 10 ^ n)
      have high := Nat.lt_div_mul_add (a := value.num) whole
      simp only [gridBelow, Ratio.value, Nat.pow_eq, Int.ofNat_eq_natCast, zpow_natCast]
      generalize value.num / (value.den * 10 ^ n) = below at low high
      rw [le_div_iff₀ denominator, div_lt_iff₀ denominator]
      constructor
      · have bound : (below * (value.den * 10 ^ n) : ℚ) ≤ value.num := by exact_mod_cast low
        linarith
      · have bound : (value.num : ℚ) < below * (value.den * 10 ^ n) + value.den * 10 ^ n := by
          exact_mod_cast high
        linarith
  | negSucc n =>
      have low := Nat.div_mul_le_self (value.num * 10 ^ (n + 1)) value.den
      have high := Nat.lt_div_mul_add (a := value.num * 10 ^ (n + 1)) positive
      simp only [gridBelow, Ratio.value, Nat.pow_eq, zpow_negSucc]
      generalize value.num * 10 ^ (n + 1) / value.den = below at low high
      have scale : (0 : ℚ) < 10 ^ (n + 1) := by positivity
      rw [← div_eq_mul_inv, ← div_eq_mul_inv, div_le_div_iff₀ scale denominator,
        div_lt_div_iff₀ denominator scale]
      constructor
      · exact_mod_cast low
      · have bound : (value.num * 10 ^ (n + 1) : ℚ) < below * value.den + value.den := by
          exact_mod_cast high
        linarith

theorem inside_firstGrid (value : Ratio) (top : Int) (inside : Ratio → Bool) (fuel tried : Nat)
    (last : pick value (top - (tried + fuel + 1)) inside ≠ none) :
    inside (.scaled (firstGrid value top inside (fuel + 1) tried).digits 10
      (firstGrid value top inside (fuel + 1) tried).exponent) = true := by
  induction fuel generalizing tried with
  | zero =>
      rw [firstGrid]
      rcases pick_cases value (top - (tried + 1)) inside with ⟨nothing, -⟩ | ⟨d, picked, known⟩
      · simp [nothing] at last
      · simpa only [picked] using known
  | succ fuel ih =>
      rw [firstGrid]
      rcases pick_cases value (top - (tried + 1)) inside with ⟨nothing, -⟩ | ⟨d, picked, known⟩
      · simp only [nothing]
        refine ih (tried + 1) ?_
        rwa [show top - ((tried + 1 : Nat) + fuel + 1) = top - (tried + (fuel + 1 : Nat) + 1) by
          push_cast; ring]
      · simpa only [picked] using known

end Grids

/-! The interval of a double. -/

section Interval

variable {mantissa other : Nat} {exponent power : Int} {r : Ratio}

def lowestRatio (mantissa : Nat) (exponent : Int) : Ratio :=
  if isNarrow mantissa exponent then .scaled (4 * mantissa - 1) 2 (exponent - 2)
  else .scaled (2 * mantissa - 1) 2 (exponent - 1)

def highestRatio (mantissa : Nat) (exponent : Int) : Ratio :=
  .scaled (2 * mantissa + 1) 2 (exponent - 1)

def isInside (mantissa : Nat) (exponent : Int) (r : Ratio) : Bool :=
  if mantissa % 2 == 0 then
    (lowestRatio mantissa exponent).le r && r.le (highestRatio mantissa exponent)
  else (lowestRatio mantissa exponent).lt r && r.lt (highestRatio mantissa exponent)

theorem den_lowestRatio (mantissa : Nat) (exponent : Int) :
    0 < (lowestRatio mantissa exponent).den := by
  rw [lowestRatio]
  split <;> exact Ratio.den_scaled (by decide) _ _

theorem den_highestRatio (mantissa : Nat) (exponent : Int) :
    0 < (highestRatio mantissa exponent).den :=
  Ratio.den_scaled (by decide) _ _

theorem value_lowestRatio (positive : 0 < mantissa) (exponent : Int) :
    (lowestRatio mantissa exponent).value = lowest mantissa exponent := by
  rw [lowestRatio, lowest]
  split
  · rw [Ratio.value_scaled, Nat.cast_sub (by omega)]
    push_cast
    rfl
  · rw [Ratio.value_scaled, Nat.cast_sub (by omega)]
    push_cast
    rfl

theorem value_highestRatio (mantissa : Nat) (exponent : Int) :
    (highestRatio mantissa exponent).value = highest mantissa exponent := by
  rw [highestRatio, Ratio.value_scaled, highest]
  push_cast
  rfl

theorem rounds_of_isInside (positive : 0 < mantissa) (denominator : 0 < r.den)
    (known : isInside mantissa exponent r = true) : Rounds mantissa exponent r.value := by
  have low := den_lowestRatio mantissa exponent
  have high := den_highestRatio mantissa exponent
  rw [isInside] at known
  split at known
  · rename_i even
    rw [Bool.and_eq_true, Ratio.le_iff low denominator, Ratio.le_iff denominator high,
      value_lowestRatio positive, value_highestRatio] at known
    exact ⟨known.1, known.2, fun _ => beq_iff_eq.mp even⟩
  · rw [Bool.and_eq_true, Ratio.lt_iff low denominator, Ratio.lt_iff denominator high,
      value_lowestRatio positive, value_highestRatio] at known
    refine ⟨known.1.le, known.2.le, ?_⟩
    rintro (bottom | top)
    · exact absurd bottom known.1.ne'
    · exact absurd top known.2.ne

theorem isInside_of_between (positive : 0 < mantissa) (denominator : 0 < r.den)
    (above : lowest mantissa exponent < r.value) (below : r.value < highest mantissa exponent) :
    isInside mantissa exponent r = true := by
  have low := den_lowestRatio mantissa exponent
  have high := den_highestRatio mantissa exponent
  rw [← value_lowestRatio positive] at above
  rw [← value_highestRatio] at below
  rw [isInside]
  split
  · rw [Bool.and_eq_true, Ratio.le_iff low denominator, Ratio.le_iff denominator high]
    exact ⟨above.le, below.le⟩
  · rw [Bool.and_eq_true, Ratio.lt_iff low denominator, Ratio.lt_iff denominator high]
    exact ⟨above, below⟩

theorem lowest_lt (mantissa : Nat) (exponent : Int) :
    lowest mantissa exponent + 2 ^ (exponent - 3) < mantissa * 2 ^ exponent := by
  have positive : (0 : ℚ) < 2 ^ (exponent - 3) := by positivity
  have scale : ∀ k : Nat, (2 : ℚ) ^ (exponent - 3 + k) = 2 ^ k * 2 ^ (exponent - 3) := by
    intro k
    rw [zpow_add₀ (by norm_num), zpow_natCast, mul_comm]
  have eight := scale 3
  have four := scale 2
  have two := scale 1
  rw [show exponent - 3 + (3 : Nat) = exponent by push_cast; ring] at eight
  rw [show exponent - 3 + (2 : Nat) = exponent - 1 by push_cast; ring] at four
  rw [show exponent - 3 + (1 : Nat) = exponent - 2 by push_cast; ring] at two
  rw [lowest]
  split
  · rw [eight, two]
    nlinarith
  · rw [eight, four]
    nlinarith

theorem lt_highest (mantissa : Nat) (exponent : Int) :
    mantissa * 2 ^ exponent < highest mantissa exponent := by
  have positive : (0 : ℚ) < 2 ^ (exponent - 1) := by positivity
  have half : (2 : ℚ) ^ exponent = 2 * 2 ^ (exponent - 1) := by
    rw [← zpow_one_add₀ (by norm_num)]
    congr 1
    ring
  rw [highest, half]
  nlinarith

theorem log2_scaled (double : IsDouble mantissa exponent) :
    -3000 ≤ (Nat.log2 (Ratio.scaled mantissa 2 exponent).num : Int) -
        Nat.log2 (Ratio.scaled mantissa 2 exponent).den ∧
      (Nat.log2 (Ratio.scaled mantissa 2 exponent).num : Int) -
        Nat.log2 (Ratio.scaled mantissa 2 exponent).den ≤ 3000 := by
  have small := double.small
  have least := double.least
  have most := double.most
  cases exponent with
  | ofNat n =>
      have known : n ≤ 971 := by simpa using most
      have bits : Nat.log2 (mantissa * 2 ^ n) < 1024 := by
        refine (Nat.log2_lt (Nat.mul_pos double.positive (by positivity)).ne').mpr ?_
        calc mantissa * 2 ^ n < 2 ^ 53 * 2 ^ n := Nat.mul_lt_mul_of_pos_right small (by positivity)
          _ = 2 ^ (53 + n) := (pow_add 2 53 n).symm
          _ ≤ 2 ^ 1024 := Nat.pow_le_pow_right (by decide) (by omega)
      simp only [Ratio.scaled, Nat.pow_eq, show Nat.log2 1 = 0 from by decide]
      omega
  | negSucc n =>
      have bits : Nat.log2 mantissa < 53 := (Nat.log2_lt double.positive.ne').mpr small
      have known : n + 1 ≤ 1074 := by omega
      simp only [Ratio.scaled, Nat.pow_eq, Nat.log2_two_pow]
      omega

theorem position_le (double : IsDouble mantissa exponent) :
    (10 : ℚ) ^ (position (.scaled mantissa 2 exponent) - 1) ≤ mantissa * 2 ^ exponent := by
  have denominator := Ratio.den_scaled Nat.two_pos mantissa exponent
  have numerator : 0 < (Ratio.scaled mantissa 2 exponent).num := by
    cases exponent with
    | ofNat n => exact Nat.mul_pos double.positive (Nat.pow_pos (by decide))
    | negSucc n => exact double.positive
  obtain ⟨least, most⟩ := log2_scaled double
  have bits := two_zpow_le_value numerator denominator
  have value := Ratio.value_scaled mantissa 2 exponent
  rw [show ((2 : Nat) : ℚ) = 2 from rfl] at value
  rw [← value, position]
  refine settlePosition_le denominator 8 _ (le_trans (le_of_eq ?_) ((guess_close least most).trans bits))
  congr 1
  push_cast
  ring

theorem pick_finest (double : IsDouble mantissa exponent) :
    pick (.scaled mantissa 2 exponent) (position (.scaled mantissa 2 exponent) - 18)
      (isInside mantissa exponent) ≠ none := by
  generalize finest : position (.scaled mantissa 2 exponent) - 18 = unit
  have narrow : (10 : ℚ) ^ unit < 2 ^ (exponent - 3) := by
    have top := position_le double
    rw [show position (.scaled mantissa 2 exponent) - 1 = unit + (17 : Nat) by omega,
      zpow_add₀ (by norm_num), zpow_natCast] at top
    have small : (mantissa : ℚ) < 2 ^ 53 := by exact_mod_cast double.small
    have positive : (0 : ℚ) < 2 ^ (exponent - 3) := by positivity
    have eight : (2 : ℚ) ^ exponent = 8 * 2 ^ (exponent - 3) := by
      rw [show (8 : ℚ) = 2 ^ (3 : Int) by norm_num, ← zpow_add₀ (by norm_num)]
      congr 1
      ring
    rw [eight] at top
    nlinarith
  obtain ⟨below, above⟩ := gridBelow_spec
    (Ratio.den_scaled Nat.two_pos mantissa exponent) unit
  rw [Ratio.value_scaled, show ((2 : Nat) : ℚ) = 2 from rfl] at below above
  have near := lowest_lt mantissa exponent
  have inside : isInside mantissa exponent
      (.scaled (gridBelow (.scaled mantissa 2 exponent) unit) 10 unit) = true := by
    refine isInside_of_between double.positive (Ratio.den_scaled (by decide) _ _) ?_ ?_
    · rw [Ratio.value_scaled, show ((10 : Nat) : ℚ) = 10 from rfl]
      linarith
    · rw [Ratio.value_scaled, show ((10 : Nat) : ℚ) = 10 from rfl]
      exact below.trans_lt (lt_highest mantissa exponent)
  rcases pick_cases (.scaled mantissa 2 exponent) unit (isInside mantissa exponent) with
    ⟨-, outside, -⟩ | ⟨d, picked, -⟩
  · rw [inside] at outside
    cases outside
  · simp [picked]

theorem rounds_shortest (double : IsDouble mantissa exponent) :
    Rounds mantissa exponent (shortest mantissa exponent).value := by
  have inside := inside_firstGrid (.scaled mantissa 2 exponent)
    (position (.scaled mantissa 2 exponent)) (isInside mantissa exponent) 17 0
    (pick_finest double)
  have rounds := rounds_of_isInside double.positive (Ratio.den_scaled (by decide) _ _) inside
  rwa [Ratio.value_scaled] at rounds

theorem eq_of_shortest (double : IsDouble mantissa exponent) (next : IsDouble other power)
    (same : (shortest mantissa exponent).value = (shortest other power).value) :
    mantissa = other ∧ exponent = power :=
  rounds_unique double next (rounds_shortest double) (same ▸ rounds_shortest next)

end Interval

end StatusLine.Decimal
