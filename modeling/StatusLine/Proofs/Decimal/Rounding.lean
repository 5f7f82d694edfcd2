import Mathlib.Algebra.Order.Field.Power
import Mathlib.Tactic.Linarith
import Mathlib.Tactic.NormNum
import Mathlib.Tactic.Positivity
import Mathlib.Tactic.Ring
import StatusLine.Decimal.Shortest

/-!
The reals that round to a double: those between the midpoints to its neighbours. No real rounds to
two doubles, and a finite double is known from its parts.
-/

namespace StatusLine.Decimal

/-! Doubles, and the reals that round to them. -/

/-- A positive double that is not infinite. Below the smallest power of two that is written with a
full mantissa, all doubles have the least exponent. -/
structure IsDouble (mantissa : Nat) (exponent : Int) : Prop where
  positive : 0 < mantissa
  small : mantissa < 2 ^ 53
  least : -1074 ≤ exponent
  most : exponent ≤ 971
  full : mantissa < 2 ^ 52 → exponent = -1074

def isNarrow (mantissa : Nat) (exponent : Int) : Bool :=
  mantissa == 2 ^ 52 && exponent > -1074

def lowest (mantissa : Nat) (exponent : Int) : ℚ :=
  if isNarrow mantissa exponent then (4 * mantissa - 1) * 2 ^ (exponent - 2)
  else (2 * mantissa - 1) * 2 ^ (exponent - 1)

def highest (mantissa : Nat) (exponent : Int) : ℚ :=
  (2 * mantissa + 1) * 2 ^ (exponent - 1)

/-- A real rounds to a double: it lies between the midpoints to both neighbours, or is one of these
and the mantissa is even. -/
structure Rounds (mantissa : Nat) (exponent : Int) (r : ℚ) : Prop where
  above : lowest mantissa exponent ≤ r
  below : r ≤ highest mantissa exponent
  even : r = lowest mantissa exponent ∨ r = highest mantissa exponent → mantissa % 2 = 0

section Rounding

variable {mantissa other : Nat} {exponent power : Int} {r : ℚ}

theorem lowest_ge (mantissa : Nat) (exponent : Int) :
    (2 * mantissa - 1) * 2 ^ (exponent - 1) ≤ lowest mantissa exponent := by
  rw [lowest]
  split
  · have half : (2 : ℚ) ^ (exponent - 1) = 2 * 2 ^ (exponent - 2) := by
      rw [← zpow_one_add₀ (by norm_num)]
      congr 1
      ring
    have positive : (0 : ℚ) < 2 ^ (exponent - 2) := by positivity
    rw [half]
    nlinarith
  · exact le_refl _

theorem even_of_rounds (here : Rounds mantissa exponent r) (there : Rounds other power r)
    (apart : highest mantissa exponent ≤ lowest other power) :
    mantissa % 2 = 0 ∧ other % 2 = 0 ∧ lowest other power ≤ highest mantissa exponent := by
  have first : r = highest mantissa exponent :=
    le_antisymm here.below (apart.trans there.above)
  have second : r = lowest other power := le_antisymm (here.below.trans apart) there.above
  exact ⟨here.even (.inr first), there.even (.inl second), (second.symm.trans first).le⟩

theorem not_rounds_same (apart : mantissa < other) (here : Rounds mantissa exponent r) :
    ¬ Rounds other exponent r := by
  intro there
  have positive : (0 : ℚ) < 2 ^ (exponent - 1) := by positivity
  have after : (2 * mantissa + 1 : ℚ) ≤ 2 * other - 1 := by
    have bound : (mantissa + 1 : ℚ) ≤ other := by exact_mod_cast apart
    linarith
  have gap : highest mantissa exponent ≤ (2 * other - 1) * 2 ^ (exponent - 1) :=
    mul_le_mul_of_nonneg_right after positive.le
  obtain ⟨even, alsoEven, meet⟩ := even_of_rounds here there (gap.trans (lowest_ge other exponent))
  have near : (2 * other - 1 : ℚ) ≤ 2 * mantissa + 1 :=
    le_of_mul_le_mul_right ((lowest_ge other exponent).trans meet) positive
  have next : other ≤ mantissa + 1 := by
    have bound : (other : ℚ) ≤ mantissa + 1 := by linarith
    exact_mod_cast bound
  omega

theorem lowest_of_lt (double : IsDouble other power) (least : -1074 ≤ exponent)
    (higher : exponent < power) : (2 ^ 54 - 1) * 2 ^ (exponent - 1) ≤ lowest other power := by
  have full : 2 ^ 52 ≤ other := by
    by_contra small
    have bottom := double.full (not_le.mp small)
    omega
  have scale : (2 : ℚ) ^ (exponent - 1) ≤ 2 ^ (power - 2) :=
    zpow_le_zpow_right₀ (by norm_num) (by omega)
  have positive : (0 : ℚ) < 2 ^ (power - 2) := by positivity
  refine (mul_le_mul_of_nonneg_left scale (by norm_num)).trans ?_
  rw [lowest]
  split
  · have bound : (2 ^ 52 : ℚ) ≤ other := by exact_mod_cast full
    exact mul_le_mul_of_nonneg_right (by linarith) positive.le
  · rename_i wide
    have larger : 2 ^ 52 + 1 ≤ other := by
      simp only [isNarrow, Bool.and_eq_true, beq_iff_eq, decide_eq_true_eq] at wide
      omega
    have bound : (2 ^ 52 + 1 : ℚ) ≤ other := by exact_mod_cast larger
    have half : (2 : ℚ) ^ (power - 1) = 2 * 2 ^ (power - 2) := by
      rw [← zpow_one_add₀ (by norm_num)]
      congr 1
      ring
    rw [half]
    nlinarith

theorem not_rounds_higher (double : IsDouble mantissa exponent) (next : IsDouble other power)
    (higher : exponent < power) (here : Rounds mantissa exponent r) : ¬ Rounds other power r := by
  intro there
  have positive : (0 : ℚ) < 2 ^ (exponent - 1) := by positivity
  have start := lowest_of_lt next double.least higher
  have small : (mantissa : ℚ) + 1 ≤ 2 ^ 53 := by exact_mod_cast double.small
  have gap : highest mantissa exponent ≤ (2 ^ 54 - 1) * 2 ^ (exponent - 1) :=
    mul_le_mul_of_nonneg_right (by linarith) positive.le
  obtain ⟨even, -, meet⟩ := even_of_rounds here there (gap.trans start)
  have large : (2 ^ 54 - 1 : ℚ) ≤ 2 * mantissa + 1 :=
    le_of_mul_le_mul_right (start.trans meet) positive
  have last : 2 ^ 53 ≤ mantissa + 1 := by
    have bound : (2 ^ 53 : ℚ) ≤ mantissa + 1 := by linarith
    exact_mod_cast bound
  have known := double.small
  omega

theorem rounds_unique (double : IsDouble mantissa exponent) (next : IsDouble other power)
    (here : Rounds mantissa exponent r) (there : Rounds other power r) :
    mantissa = other ∧ exponent = power := by
  rcases Int.lt_trichotomy exponent power with higher | rfl | lower
  · exact absurd there (not_rounds_higher double next higher here)
  · rcases Nat.lt_trichotomy mantissa other with apart | rfl | apart
    · exact absurd there (not_rounds_same apart here)
    · exact ⟨rfl, rfl⟩
    · exact absurd here (not_rounds_same apart there)
  · exact absurd here (not_rounds_higher next double lower there)

end Rounding

/-! Doubles from their bits. -/

section Parts

variable {x y : Float} {negative : Bool} {mantissa : Nat} {exponent : Int}

/-- The bits that finite parts are from: the sign, the exponent with its offset and the fraction,
which lacks the first bit of a full mantissa. -/
theorem bits_of_parts (known : parts x = .finite negative mantissa exponent) :
    negative = (x.toBits.toNat / 2 ^ 63 == 1) ∧ x.toBits.toNat / 2 ^ 52 % 2048 ≠ 2047 ∧
      (x.toBits.toNat / 2 ^ 52 % 2048 = 0 ∧ mantissa = x.toBits.toNat % 2 ^ 52 ∧
          exponent = -1074 ∨
        x.toBits.toNat / 2 ^ 52 % 2048 ≠ 0 ∧ mantissa = x.toBits.toNat % 2 ^ 52 + 2 ^ 52 ∧
          exponent = (x.toBits.toNat / 2 ^ 52 % 2048 : Nat) - 1075) := by
  simp only [parts, Nat.pow_eq] at known
  split at known
  · split at known <;> cases known
  · rename_i finite
    refine ⟨?_, mt beq_iff_eq.mpr finite, ?_⟩
    · split at known <;> exact (Parts.finite.inj known).1.symm
    · split at known
      · rename_i low
        obtain ⟨-, rfl, rfl⟩ := Parts.finite.inj known
        exact .inl ⟨beq_iff_eq.mp low, rfl, rfl⟩
      · rename_i high
        obtain ⟨-, rfl, rfl⟩ := Parts.finite.inj known
        exact .inr ⟨mt beq_iff_eq.mpr high, rfl, rfl⟩

theorem isDouble_of_parts (known : parts x = .finite negative mantissa exponent)
    (positive : mantissa ≠ 0) : IsDouble mantissa exponent := by
  obtain ⟨-, finite, ⟨-, shape, power⟩ | ⟨high, shape, power⟩⟩ := bits_of_parts known
  · exact ⟨by omega, by omega, by omega, by omega, fun _ => power⟩
  · exact ⟨by omega, by omega, by omega, by omega, by omega⟩

theorem exponent_of_zero (known : parts x = .finite negative 0 exponent) : exponent = -1074 := by
  obtain ⟨-, -, ⟨-, -, power⟩ | ⟨-, shape, -⟩⟩ := bits_of_parts known
  · exact power
  · omega

theorem eq_of_toBits (same : x.toBits = y.toBits) : x = y := by
  obtain ⟨⟨bits, valid⟩⟩ := x
  obtain ⟨⟨others, validToo⟩⟩ := y
  obtain rfl : bits = others := same
  rfl

theorem toNat_of_infinite (known : parts x = .infinite negative) :
    x.toBits.toNat = (if negative then 2 ^ 63 else 0) + 2047 * 2 ^ 52 := by
  have small := x.toBits.toNat_lt
  simp only [parts, Nat.pow_eq] at known
  split at known
  · rename_i field
    split at known
    · rename_i fraction
      have high := beq_iff_eq.mp field
      have low := beq_iff_eq.mp fraction
      obtain rfl := Parts.infinite.inj known
      split
      · rename_i sign
        have top := beq_iff_eq.mp sign
        omega
      · rename_i sign
        have top := mt beq_iff_eq.mpr sign
        omega
    · cases known
  · split at known <;> cases known

open Float.Model in
theorem toNat_of_nan (known : parts x = .nan) : x.toBits.toNat = 0x7ff8000000000000 := by
  simp only [parts, Nat.pow_eq] at known
  split at known
  · rename_i field
    split at known
    · cases known
    · rename_i fraction
      have exponentBits : @UnpackedFloat.unpackExponent Format.binary64
          x.toBits.toBitVec = (-1#_) := by
        refine BitVec.eq_of_toNat_eq ?_
        rw [UnpackedFloat.unpackExponent, BitVec.toNat_cast, BitVec.extractLsb_toNat,
          Nat.shiftRight_eq_div_pow]
        exact beq_iff_eq.mp field
      have mantissaBits : @UnpackedFloat.unpackMantissa Format.binary64
          x.toBits.toBitVec ≠ 0#_ := by
        intro zero
        have bits := congrArg BitVec.toNat zero
        rw [UnpackedFloat.unpackMantissa, BitVec.toNat_cast, BitVec.extractLsb_toNat,
          Nat.shiftRight_zero] at bits
        exact fraction (beq_iff_eq.mpr bits)
      exact congrArg BitVec.toNat (x.toModel.valid.eq_packedNaN exponentBits mantissaBits)
  · split at known <;> cases known

theorem toNat_of_finite (here : parts x = .finite negative mantissa exponent)
    (there : parts y = .finite negative mantissa exponent) :
    x.toBits.toNat = y.toBits.toNat := by
  have small := x.toBits.toNat_lt
  have smallToo := y.toBits.toNat_lt
  obtain ⟨sign, -, known⟩ := bits_of_parts here
  obtain ⟨signToo, -, knownToo⟩ := bits_of_parts there
  have signs : x.toBits.toNat / 2 ^ 63 = 1 ↔ y.toBits.toNat / 2 ^ 63 = 1 := by
    have both : (x.toBits.toNat / 2 ^ 63 == 1) = (y.toBits.toNat / 2 ^ 63 == 1) :=
      sign.symm.trans signToo
    simpa only [beq_iff_eq] using Bool.eq_iff_iff.mp both
  generalize x.toBits.toNat = bits at *
  generalize y.toBits.toNat = others at *
  rcases known with ⟨low, fraction, power⟩ | ⟨high, fraction, power⟩ <;>
    rcases knownToo with ⟨lowToo, fractionToo, powerToo⟩ | ⟨highToo, fractionToo, powerToo⟩ <;> omega

theorem parts_injective : Function.Injective parts := by
  intro x y same
  refine eq_of_toBits (UInt64.toNat.inj ?_)
  cases known : parts x with
  | nan => rw [toNat_of_nan known, toNat_of_nan (same ▸ known)]
  | infinite negative => rw [toNat_of_infinite known, toNat_of_infinite (same ▸ known)]
  | finite negative mantissa exponent => exact toNat_of_finite known (same ▸ known)

end Parts

end StatusLine.Decimal
