import Mathlib.Tactic
import Proposal.Proofs.Amount

/-! Amounts as rational numbers. Rounding by a remainder is rounding of the exact value, up from the
middle. -/
namespace Proposal

/-- The value of a decimal number. -/
def Decimal.rational {bits : Nat} (number : Decimal bits) : ℚ := number.atomics.val / one

namespace Amount

variable {human : HumanAmount} {base : BaseAmount} {decimals : Places} {numerator steps : Nat}

/-- The base units that a value comes to: the nearest whole number, in the middle between two the
larger one. -/
def unitsOf (value : ℚ) (decimals : Places) : ℕ := ⌊value * 10 ^ decimals.val + 1 / 2⌋₊

theorem div_eq_quotient_add (numerator : Nat) (positive : 0 < steps) :
    (numerator : ℚ) / steps = (numerator / steps : ℕ) + (numerator % steps : ℕ) / (steps : ℚ) := by
  have positive' : (0 : ℚ) < steps := by exact_mod_cast positive
  rw [div_eq_iff positive'.ne', add_mul, div_mul_cancel₀ _ positive'.ne']
  exact_mod_cast (Nat.div_add_mod' numerator steps).symm

theorem nearest_eq_floor (positive : 0 < steps) :
    nearest numerator steps = ⌊(numerator : ℚ) / steps + 1 / 2⌋₊ := by
  have positive' : (0 : ℚ) < steps := by exact_mod_cast positive
  have parts := div_eq_quotient_add numerator positive
  have less : ((numerator % steps : ℕ) : ℚ) / steps < 1 := by
    rw [div_lt_one positive']
    exact_mod_cast Nat.mod_lt numerator positive
  have half : steps ≤ 2 * (numerator % steps) ↔
      (1 : ℚ) / 2 ≤ ((numerator % steps : ℕ) : ℚ) / steps := by
    rw [div_le_div_iff₀ two_pos positive', one_mul, mul_comm]
    exact_mod_cast Iff.rfl
  have nonneg : (0 : ℚ) ≤ ((numerator % steps : ℕ) : ℚ) / steps := by positivity
  symm
  rw [Nat.floor_eq_iff (by positivity), parts, nearest]
  split
  next up =>
    have := half.mp up
    push_cast
    constructor <;> linarith
  next down =>
    have := not_le.mp fun reached => down (half.mpr reached)
    constructor <;> linarith

/-- The same quotient is rounded to the same number. -/
theorem nearest_mul_mul {factor : Nat} (positive : 0 < factor) :
    nearest (numerator * factor) (steps * factor) = nearest numerator steps := by
  rw [nearest, nearest, Nat.mul_mod_mul_right, Nat.mul_div_mul_right _ _ positive, ← Nat.mul_assoc]
  simp only [Nat.mul_le_mul_right_iff positive]

theorem Exact.rational_eq (exactly : Exact human base decimals) :
    (base.val : ℚ) = human.rational * 10 ^ decimals.val := by
  have one : (0 : ℚ) < Decimal.one := by norm_num [Decimal.one]
  rw [Decimal.rational, div_mul_eq_mul_div, eq_div_iff one.ne']
  exact_mod_cast exactly.2.symm

private theorem unitsOf_rational (within : decimals.val ≤ maxDecimals) :
    unitsOf human.rational decimals = nearest human.atomics.val (stepsPerBase decimals) := by
  have positive := stepsPerBase_pos decimals
  have scaled : human.rational * 10 ^ decimals.val =
      (human.atomics.val : ℚ) / stepsPerBase decimals := by
    have ten : ((10 ^ decimals.val : ℕ) : ℚ) ≠ 0 := by positivity
    rw [Decimal.rational, ← stepsPerBase_mul within, Nat.pow_eq]
    push_cast at ten ⊢
    rw [div_mul_eq_mul_div, mul_div_mul_right _ _ ten]
  rw [unitsOf, scaled, nearest_eq_floor positive]

/-- A human amount is scaled to the base units that its value comes to, unless they are too many. -/
theorem toBase_eq_unitsOf (within : decimals.val ≤ maxDecimals) :
    toBase human decimals = orError (.invalidAmount human.text .tooLarge)
      (Unsigned.ofNat? 128 (unitsOf human.rational decimals)) := by
  rw [toBase_eq_nearest within, unitsOf_rational within]

end Amount

end Proposal
