import Mathlib.Tactic
import Proposal.Proofs.Amount.Rounding

namespace Proposal.Amount

variable {human more : HumanAmount} {base : BaseAmount} {decimals : Places}

/-- No whole number is nearer to the value, and none that is as near is larger. -/
structure IsNearest (value : ℚ) (whole : ℕ) : Prop where
  le : ∀ other : ℤ, |value - whole| ≤ |value - other|
  largest : ∀ other : ℤ, |value - whole| = |value - other| → other ≤ whole

/-- Half a unit up and then down to a whole number is the nearest one. -/
theorem isNearest_floor {value : ℚ} (nonneg : 0 ≤ value) : IsNearest value ⌊value + 1 / 2⌋₊ := by
  have below : (⌊value + 1 / 2⌋₊ : ℚ) ≤ value + 1 / 2 := Nat.floor_le (by linarith)
  have above : value + 1 / 2 < ⌊value + 1 / 2⌋₊ + 1 := Nat.lt_floor_add_one _
  generalize ⌊value + 1 / 2⌋₊ = whole at below above
  have near : |value - whole| ≤ 1 / 2 := abs_le.mpr ⟨by linarith, by linarith⟩
  -- Above the floor every whole number is more than half a unit away.
  have far : ∀ other : ℤ, (whole : ℤ) < other → |value - whole| < |value - other| := by
    intro other larger
    have next : (whole : ℚ) + 1 ≤ other := by exact_mod_cast larger
    exact near.trans_lt (lt_abs.mpr (.inr (by linarith)))
  refine ⟨fun other => ?_, fun other tie => le_of_not_gt fun larger => (far other larger).ne tie⟩
  rcases lt_trichotomy other whole with smaller | rfl | larger
  · have next : (other : ℚ) + 1 ≤ whole := by exact_mod_cast smaller
    exact near.trans (le_abs.mpr (.inl (by linarith)))
  · exact le_rfl
  · exact (far other larger).le

private theorem rational_nonneg (human : HumanAmount) : 0 ≤ human.rational := by
  unfold Decimal.rational
  positivity

private theorem isNearest_unitsOf (human : HumanAmount) (decimals : Places) :
    IsNearest (human.rational * 10 ^ decimals.val) (unitsOf human.rational decimals) :=
  isNearest_floor (mul_nonneg (rational_nonneg human) (by positivity))

private theorem unitsOf_mono {value larger : ℚ} (le : value ≤ larger) (decimals : Places) :
    unitsOf value decimals ≤ unitsOf larger decimals :=
  Nat.floor_mono (by gcongr)

section Scaling

variable (within : decimals.val ≤ maxDecimals)
include within

private theorem toBase_eq_ok_iff :
    toBase human decimals = .ok base ↔ base.val = unitsOf human.rational decimals := by
  rw [toBase_eq_unitsOf within]
  exact orError_eq_ok_iff.trans Unsigned.ofNat?_eq_some_iff

private theorem toBase_fails_iff :
    (∃ error, toBase human decimals = .error error) ↔
      2 ^ 128 ≤ unitsOf human.rational decimals := by
  rw [toBase_eq_unitsOf within]
  simp only [orError_eq_error_iff, exists_and_left, exists_eq', and_true]
  exact Unsigned.ofNat?_eq_none_iff

/-- An amount that is not larger than one which can be scaled can be scaled, to not more. -/
theorem toBase_mono {moreBase : BaseAmount} (le : human.rational ≤ more.rational)
    (scaled : toBase more decimals = .ok moreBase) :
    ∃ base, toBase human decimals = .ok base ∧ base.val ≤ moreBase.val := by
  have fewer : unitsOf human.rational decimals ≤ moreBase.val :=
    (unitsOf_mono le decimals).trans_eq ((toBase_eq_ok_iff within).mp scaled).symm
  exact ⟨⟨_, fewer.trans_lt moreBase.val_lt⟩, (toBase_eq_ok_iff within).mpr rfl, fewer⟩

/-- Base units are exactly what they are shown as, which fits the token and comes to them again. -/
theorem exists_toHuman (base : BaseAmount) :
    ∃ human, toHuman base decimals = .ok human ∧
      human.rational = base.val / 10 ^ decimals.val ∧ fits human decimals = .ok true ∧
      toBase human decimals = .ok base := by
  have exactly : Exact ⟨⟨_, human_lt base decimals⟩⟩ base decimals := exact_iff.mpr ⟨within, rfl⟩
  refine ⟨_, toHuman_eq_ok_iff.mpr exactly, ?_, exactly.fits_eq, exactly.toBase_eq⟩
  rw [exactly.rational_eq, mul_div_cancel_right₀ _ (by positivity)]

end Scaling

/-- What an amount is scaled to is shown as that amount if and only if it fits the token. -/
theorem toHuman_eq_ok_iff_fits (scaled : toBase human decimals = .ok base) :
    toHuman base decimals = .ok human ↔ fits human decimals = .ok true := by
  rw [toHuman_eq_ok_iff]
  exact ⟨Exact.fits_eq, fun fitting => exact_of_fits fitting scaled⟩

/-- Base units are had back from what is shown for them, amounts go to the nearest base units, ties
up, and scaling is monotone. -/
theorem units_inverse_up_to_rounding {decimals : Places} (within : decimals.val ≤ maxDecimals) :
    (∀ base : BaseAmount, ∃ human, toHuman base decimals = .ok human ∧
      human.rational = base.val / 10 ^ decimals.val ∧ fits human decimals = .ok true ∧
      toBase human decimals = .ok base) ∧
    (∀ human : HumanAmount, ∃ rounded, IsNearest (human.rational * 10 ^ decimals.val) rounded ∧
      (∀ base, toBase human decimals = .ok base ↔ base.val = rounded) ∧
      ((∃ error, toBase human decimals = .error error) ↔ 2 ^ 128 ≤ rounded)) ∧
    (∀ human more moreBase, human.rational ≤ more.rational →
      toBase more decimals = .ok moreBase →
      ∃ base, toBase human decimals = .ok base ∧ base.val ≤ moreBase.val) ∧
    ∀ human base, toBase human decimals = .ok base →
      (toHuman base decimals = .ok human ↔ fits human decimals = .ok true) :=
  ⟨exists_toHuman within,
    fun human => ⟨_, isNearest_unitsOf human decimals, fun _ => toBase_eq_ok_iff within,
      toBase_fails_iff within⟩,
    fun _ _ _ => toBase_mono within, fun _ _ => toHuman_eq_ok_iff_fits⟩

/-- Two and a half base units of a token of six places. -/
def halfway : HumanAmount := ⟨⟨2500000000000, by decide⟩⟩

/-- They are scaled to three, and three are not shown as them. -/
theorem units_inverse_up_to_rounding_halfway :
    toBase halfway ⟨6, by decide⟩ = .ok ⟨3, by decide⟩ ∧ IsNearest (halfway.rational * 10 ^ 6) 3 ∧
      toHuman ⟨3, by decide⟩ ⟨6, by decide⟩ ≠ .ok halfway := by
  have within : (⟨6, by decide⟩ : Places).val ≤ maxDecimals := by decide
  have scaled : toBase halfway ⟨6, by decide⟩ = .ok ⟨3, by decide⟩ := by decide
  obtain ⟨_, rounds, _, inverse⟩ := units_inverse_up_to_rounding within
  obtain ⟨rounded, nearest, only, _⟩ := rounds halfway
  obtain rfl : 3 = rounded := (only _).mp scaled
  refine ⟨scaled, nearest, fun shown => ?_⟩
  exact absurd ((inverse _ _ scaled).mp shown) (by decide)

end Proposal.Amount
