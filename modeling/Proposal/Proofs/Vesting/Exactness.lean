import Mathlib.Tactic
import Proposal.Proofs.Vesting.Reencoding

/-! A curve rounds shares down to base units, and the percents it is shown as round again. At whole
base units neither does. -/
namespace Proposal

private theorem VestingStep.KeepsDelay.span_eq {step other : VestingStep}
    (keeps : step.KeepsDelay other) :
    other.span = step.span := by
  obtain ⟨seconds, _, kept, same⟩ := keeps
  rw [← same, seconds?_eq_some_iff.mp kept]

private theorem VestingStep.map_span_eq {steps others : List VestingStep}
    (keep : List.Forall₂ KeepsDelay steps others) : others.map span = steps.map span := by
  induction keep with
  | nil => rfl
  | cons keeps _ ih => rw [List.map_cons, List.map_cons, keeps.span_eq, ih]

namespace Vesting

variable {total amount : BaseAmount} {percent : Percent} {steps others : List VestingStep}

/-- The cumulative share that is shown for what a cumulative share unlocks: rounded down to base
units, and then to steps of a percent. -/
def restored (total : BaseAmount) (percent : ℕ) : ℕ :=
  unlocked total percent * hundredPercent.atomics.val / total.val

/-- Rounding down twice never gives more. -/
theorem restored_le (total : BaseAmount) (percent : ℕ) : restored total percent ≤ percent :=
  Nat.div_le_of_le_mul (Nat.div_mul_le_self _ _)

private theorem restored_mono {less more : ℕ} (le : less ≤ more) :
    restored total less ≤ restored total more :=
  Nat.div_le_div_right (Nat.mul_le_mul_right _ (VestingContract.Schedule.unlocked_mono le))

/-- A share comes back if and only if nothing of it was rounded. -/
theorem restored_eq_iff (nonzero : total.val ≠ 0) {percent : ℕ} :
    restored total percent = percent ↔ hundredPercent.atomics.val ∣ total.val * percent := by
  have below : unlocked total percent * hundredPercent.atomics.val ≤ total.val * percent :=
    Nat.div_mul_le_self _ _
  rw [Nat.dvd_iff_div_mul_eq, ← unlocked]
  constructor
  · intro same
    have above : total.val * restored total percent ≤
        unlocked total percent * hundredPercent.atomics.val := Nat.mul_div_le _ _
    rw [same] at above
    exact Nat.le_antisymm below above
  · intro whole
    rw [restored, whole, Nat.mul_div_cancel_left _ (Nat.pos_of_ne_zero nonzero)]

/-- Steps have the same percents if and only if they reach the same cumulative shares. -/
theorem percents_eq_iff (length : others.length = steps.length) :
    others.map VestingStep.percent = steps.map VestingStep.percent ↔
      ∀ count, percentSum (others.take count) = percentSum (steps.take count) := by
  induction steps generalizing others with
  | nil => simp [List.length_eq_zero_iff.mp length]
  | cons step rest ih =>
    obtain ⟨other, more, rfl⟩ := List.exists_cons_of_length_eq_add_one length
    rw [List.map_cons, List.map_cons, List.cons.injEq, ih (Nat.succ.inj length)]
    constructor
    · rintro ⟨same, later⟩ count
      cases count with
      | zero => rfl
      | succ count =>
        rw [List.take_succ_cons, List.take_succ_cons, percentSum_cons, percentSum_cons, same,
          later count]
    · intro sums
      have first : other.percent.atomics.val = step.percent.atomics.val := by
        simpa [percentSum] using sums 1
      refine ⟨Decimal.ext first, fun count => ?_⟩
      have sum := sums (count + 1)
      rw [List.take_succ_cons, List.take_succ_cons, percentSum_cons, percentSum_cons, first] at sum
      exact Nat.add_left_cancel sum

end Vesting

namespace VestingContract.Schedule

open Vesting

variable {total amount : BaseAmount} {percent shown : Percent} {seconds : Count}
  {steps : List VestingStep} {offsets : List (Count × BaseAmount)}

/-- From any point on, a curve is shown as one step for each, as long as that one, with the shares
that are restored. -/
theorem exists_stepsFrom? (nonzero : total.val ≠ 0)
    (made : offsetsFrom total seconds percent steps = .ok offsets)
    (within : percent.atomics.val + percentSum steps ≤ hundredPercent.atomics.val)
    (fitting : ∀ count,
      ShareRecoverable total (percent.atomics.val + percentSum (steps.take count)))
    (share : amount.val = unlocked total percent.atomics.val)
    (shows : shown.atomics.val = restored total percent.atomics.val) :
    ∃ recovered, stepsFrom? total ⟨seconds, amount, shown⟩ offsets = some recovered ∧
      List.Forall₂ VestingStep.KeepsDelay steps recovered ∧
      ∀ count, shown.atomics.val + percentSum (recovered.take count) =
        restored total (percent.atomics.val + percentSum (steps.take count)) := by
  induction steps generalizing seconds percent amount shown offsets with
  | nil =>
    cases made
    exact ⟨[], rfl, .nil, fun count => by simpa [percentSum] using shows⟩
  | cons step rest ih =>
    obtain ⟨later, reached, reachedAmount, more, spans, sum, reachedShare, planned, rfl⟩ :=
      offsetsFrom_cons_eq_ok_iff.mp made
    rw [percentSum_cons, ← Nat.add_assoc, ← sum] at within
    have first : ShareRecoverable total reached.atomics.val := by
      simpa [percentSum, sum] using fitting 1
    have fittingRest : ∀ count,
        ShareRecoverable total (reached.atomics.val + percentSum (rest.take count)) := by
      intro count
      simpa [percentSum_cons, sum, Nat.add_assoc] using fitting (count + 1)
    have further : percent.atomics.val ≤ reached.atomics.val := by omega
    obtain ⟨rises, bounded⟩ : amount ≤ reachedAmount ∧ reachedAmount ≤ total :=
      ordered_of_unlocked share reachedShare further (Nat.le_of_add_right_le within)
    let cumulative : Percent :=
      ⟨⟨restored total reached.atomics.val, (restored_le _ _).trans_lt reached.atomics.val_lt⟩⟩
    have known : cumulativePercent? total reachedAmount = some cumulative := by
      rw [cumulativePercent?_eq_some_iff nonzero, reachedShare]
      exact ⟨first, rfl⟩
    have risesShown : shown.atomics.val ≤ restored total reached.atomics.val := by
      rw [shows]
      exact restored_mono further
    let added : Percent := ⟨⟨restored total reached.atomics.val - shown.atomics.val,
      (Nat.sub_le _ _).trans_lt cumulative.atomics.val_lt⟩⟩
    have reaches : cumulative.atomics.val = shown.atomics.val + added.atomics.val :=
      (Nat.add_sub_of_le risesShown).symm
    have cumulativeShows : cumulative.atomics.val = restored total reached.atomics.val := rfl
    obtain ⟨recovered, read, delays, shares⟩ :=
      ih planned within fittingRest reachedShare cumulativeShows
    let delay : Count := ⟨step.span, by have := later.val_lt; omega⟩
    refine ⟨⟨added, .ofSeconds delay⟩ :: recovered, stepsFrom?_cons_eq_some_iff.mpr
        ⟨delay, cumulative, added, recovered, rises, bounded, spans, known, reaches, read, rfl⟩,
      .cons (VestingStep.keepsDelay_ofSeconds rfl _) delays, fun count => ?_⟩
    cases count with
    | zero => simpa [percentSum] using shows
    | succ count =>
      rw [List.take_succ_cons, List.take_succ_cons, percentSum_cons, percentSum_cons,
        ← Nat.add_assoc, ← Nat.add_assoc, ← reaches, ← sum]
      exact shares count

end VestingContract.Schedule

namespace Vesting

open VestingContract.Schedule

/-- A curve is shown as steps with the same delays, and with the same percents if and only if the
schedule is exact. -/
theorem percents_kept_iff_exact {total : BaseAmount} {steps : List VestingStep}
    (positive : 0 < total.val) (several : 2 ≤ steps.length)
    (whole : percentSum steps = hundredPercent.atomics.val)
    (countable : secondsSum steps < 2 ^ 64)
    (fitting : ∀ count, unlocked total (percentSum (steps.take count)) = total.val ∨
      unlocked total (percentSum (steps.take count)) ≤ (2 ^ 128 - 1) / 100) :
    ∃ schedule exactly, ofSteps total steps = .ok schedule ∧
      offsetsAreExact total steps = .ok exactly ∧ ∀ duration, ∃ recovered,
        schedule.steps? total duration = some recovered ∧
        recovered.length = steps.length ∧ List.Forall₂ VestingStep.KeepsDelay steps recovered ∧
        (∀ count, percentSum (recovered.take count) ≤ percentSum (steps.take count)) ∧
        (recovered.map VestingStep.percent = steps.map VestingStep.percent ↔ exactly = true) := by
  have nonzero : total.val ≠ 0 := positive.ne'
  have within : (Decimal.zero : Percent).atomics.val + percentSum steps ≤
      hundredPercent.atomics.val := by
    rw [whole, Decimal.val_zero, Nat.zero_add]
  obtain ⟨offsets, made⟩ : ∃ offsets, Vesting.offsets total steps = .ok offsets :=
    offsetsFrom_eq_ok (by simpa using countable) within
  obtain ⟨exactly, checked, exactly_iff⟩ :=
    exists_offsetsAreExact total (whole.trans_lt hundredPercent.atomics.val_lt)
  have planned : ofSteps total steps = .ok (.piecewiseLinear ((.zero, .zero) :: offsets)) := by
    rw [ofSteps, if_neg (by omega), made]
    rfl
  have notEmpty : offsets ≠ [] := by
    rintro rfl
    have length := length_offsetsFrom made
    rw [List.length_nil] at length
    omega
  have fits : ∀ count, ShareRecoverable total
      ((Decimal.zero : Percent).atomics.val + percentSum (steps.take count)) := by
    intro count
    rw [Decimal.val_zero, Nat.zero_add]
    refine (fitting count).imp_right fun small => ?_
    rw [Nat.pow_eq]
    omega
  have nothing : unlocked total (Decimal.zero : Percent).atomics.val = 0 := by simp [unlocked]
  have nothingShown : restored total (Decimal.zero : Percent).atomics.val = 0 := by
    rw [restored, nothing, Nat.zero_mul, Nat.zero_div]
  have share : (Unsigned.zero : BaseAmount).val =
      unlocked total (Decimal.zero : Percent).atomics.val := nothing.symm
  have shows : (Decimal.zero : Percent).atomics.val =
      restored total (Decimal.zero : Percent).atomics.val := nothingShown.symm
  obtain ⟨recovered, read, delays, shares⟩ :=
    exists_stepsFrom? nonzero made within fits share shows
  simp only [Decimal.val_zero, Nat.zero_add] at shares
  refine ⟨_, exactly, planned, checked, fun duration => ⟨recovered, ?_, delays.length_eq.symm,
    delays, fun count => ?_, ?_⟩⟩
  · rw [steps?_curve nonzero notEmpty, read]
  · rw [shares]
    exact restored_le _ _
  · rw [percents_eq_iff delays.length_eq.symm, exactly_iff]
    refine forall_congr' fun count => ?_
    rw [shares, restored_eq_iff nonzero]

/-- A fifth after a day, nothing with it, and the rest after two years. -/
def fifth : List VestingStep :=
  [⟨⟨⟨20000000000000000000, by decide⟩⟩, ⟨⟨24, by decide⟩, .hours⟩⟩, ⟨.zero, ⟨.zero, .years⟩⟩,
    ⟨⟨⟨80000000000000000000, by decide⟩⟩, ⟨⟨730, by decide⟩, .days⟩⟩]

/-- Of one more than 10^37 base units a fifth is not whole, so that less than a fifth is shown. -/
theorem percents_kept_iff_exact_fifth :
    ∃ schedule recovered, ofSteps ⟨10 ^ 37 + 1, by decide⟩ fifth = .ok schedule ∧
      schedule.steps? ⟨10 ^ 37 + 1, by decide⟩ .zero = some recovered ∧
      List.Forall₂ VestingStep.KeepsDelay fifth recovered ∧
      recovered.map VestingStep.span = [86400, 0, 63072000] ∧
      recovered.map VestingStep.percent ≠ fifth.map VestingStep.percent := by
  have fitting : ∀ count,
      unlocked ⟨10 ^ 37 + 1, by decide⟩ (percentSum (fifth.take count)) = 10 ^ 37 + 1 ∨
      unlocked ⟨10 ^ 37 + 1, by decide⟩ (percentSum (fifth.take count)) ≤ (2 ^ 128 - 1) / 100
    | 0 => .inr (by decide)
    | 1 => .inr (by decide)
    | 2 => .inr (by decide)
    | count + 3 => .inl (by simp [fifth]; decide)
  have checked : offsetsAreExact ⟨10 ^ 37 + 1, by decide⟩ fifth = .ok false := by decide
  obtain ⟨schedule, exactly, made, again, shown⟩ :=
    percents_kept_iff_exact (by decide) (by decide) (by decide) (by decide) fitting
  obtain ⟨recovered, read, _, delays, _, kept⟩ := shown .zero
  rw [checked] at again
  cases again
  exact ⟨schedule, recovered, made, read, delays, VestingStep.map_span_eq delays,
    fun same => absurd (kept.mp same) (by decide)⟩

end Vesting

end Proposal
