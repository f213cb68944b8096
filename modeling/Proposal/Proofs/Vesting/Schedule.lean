import Mathlib.Tactic
import Proposal.Proofs.Vesting
import Proposal.Vesting

/-! Steps are had back from a curve by exact quotients, but the hundredfold of an amount has to fit
the width of an amount. -/
namespace Proposal

theorem Unsigned.sub?_eq_some_iff {bits : Nat} {left right difference : Unsigned bits} :
    left.sub? right = some difference ↔ left.val = right.val + difference.val := by
  unfold sub?
  split
  next le =>
    rw [ofNat?_eq_some_iff]
    omega
  next less => exact iff_of_false (fun none => by cases none) (by omega)

theorem Decimal.sub?_eq_some_iff {bits : Nat} {left right difference : Decimal bits} :
    left.sub? right = some difference ↔
      left.atomics.val = right.atomics.val + difference.atomics.val := by
  rw [sub?, Option.map_eq_some_iff, ← Unsigned.sub?_eq_some_iff]
  constructor
  · rintro ⟨atomics, subtracted, rfl⟩
    exact subtracted
  · intro subtracted
    exact ⟨difference.atomics, subtracted, rfl⟩

/-- A number of seconds is kept by the unit that it is shown in. -/
theorem Duration.seconds?_ofSeconds (seconds : Count) :
    (ofSeconds seconds).seconds? = some seconds := by
  unfold ofSeconds
  split
  next zero => exact Unsigned.ofNat?_eq_some_iff.mpr (Nat.mul_one _).symm
  next =>
    split
    next unit found =>
      have divides : seconds.val % unit.length = 0 := by simpa using List.find?_some found
      exact Unsigned.ofNat?_eq_some_iff.mpr
        (Nat.div_mul_cancel (Nat.dvd_of_mod_eq_zero divides)).symm
    next => exact Unsigned.ofNat?_eq_some_iff.mpr (Nat.mul_one _).symm

namespace VestingStep

variable {step other : VestingStep}

theorem span_ofSeconds (percent : Percent) (seconds : Count) :
    span ⟨percent, .ofSeconds seconds⟩ = seconds.val :=
  (seconds?_eq_some_iff.mp (Duration.seconds?_ofSeconds seconds)).symm

/-- The other step lasts as many seconds, in whatever unit. -/
def KeepsDelay (step other : VestingStep) : Prop :=
  ∃ seconds, step.delay.seconds? = some seconds ∧ other.delay.seconds? = some seconds ∧
    seconds.val = step.span

theorem keepsDelay_ofSeconds {seconds : Count} (same : seconds.val = step.span)
    (percent : Percent) : step.KeepsDelay ⟨percent, .ofSeconds seconds⟩ :=
  ⟨seconds, seconds?_eq_some_iff.mpr same, Duration.seconds?_ofSeconds seconds, same⟩

/-- The steps unlock the same share after the same number of seconds. -/
def Agrees (step other : VestingStep) : Prop :=
  step.percent = other.percent ∧ step.KeepsDelay other

end VestingStep

namespace Vesting

/-- The base units that a cumulative share of a total comes to, rounded down. -/
def unlocked (total : BaseAmount) (percent : Nat) : Nat :=
  total.val * percent / hundredPercent.atomics.val

/-- The share can be had back from the amount that it unlocks. -/
def ShareRecoverable (total : BaseAmount) (percent : Nat) : Prop :=
  unlocked total percent = total.val ∨ unlocked total percent * 100 < Nat.pow 2 128

/-- The cumulative shares from a share onwards can all be had back. -/
def RecoverableFrom (total : BaseAmount) (percent : Nat) : List VestingStep → Prop
  | [] => True
  | step :: rest =>
    ShareRecoverable total (percent + step.percent.atomics.val) ∧
      RecoverableFrom total (percent + step.percent.atomics.val) rest

/-- The steps can be had back from their schedule. A single step is not held as a curve. -/
def Recoverable (total : BaseAmount) (steps : List VestingStep) : Prop :=
  steps.length = 1 ∨ RecoverableFrom total 0 steps

end Vesting

namespace VestingContract.Schedule

open Vesting

variable {total : BaseAmount} {percent : Percent} {amount : BaseAmount} {seconds : Count}
  {reached : Reached} {steps : List VestingStep} {offsets rest : List (Count × BaseAmount)}

/-- An amount is shown as the steps of a percent below it, if it is all of the total or its
hundredfold fits. -/
theorem cumulativePercent?_eq_some_iff (nonzero : total.val ≠ 0) :
    cumulativePercent? total amount = some percent ↔
      (amount.val = total.val ∨ amount.val * 100 < Nat.pow 2 128) ∧
        percent.atomics.val = amount.val * hundredPercent.atomics.val / total.val := by
  unfold cumulativePercent?
  split
  next all =>
    rw [all, Nat.mul_div_cancel_left _ (Nat.pos_of_ne_zero nonzero)]
    constructor
    · rintro ⟨⟩
      exact ⟨.inl rfl, rfl⟩
    · rintro ⟨_, same⟩
      exact congrArg some (Decimal.ext same.symm)
  next part =>
    have hundred : hundredPercent.atomics.val = 100 * Decimal.one := rfl
    rw [or_iff_right fun same => part (Unsigned.ext same), hundred, ← Nat.mul_assoc]
    simp only [Option.bind_eq_bind, Option.bind_eq_some_iff, Unsigned.ofNat?_eq_some_iff,
      Decimal.ofRatio?_eq_some_iff nonzero]
    constructor
    · rintro ⟨hundredfold, same, ratio⟩
      exact ⟨same ▸ hundredfold.val_lt, same ▸ ratio⟩
    · rintro ⟨fits, ratio⟩
      exact ⟨⟨_, fits⟩, rfl, ratio⟩

section Share

variable (nonzero : total.val ≠ 0)
  (exactly : hundredPercent.atomics.val ∣ total.val * percent.atomics.val)
  (share : amount.val = unlocked total percent.atomics.val)
include nonzero share

include exactly in
/-- Of an exact amount the share is had back, if its hundredfold fits. -/
theorem cumulativePercent?_eq_some (recoverable : ShareRecoverable total percent.atomics.val) :
    cumulativePercent? total amount = some percent := by
  rw [ShareRecoverable, ← share] at recoverable
  refine (cumulativePercent?_eq_some_iff nonzero).mpr ⟨recoverable, ?_⟩
  rw [share, unlocked, Nat.div_mul_cancel exactly,
    Nat.mul_div_cancel_left _ (Nat.pos_of_ne_zero nonzero)]

private theorem cumulativePercent?_eq_none (lost : ¬ShareRecoverable total percent.atomics.val) :
    cumulativePercent? total amount = none := by
  rw [ShareRecoverable, ← share] at lost
  by_contra found
  obtain ⟨_, known⟩ := Option.ne_none_iff_exists'.mp found
  exact lost ((cumulativePercent?_eq_some_iff nonzero).mp known).1

end Share

/-- More of a total is never less of it. -/
theorem unlocked_mono {less more : Nat} (le : less ≤ more) :
    unlocked total less ≤ unlocked total more :=
  Nat.div_le_div_right (Nat.mul_le_mul_left _ le)

/-- An amount further along a curve is not below the one before it, and not above the total. -/
theorem ordered_of_unlocked {less more : Nat} {next : BaseAmount}
    (share : amount.val = unlocked total less) (nextShare : next.val = unlocked total more)
    (further : less ≤ more) (within : more ≤ hundredPercent.atomics.val) :
    amount ≤ next ∧ next ≤ total := by
  have rises : amount.val ≤ next.val := by
    rw [share, nextShare]
    exact unlocked_mono further
  have bounded : next.val ≤ total.val := by
    rw [nextShare]
    exact share_le within
  exact ⟨rises, bounded⟩

/-- What one point of a curve adds to the steps. -/
theorem stepsFrom?_cons_eq_some_iff :
    stepsFrom? total reached ((seconds, amount) :: rest) = some steps ↔
      ∃ (delay : Count) (cumulative percent : Percent) (others : List VestingStep),
        reached.amount ≤ amount ∧ amount ≤ total ∧
        seconds.val = reached.seconds.val + delay.val ∧
        cumulativePercent? total amount = some cumulative ∧
        cumulative.atomics.val = reached.percent.atomics.val + percent.atomics.val ∧
        stepsFrom? total ⟨seconds, amount, cumulative⟩ rest = some others ∧
        steps = ⟨percent, .ofSeconds delay⟩ :: others := by
  rw [stepsFrom?]
  split
  next unordered =>
    refine iff_of_false (fun none => by cases none) ?_
    rintro ⟨_, _, _, _, rises, within, _⟩
    exact unordered.elim (Nat.not_lt.mpr rises) (Nat.not_lt.mpr within)
  next ordered =>
    obtain ⟨rises, within⟩ := not_or.mp ordered
    simp only [Option.bind_eq_bind, Option.bind_eq_some_iff, Unsigned.sub?_eq_some_iff,
      Decimal.sub?_eq_some_iff, Option.pure_def, Option.some.injEq]
    constructor
    · rintro ⟨delay, later, cumulative, found, percent, share, others, more, rfl⟩
      exact ⟨delay, cumulative, percent, others, Nat.not_lt.mp rises, Nat.not_lt.mp within, later,
        found, share, more, rfl⟩
    · rintro ⟨delay, cumulative, percent, others, _, _, later, found, share, more, rfl⟩
      exact ⟨delay, later, cumulative, found, percent, share, others, more, rfl⟩

/-- The steps of exact offsets are had back if and only if all their shares can be. -/
theorem stepsFrom?_offsetsFrom (nonzero : total.val ≠ 0)
    (made : offsetsFrom total seconds percent steps = .ok offsets)
    (exactly : exactFrom total percent steps = .ok true)
    (within : percent.atomics.val + percentSum steps ≤ hundredPercent.atomics.val)
    (share : amount.val = unlocked total percent.atomics.val) :
    (RecoverableFrom total percent.atomics.val steps →
      ∃ recovered, stepsFrom? total ⟨seconds, amount, percent⟩ offsets = some recovered ∧
        List.Forall₂ VestingStep.Agrees steps recovered) ∧
    (¬RecoverableFrom total percent.atomics.val steps →
      stepsFrom? total ⟨seconds, amount, percent⟩ offsets = none) := by
  induction steps generalizing seconds percent amount offsets with
  | nil =>
    cases made
    exact ⟨fun _ => ⟨[], rfl, .nil⟩, fun lost => absurd trivial lost⟩
  | cons step rest ih =>
    obtain ⟨later, reached, reachedAmount, others, spans, shares, reachedShare, more, rfl⟩ :=
      offsetsFrom_cons_eq_ok_iff.mp made
    obtain ⟨same, sum, whole, exactRest⟩ := exactFrom_cons_eq_true_iff.mp exactly
    obtain rfl : same = reached := Decimal.ext (sum.trans shares.symm)
    rw [percentSum_cons, ← Nat.add_assoc, ← sum] at within
    obtain ⟨rises, bounded⟩ : amount ≤ reachedAmount ∧ reachedAmount ≤ total :=
      ordered_of_unlocked share reachedShare (by omega) (Nat.le_of_add_right_le within)
    obtain ⟨recoverRest, loseRest⟩ := ih more exactRest within reachedShare
    simp only [RecoverableFrom, ← sum]
    constructor
    · rintro ⟨first, recoverable⟩
      obtain ⟨recovered, found, agrees⟩ := recoverRest recoverable
      have known := cumulativePercent?_eq_some nonzero whole reachedShare first
      let delay : Count := ⟨step.span, by have := later.val_lt; omega⟩
      exact ⟨_, stepsFrom?_cons_eq_some_iff.mpr
          ⟨delay, same, step.percent, recovered, rises, bounded, spans, known, sum, found, rfl⟩,
        .cons ⟨rfl, VestingStep.keepsDelay_ofSeconds rfl _⟩ agrees⟩
    · intro lost
      by_contra read
      obtain ⟨recovered, read⟩ := Option.ne_none_iff_exists'.mp read
      obtain ⟨_, cumulative, _, _, _, _, _, known, _, found, _⟩ :=
        stepsFrom?_cons_eq_some_iff.mp read
      by_cases first : ShareRecoverable total same.atomics.val
      · rw [cumulativePercent?_eq_some nonzero whole reachedShare first] at known
        cases known
        rw [loseRest fun recoverable => lost ⟨first, recoverable⟩] at found
        cases found
      · rw [cumulativePercent?_eq_none nonzero reachedShare first] at known
        cases known

/-- A point at the start is dropped, and nothing else. -/
theorem dropStart_cases (points : List (Count × BaseAmount)) :
    points = (.zero, .zero) :: dropStart points ∨
      points.head? ≠ some (.zero, .zero) ∧ points = dropStart points := by
  cases points with
  | nil => exact .inr ⟨nofun, rfl⟩
  | cons point rest =>
    rw [dropStart]
    split
    next start => exact .inl (by rw [start])
    next other => exact .inr ⟨fun start => other (Option.some.inj start), rfl⟩

theorem dropStart_start : dropStart ((.zero, .zero) :: rest) = rest := by
  rw [dropStart, if_pos rfl]

/-- There are steps for a curve with a point behind its start, of a total that is not zero. -/
theorem steps?_eq_some_iff {points : List (Count × BaseAmount)} {duration : Count} :
    steps? (.piecewiseLinear points) total duration = some steps ↔
      dropStart points ≠ [] ∧ total.val ≠ 0 ∧
        stepsFrom? total ⟨.zero, .zero, .zero⟩ (dropStart points) = some steps := by
  rw [steps?]
  split
  next refused =>
    refine iff_of_false (fun none => by cases none) ?_
    rintro ⟨inhabited, nonzero, _⟩
    exact refused.elim (fun empty => inhabited (List.isEmpty_iff.mp empty)) nonzero
  next accepted =>
    obtain ⟨inhabited, nonzero⟩ := not_or.mp accepted
    rw [List.isEmpty_iff] at inhabited
    rw [and_iff_right inhabited, and_iff_right nonzero]

/-- The steps of a curve from nothing are those through its other points. -/
theorem steps?_curve (nonzero : total.val ≠ 0) (several : offsets ≠ []) {duration : Count} :
    steps? (.piecewiseLinear ((.zero, .zero) :: offsets)) total duration =
      stepsFrom? total ⟨.zero, .zero, .zero⟩ offsets := by
  ext steps
  rw [steps?_eq_some_iff, dropStart_start, and_iff_right several, and_iff_right nonzero]

/-- A schedule that was made of exact steps gives them back if and only if they are recoverable. -/
theorem steps?_ofSteps {schedule : Schedule} {duration : Count} (nonzero : total.val ≠ 0)
    (notEmpty : steps ≠ []) (made : ofSteps total steps = .ok schedule)
    (counted : durationSeconds steps = .ok duration)
    (exactly : offsetsAreExact total steps = .ok true)
    (all : percentSum steps = hundredPercent.atomics.val) :
    (Recoverable total steps → ∃ recovered, schedule.steps? total duration = some recovered ∧
      List.Forall₂ VestingStep.Agrees steps recovered) ∧
    (¬Recoverable total steps → schedule.steps? total duration = none) := by
  unfold ofSteps at made
  split at made
  next single =>
    cases made
    obtain ⟨step, rfl⟩ := List.length_eq_one_iff.mp single
    refine ⟨fun _ => ⟨_, rfl, .cons ⟨?_, ?_⟩ .nil⟩, fun lost => absurd (.inl single) lost⟩
    · exact Decimal.ext (by simpa [percentSum] using all)
    · have span := durationSeconds_eq_ok_iff.mp counted
      rw [secondsSum_cons, secondsSum, List.map_nil, List.sum_nil, Nat.add_zero] at span
      exact VestingStep.keepsDelay_ofSeconds span _
  next notSingle =>
    obtain ⟨offsets, given, same⟩ := bind_eq_ok_iff.mp made
    cases same
    have several : offsets ≠ [] := by
      obtain ⟨step, rest, rfl⟩ := List.exists_cons_of_ne_nil notEmpty
      obtain ⟨_, _, _, _, _, _, _, _, rfl⟩ := offsetsFrom_cons_eq_ok_iff.mp given
      exact List.cons_ne_nil _ _
    have within : (Decimal.zero : Percent).atomics.val + percentSum steps ≤
        hundredPercent.atomics.val := by
      rw [all, Decimal.val_zero, Nat.zero_add]
    have start : (Unsigned.zero : BaseAmount).val =
        unlocked total (Decimal.zero : Percent).atomics.val := by
      simp [unlocked]
    obtain ⟨recover, lose⟩ := stepsFrom?_offsetsFrom nonzero given exactly within start
    rw [steps?_curve nonzero several, Recoverable, or_iff_right notSingle]
    exact ⟨recover, lose⟩

end VestingContract.Schedule

end Proposal
