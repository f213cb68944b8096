import Mathlib.Tactic
import Proposal.Proofs.Amount.Rounding
import Proposal.Proofs.Vesting.Preview

/-! Each step of a preview is rounded down on its own, so that the amounts add up to a little less
than the exact share. -/
namespace Proposal

private theorem Decimal.one_eq : (one : ℚ) = 10 ^ 18 := by
  norm_num [one, decimalPlaces]

private theorem Decimal.rational_mono {bits : ℕ} {left right : Decimal bits}
    (le : left.atomics.val ≤ right.atomics.val) : left.rational ≤ right.rational := by
  unfold rational
  gcongr

namespace Vesting

variable {total unlockedSoFar : HumanAmount} {start time : Timestamp} {step : VestingStep}
  {steps rest : List VestingStep} {points : List VestingPoint}

/-- The shares of all steps together, in percent. -/
def percentage (steps : List VestingStep) : ℚ := (steps.map fun step => step.percent.rational).sum

theorem percentage_eq (steps : List VestingStep) :
    percentage steps = percentSum steps / Decimal.one := by
  induction steps with
  | nil => simp [percentage, percentSum]
  | cons step rest ih =>
    rw [percentage, List.map_cons, List.sum_cons, ← percentage, ih, percentSum_cons, Nat.cast_add,
      add_div, Decimal.rational]

/-- What the shares of some steps are worth, without any rounding. -/
def worth (total : HumanAmount) (steps : List VestingStep) : ℚ :=
  total.rational * percentage steps / 100

/-- What a step is seen to unlock, in steps of a human amount. -/
def rounded (total : HumanAmount) (step : VestingStep) : ℕ :=
  total.atomics.val * step.percent.atomics.val / hundredPercent.atomics.val

/-- What some steps are seen to unlock, each rounded down. -/
def roundedSum (total : HumanAmount) (steps : List VestingStep) : ℕ :=
  (steps.map (rounded total)).sum

private theorem roundedSum_cons :
    roundedSum total (step :: rest) = rounded total step + roundedSum total rest := by
  simp [roundedSum]

/-- Rounding down each time loses less than one for each step. -/
theorem roundedSum_bounds (total : HumanAmount) (steps : List VestingStep) :
    roundedSum total steps * hundredPercent.atomics.val ≤
        total.atomics.val * percentSum steps ∧
      total.atomics.val * percentSum steps + steps.length ≤
        (roundedSum total steps + steps.length) * hundredPercent.atomics.val := by
  induction steps with
  | nil => simp [roundedSum, percentSum]
  | cons step rest ih =>
    have below : rounded total step * hundredPercent.atomics.val ≤
        total.atomics.val * step.percent.atomics.val := Nat.div_mul_le_self _ _
    have above : total.atomics.val * step.percent.atomics.val <
        (rounded total step + 1) * hundredPercent.atomics.val := by
      rw [Nat.mul_comm (_ + 1)]
      exact Nat.lt_mul_div_succ _ (by decide)
    rw [roundedSum_cons, percentSum_cons, List.length_cons]
    constructor <;> nlinarith

private theorem length_pointsFrom (made : pointsFrom total time unlockedSoFar steps = .ok points) :
    points.length = steps.length := by
  induction steps generalizing time unlockedSoFar points with
  | nil =>
    cases made
    rfl
  | cons step rest ih =>
    obtain ⟨_, _, _, others, _, _, _, more, rfl⟩ := pointsFrom_cons_eq_ok_iff.mp made
    rw [List.length_cons, List.length_cons, ih more]

/-- The point behind each step is the sum of the steps so far. -/
theorem getElem?_pointsFrom (made : pointsFrom total time unlockedSoFar steps = .ok points)
    {index : ℕ} {point : VestingPoint} (found : points[index]? = some point) :
    point.time.nanos.val =
        time.nanos.val + secondsSum (steps.take (index + 1)) * 1000000000 ∧
      point.unlocked.atomics.val =
        unlockedSoFar.atomics.val + roundedSum total (steps.take (index + 1)) := by
  induction steps generalizing time unlockedSoFar points index with
  | nil =>
    cases made
    cases found
  | cons step rest ih =>
    obtain ⟨later, share, reached, others, ends, scaled, added, more, rfl⟩ :=
      pointsFrom_cons_eq_ok_iff.mp made
    -- The two divisions by which a step is scaled round as one.
    have once : share.atomics.val / 100 = rounded total step := by
      rw [scaled, Nat.div_div_eq_div_mul]
      rfl
    rw [once] at added
    rw [List.take_succ_cons, secondsSum_cons, roundedSum_cons, Nat.add_mul, ← Nat.add_assoc,
      ← Nat.add_assoc, ← ends, ← added]
    cases index with
    | zero =>
      cases found
      simp [secondsSum, roundedSum]
    | succ index => exact ih more found

private theorem worth_eq (total : HumanAmount) (steps : List VestingStep) :
    worth total steps = ((total.atomics.val * percentSum steps : ℕ) : ℚ) /
      (hundredPercent.atomics.val : ℕ) / Decimal.one := by
  have hundred : hundredPercent.atomics.val = 100 * Decimal.one := rfl
  rw [worth, percentage_eq, Decimal.rational, hundred]
  push_cast
  ring

/-- What some steps are seen to unlock falls short of what they are worth by less than one of the
last places for each. -/
theorem worth_bounds (total : HumanAmount) (notEmpty : steps ≠ []) :
    (roundedSum total steps : ℚ) / Decimal.one ≤ worth total steps ∧
      worth total steps < (roundedSum total steps : ℚ) / Decimal.one + steps.length / 10 ^ 18 := by
  obtain ⟨below, above⟩ := roundedSum_bounds total steps
  have many : 0 < steps.length := List.length_pos_iff.mpr notEmpty
  have one : (0 : ℚ) < Decimal.one := Nat.cast_pos.mpr (by decide)
  have hundred : (0 : ℚ) < (hundredPercent.atomics.val : ℕ) :=
    Nat.cast_pos.mpr (by decide)
  rw [worth_eq, ← Decimal.one_eq, ← add_div, div_le_div_iff_of_pos_right one,
    div_lt_div_iff_of_pos_right one, le_div_iff₀ hundred, div_lt_iff₀ hundred]
  exact ⟨by exact_mod_cast below, by exact_mod_cast (by omega)⟩

/-- What a preview says: exact times, amounts short of their worth by less than a last place a step,
and the finish. -/
structure Accrues (total : HumanAmount) (start : Timestamp) (steps : List VestingStep)
    (points : List VestingPoint) : Prop where
  length_eq : points.length = steps.length
  time_eq : ∀ index point, points[index]? = some point → point.time.nanos.val =
    start.nanos.val + secondsSum (steps.take (index + 1)) * 1000000000
  rises : points.Pairwise fun point later =>
    point.time ≤ later.time ∧ point.unlocked.rational ≤ later.unlocked.rational
  finish_eq : finishTime start steps = .ok (points.getLast?.map VestingPoint.time)
  le_worth : ∀ index point, points[index]? = some point →
    point.unlocked.rational ≤ worth total (steps.take (index + 1))
  worth_lt : ∀ index point, points[index]? = some point →
    worth total (steps.take (index + 1)) < point.unlocked.rational + (index + 1) / 10 ^ 18

/-- The last point is at the time when the schedule finishes; without steps there is neither. -/
theorem finishTime_of_points (made : Vesting.points total start steps = .ok points) :
    finishTime start steps = .ok (points.getLast?.map VestingPoint.time) := by
  have length := length_pointsFrom made
  by_cases empty : steps = []
  · subst empty
    cases made
    rfl
  · have many : 0 < steps.length := List.length_pos_iff.mpr empty
    obtain ⟨last, found⟩ : ∃ last, points[steps.length - 1]? = some last :=
      ⟨_, List.getElem?_eq_getElem (by omega)⟩
    have ends := (getElem?_pointsFrom made found).1
    rw [Nat.sub_add_cancel many, List.take_length] at ends
    rw [List.getLast?_eq_getElem?, length, found]
    exact (finishTime_eq_ok_iff empty).mpr ends

private theorem worth_bounds_of_points (made : Vesting.points total start steps = .ok points)
    {index : ℕ} {point : VestingPoint} (found : points[index]? = some point) :
    point.unlocked.rational ≤ worth total (steps.take (index + 1)) ∧
      worth total (steps.take (index + 1)) < point.unlocked.rational + (index + 1) / 10 ^ 18 := by
  obtain ⟨inside, _⟩ := List.getElem?_eq_some_iff.mp found
  have length : (steps.take (index + 1)).length = index + 1 := by
    rw [List.length_take_of_le (by rw [← length_pointsFrom made]; exact inside)]
  have amount := (getElem?_pointsFrom made found).2
  rw [Decimal.val_zero, Nat.zero_add] at amount
  have bounds := worth_bounds total (List.ne_nil_of_length_eq_add_one length)
  rwa [length, ← amount, Nat.cast_add, Nat.cast_one] at bounds

private theorem accrues_of_points (made : Vesting.points total start steps = .ok points) :
    Accrues total start steps points where
  length_eq := length_pointsFrom made
  time_eq := fun _ _ found => (getElem?_pointsFrom made found).1
  rises := by
    refine List.pairwise_iff_getElem.mpr fun index behind before after less => ?_
    obtain ⟨time, amount⟩ := getElem?_pointsFrom made (List.getElem?_eq_getElem before)
    obtain ⟨later, more⟩ := getElem?_pointsFrom made (List.getElem?_eq_getElem after)
    have le : index + 1 ≤ behind + 1 := Nat.succ_le_succ less.le
    constructor
    · change points[index].time.nanos.val ≤ points[behind].time.nanos.val
      rw [time, later]
      exact Nat.add_le_add_left (Nat.mul_le_mul_right _ (sum_map_take_mono _ le)) _
    · apply Decimal.rational_mono
      rw [amount, more]
      exact Nat.add_le_add_left (sum_map_take_mono _ le) _
  finish_eq := finishTime_of_points made
  le_worth := fun _ _ found => (worth_bounds_of_points made found).1
  worth_lt := fun _ _ found => (worth_bounds_of_points made found).2

/-- A preview of any steps accrues as they say; their schedule has a finish if and only if its exact
end can be counted. -/
theorem preview_accrues (total : HumanAmount) (start : Timestamp) (steps : List VestingStep) :
    (∀ points, Vesting.points total start steps = .ok points → Accrues total start steps points) ∧
      (steps ≠ [] →
        (finishTime start steps = .error .timeOverflow ↔
          2 ^ 64 - 1 < start.nanos.val + secondsSum steps * 1000000000) ∧
        ((∃ finish, finishTime start steps = .ok (some finish)) ↔
          start.nanos.val + secondsSum steps * 1000000000 ≤ 2 ^ 64 - 1)) := by
  refine ⟨fun points made => accrues_of_points made, fun notEmpty => ⟨?_, ?_⟩⟩
  · rw [finishTime_eq_error_iff notEmpty, Nat.pow_eq]
    omega
  · simp only [finishTime_eq_ok_iff notEmpty]
    constructor
    · rintro ⟨finish, ends⟩
      have bound := finish.nanos.val_lt
      rw [ends, Nat.pow_eq] at bound
      omega
    · intro inTime
      have bound : start.nanos.val + secondsSum steps * 1000000000 <
          Nat.pow 2 64 := by
        rw [Nat.pow_eq]
        omega
      exact ⟨⟨⟨_, bound⟩⟩, rfl⟩

/-- Half as much again as there is after a minute, a third of a percent with it, and the smallest
share after ten years. -/
def excess : List VestingStep :=
  [⟨⟨⟨150000000000000000000, by decide⟩⟩, ⟨⟨90, by decide⟩, .minutes⟩⟩,
    ⟨⟨⟨333333333333333333, by decide⟩⟩, ⟨.zero, .weeks⟩⟩,
    ⟨⟨⟨1, by decide⟩⟩, ⟨⟨10, by decide⟩, .years⟩⟩]

/-- What is seen of it for one token and seven of the last places. -/
def excessPoints : List VestingPoint :=
  [⟨⟨⟨1700005400000000000, by decide⟩⟩, ⟨⟨1500000000000000010, by decide⟩⟩⟩,
    ⟨⟨⟨1700005400000000000, by decide⟩⟩, ⟨⟨1503333333333333343, by decide⟩⟩⟩,
    ⟨⟨⟨2015365400000000000, by decide⟩⟩, ⟨⟨1503333333333333343, by decide⟩⟩⟩]

/-- A schedule of more than all of the total is previewed all the same, up to its finish. -/
theorem preview_accrues_excess :
    ∃ finish, Vesting.points ⟨⟨1000000000000000007, by decide⟩⟩ Context.sample.now excess =
        .ok excessPoints ∧
      Accrues ⟨⟨1000000000000000007, by decide⟩⟩ Context.sample.now excess excessPoints ∧
      finishTime Context.sample.now excess = .ok (some finish) := by
  have made : Vesting.points ⟨⟨1000000000000000007, by decide⟩⟩ Context.sample.now excess =
    .ok excessPoints := by decide
  obtain ⟨accrues, finishes⟩ :=
    preview_accrues ⟨⟨1000000000000000007, by decide⟩⟩ Context.sample.now excess
  obtain ⟨finish, found⟩ := (finishes (by decide)).2.mpr (by decide)
  exact ⟨finish, made, accrues _ made, found⟩

end Vesting

end Proposal
