import Mathlib.Tactic
import Proposal.Proofs.Vesting.Reencoding

/-! Curves may come from anyone. The share shown for an amount is its floor in steps of a percent,
and floors rise with amounts. -/
namespace Proposal

namespace Vesting

variable {total amount : BaseAmount} {points : List (Count × BaseAmount)}
  {steps : List VestingStep} {step : VestingStep}

/-- The later point is not before the other in time, and not below it. -/
def Rises (point later : Count × BaseAmount) : Prop :=
  point.1 ≤ later.1 ∧ point.2 ≤ later.2

theorem Rises.trans {first second third : Count × BaseAmount} (before : Rises first second)
    (behind : Rises second third) : Rises first third :=
  ⟨Nat.le_trans before.1 behind.1, Nat.le_trans before.2 behind.2⟩

/-- A curve from nothing can be shown as steps: it never falls, stays within the total, and its
hundredfold fits. -/
structure Showable (total : BaseAmount) (points : List (Count × BaseAmount)) : Prop where
  nonzero : total.val ≠ 0
  notEmpty : points ≠ []
  rises : points.Pairwise Rises
  within : ∀ point ∈ points, point.2 ≤ total
  fits : ∀ point ∈ points, point.2 = total ∨ point.2.val * 100 < 2 ^ 128

/-- The share of the step is what is left of the share that is shown for a point when the one shown
for the point before is taken away. -/
def Bridges (total : BaseAmount) (before point : Count × BaseAmount) (step : VestingStep) : Prop :=
  ∃ reached cumulative,
    VestingContract.Schedule.cumulativePercent? total before.2 = some reached ∧
    VestingContract.Schedule.cumulativePercent? total point.2 = some cumulative ∧
    cumulative.sub? reached = some step.percent

/-- What steps say of a curve from nothing: up to each point the delays add up to its time, the
shares to its percent. -/
structure Describes (total : BaseAmount) (points : List (Count × BaseAmount))
    (steps : List VestingStep) : Prop where
  length_eq : steps.length = points.length
  seconds : ∀ count point, ((.zero, .zero) :: points)[count]? = some point →
    durationSeconds (steps.take count) = .ok point.1 ∧
      point.1.val = secondsSum (steps.take count)
  shares : ∀ count point, ((.zero, .zero) :: points)[count]? = some point →
    percentSum (steps.take count) = point.2.val * 10 ^ 20 / total.val
  bridges : ∀ (index : ℕ) before point step, ((.zero, .zero) :: points)[index]? = some before →
    points[index]? = some point → steps[index]? = some step → Bridges total before point step
  sum_le : percentSum steps ≤ hundredPercent.atomics.val
  whole_iff : percentSum steps = hundredPercent.atomics.val ↔
    points.getLast?.map Prod.snd = some total

private theorem shownShare_mono {less more : BaseAmount} (le : less ≤ more) :
    shownShare total less ≤ shownShare total more :=
  Nat.div_le_div_right (Nat.mul_le_mul_right _ le)

private theorem shownShare_le (within : amount ≤ total) :
    shownShare total amount ≤ hundredPercent.atomics.val :=
  Nat.div_le_of_le_mul (Nat.mul_le_mul_right _ within)

/-- Rounded down, an amount is shown as all of the total if and only if it is the total. -/
theorem shownShare_eq_hundred_iff (nonzero : total.val ≠ 0) (within : amount ≤ total) :
    shownShare total amount = hundredPercent.atomics.val ↔ amount = total := by
  constructor
  · intro whole
    have reaches : total.val * shownShare total amount ≤
        amount.val * hundredPercent.atomics.val :=
      Nat.mul_div_le _ _
    rw [whole] at reaches
    exact Unsigned.ext (Nat.le_antisymm within (Nat.le_of_mul_le_mul_right reaches (by decide)))
  · rintro rfl
    exact Nat.mul_div_cancel_left _ (Nat.pos_of_ne_zero nonzero)

private theorem percentSum_take_add_one {index : ℕ} (found : steps[index]? = some step) :
    percentSum (steps.take (index + 1)) =
      percentSum (steps.take index) + step.percent.atomics.val := by
  simp [percentSum, List.take_add_one, found]

private theorem isChain_rises_iff :
    ((.zero, .zero) :: points).IsChain Rises ↔ points.Pairwise Rises := by
  have : Trans Rises Rises Rises := ⟨Rises.trans⟩
  rw [List.isChain_iff_pairwise, List.pairwise_cons]
  exact and_iff_right fun _ _ => ⟨Nat.zero_le _, Nat.zero_le _⟩

end Vesting

namespace VestingContract.Schedule

open Vesting

variable {total amount next : BaseAmount} {reached : Reached} {earlier cumulative : Percent}
  {steps : List VestingStep} {points : List (Count × BaseAmount)} {point : Count × BaseAmount}

/-- An amount within the total is shown if and only if it is the total or its hundredfold fits. -/
theorem exists_cumulativePercent?_iff (nonzero : total.val ≠ 0) (within : amount ≤ total) :
    (∃ percent, cumulativePercent? total amount = some percent) ↔
      amount = total ∨ amount.val * 100 < 2 ^ 128 := by
  simp only [cumulativePercent?_eq_some_iff nonzero, exists_and_left, Unsigned.ext_iff]
  exact and_iff_left ⟨⟨⟨_, (shownShare_le within).trans_lt hundredPercent.atomics.val_lt⟩⟩, rfl⟩

private theorem cumulativePercent?_zero (nonzero : total.val ≠ 0) :
    cumulativePercent? total .zero = some .zero :=
  (cumulativePercent?_eq_some_iff nonzero).mpr ⟨.inr (by decide), by simp⟩

/-- Of two amounts the larger is not shown as less, so that the difference can be taken. -/
theorem exists_sub?_of_le (nonzero : total.val ≠ 0) (le : amount ≤ next)
    (shown : cumulativePercent? total amount = some earlier)
    (shownNext : cumulativePercent? total next = some cumulative) :
    ∃ percent, cumulative.sub? earlier = some percent := by
  have climbs : earlier.atomics.val ≤ cumulative.atomics.val := by
    rw [((cumulativePercent?_eq_some_iff nonzero).mp shown).2,
      ((cumulativePercent?_eq_some_iff nonzero).mp shownNext).2]
    exact shownShare_mono le
  exact ⟨⟨⟨cumulative.atomics.val - earlier.atomics.val,
      (Nat.sub_le _ _).trans_lt cumulative.atomics.val_lt⟩⟩,
    Decimal.sub?_eq_some_iff.mpr (Nat.add_sub_of_le climbs).symm⟩

/-- From a point on there are steps through points that never fall, stay within the total and are
shown themselves. -/
theorem exists_stepsFrom?_iff (nonzero : total.val ≠ 0)
    (shown : cumulativePercent? total reached.amount = some reached.percent) :
    (∃ steps, stepsFrom? total reached points = some steps) ↔
      ((reached.seconds, reached.amount) :: points).IsChain Rises ∧
        ∀ point ∈ points, point.2 ≤ total ∧ (point.2 = total ∨ point.2.val * 100 < 2 ^ 128) := by
  induction points generalizing reached with
  | nil => simp [stepsFrom?]
  | cons point rest ih =>
    obtain ⟨seconds, amount⟩ := point
    rw [List.isChain_cons_cons, List.forall_mem_cons]
    constructor
    · rintro ⟨steps, read⟩
      obtain ⟨delay, cumulative, percent, others, rises, within, later, known, _, more, _⟩ :=
        stepsFrom?_cons_eq_some_iff.mp read
      obtain ⟨chain, bounded⟩ := (ih known).mp ⟨others, more⟩
      have inTime : reached.seconds ≤ seconds := Nat.le.intro later.symm
      exact ⟨⟨⟨inTime, rises⟩, chain⟩,
        ⟨within, (exists_cumulativePercent?_iff nonzero within).mp ⟨cumulative, known⟩⟩, bounded⟩
    · rintro ⟨⟨⟨inTime, rises⟩, chain⟩, ⟨within, fits⟩, bounded⟩
      obtain ⟨cumulative, known⟩ := (exists_cumulativePercent?_iff nonzero within).mpr fits
      -- The share that was reached is the floor of an amount that is not above this one.
      obtain ⟨percent, share⟩ := exists_sub?_of_le nonzero rises shown known
      let next : Reached := ⟨seconds, amount, cumulative⟩
      have shownNext : cumulativePercent? total next.amount = some next.percent := known
      obtain ⟨others, more⟩ := (ih shownNext).mpr ⟨chain, bounded⟩
      let delay : Count := ⟨seconds.val - reached.seconds.val,
        (Nat.sub_le _ _).trans_lt seconds.val_lt⟩
      have later : seconds.val = reached.seconds.val + delay.val := (Nat.add_sub_of_le inTime).symm
      exact ⟨_, stepsFrom?_cons_eq_some_iff.mpr ⟨delay, cumulative, percent, others, rises, within,
        later, known, Decimal.sub?_eq_some_iff.mp share, more, rfl⟩⟩

/-- Up to each point the delays of the steps add up to its time, and their shares to the share that
is shown for it. -/
theorem getElem?_stepsFrom? (nonzero : total.val ≠ 0)
    (read : stepsFrom? total reached points = some steps) {index : ℕ}
    (found : points[index]? = some point) :
    point.1.val = reached.seconds.val + secondsSum (steps.take (index + 1)) ∧
      shownShare total point.2 =
        reached.percent.atomics.val + percentSum (steps.take (index + 1)) := by
  induction points generalizing reached steps index with
  | nil => cases found
  | cons first rest ih =>
    obtain ⟨delay, cumulative, percent, others, _, _, later, known, share, more, rfl⟩ :=
      stepsFrom?_cons_eq_some_iff.mp read
    have shown : cumulative.atomics.val = shownShare total first.2 :=
      ((cumulativePercent?_eq_some_iff nonzero).mp known).2
    rw [List.take_succ_cons, secondsSum_cons, percentSum_cons, VestingStep.span_ofSeconds,
      ← Nat.add_assoc, ← Nat.add_assoc, ← later, ← share]
    cases index with
    | zero =>
      cases found
      simp [secondsSum, percentSum, shown]
    | succ index => exact ih more found

section Start

variable (nonzero : total.val ≠ 0)
  (read : stepsFrom? total ⟨.zero, .zero, .zero⟩ points = some steps)
include nonzero read

/-- The points of a curve from nothing, its start included, are the sums over the steps before. -/
theorem sums_of_stepsFrom? {count : ℕ}
    (found : ((.zero, .zero) :: points : List (Count × BaseAmount))[count]? = some point) :
    point.1.val = secondsSum (steps.take count) ∧
      percentSum (steps.take count) = shownShare total point.2 := by
  cases count with
  | zero =>
    cases found
    simp [secondsSum, percentSum, shownShare]
  | succ index =>
    obtain ⟨seconds, share⟩ := getElem?_stepsFrom? nonzero read found
    rw [Unsigned.val_zero, Nat.zero_add] at seconds
    rw [Decimal.val_zero, Nat.zero_add] at share
    exact ⟨seconds, share.symm⟩

private theorem percentSum_of_cumulativePercent? {count : ℕ} {percent : Percent}
    (found : ((.zero, .zero) :: points : List (Count × BaseAmount))[count]? = some point)
    (shown : cumulativePercent? total point.2 = some percent) :
    percent.atomics.val = percentSum (steps.take count) := by
  rw [(sums_of_stepsFrom? nonzero read found).2]
  exact ((cumulativePercent?_eq_some_iff nonzero).mp shown).2

/-- All steps together come to the share that is shown for the last point. -/
theorem percentSum_of_getLast? (ends : points.getLast? = some point) :
    percentSum steps = shownShare total point.2 := by
  have found : ((.zero, .zero) :: points : List (Count × BaseAmount))[steps.length]? =
      some point := by
    rw [length_of_stepsFrom? read, ← ends, List.getLast?_eq_getElem?]
    cases points with
    | nil => cases ends
    | cons first rest => rfl
  have share := (sums_of_stepsFrom? nonzero read found).2
  rwa [List.take_length] at share

end Start

end VestingContract.Schedule

namespace Vesting

open VestingContract.Schedule

variable {total : BaseAmount} {points : List (Count × BaseAmount)} {steps : List VestingStep}
  {point : Count × BaseAmount}

/-- A share is shown for each point of such a curve and for its start. -/
theorem Showable.exists_cumulativePercent? (showable : Showable total points)
    (member : point ∈ ((.zero, .zero) :: points : List (Count × BaseAmount))) :
    ∃ percent, cumulativePercent? total point.2 = some percent := by
  rcases List.mem_cons.mp member with rfl | inside
  · exact ⟨.zero, cumulativePercent?_zero showable.nonzero⟩
  · exact (exists_cumulativePercent?_iff showable.nonzero (showable.within point inside)).mpr
      (showable.fits point inside)

section Read

variable (showable : Showable total points)
  (read : stepsFrom? total ⟨.zero, .zero, .zero⟩ points = some steps)
include showable read

private theorem Showable.bridges {index : ℕ} {before : Count × BaseAmount} {step : VestingStep}
    (foundBefore : ((.zero, .zero) :: points : List (Count × BaseAmount))[index]? = some before)
    (found : points[index]? = some point) (taken : steps[index]? = some step) :
    Bridges total before point step := by
  obtain ⟨reached, shown⟩ :=
    showable.exists_cumulativePercent? (List.mem_of_getElem? foundBefore)
  obtain ⟨cumulative, shownNext⟩ :=
    showable.exists_cumulativePercent? (List.mem_cons_of_mem _ (List.mem_of_getElem? found))
  have share : reached.atomics.val = percentSum (steps.take index) :=
    percentSum_of_cumulativePercent? showable.nonzero read foundBefore shown
  have next : cumulative.atomics.val = percentSum (steps.take (index + 1)) :=
    percentSum_of_cumulativePercent? showable.nonzero read found shownNext
  refine ⟨reached, cumulative, shown, shownNext, Decimal.sub?_eq_some_iff.mpr ?_⟩
  rw [next, share, percentSum_take_add_one taken]

private theorem Showable.describes : Describes total points steps := by
  obtain ⟨last, ends⟩ : ∃ last, points.getLast? = some last :=
    ⟨_, List.getLast?_eq_some_getLast showable.notEmpty⟩
  have within : last.2 ≤ total := showable.within last (List.mem_of_getLast? ends)
  have sum : percentSum steps = shownShare total last.2 :=
    percentSum_of_getLast? showable.nonzero read ends
  exact {
    length_eq := length_of_stepsFrom? read
    seconds := by
      intro count point found
      have seconds := (sums_of_stepsFrom? showable.nonzero read found).1
      exact ⟨durationSeconds_eq_ok_iff.mpr seconds, seconds⟩
    shares := fun _ _ found => (sums_of_stepsFrom? showable.nonzero read found).2
    bridges := fun _ _ _ _ foundBefore found taken =>
      showable.bridges read foundBefore found taken
    sum_le := by
      rw [sum]
      exact shownShare_le within
    whole_iff := by
      rw [sum, shownShare_eq_hundred_iff showable.nonzero within, ends, Option.map_some,
        Option.some.injEq] }

end Read

end Vesting

namespace VestingContract.Schedule

open Vesting

variable {total : BaseAmount} {duration : Count} {points : List (Count × BaseAmount)}

/-- There are steps for a curve if and only if it can be shown. -/
theorem exists_steps?_iff :
    (∃ steps, steps? (.piecewiseLinear points) total duration = some steps) ↔
      Showable total (dropStart points) := by
  simp only [steps?_eq_some_iff, exists_and_left]
  constructor
  · rintro ⟨notEmpty, nonzero, read⟩
    obtain ⟨chain, bounded⟩ :=
      (exists_stepsFrom?_iff nonzero (cumulativePercent?_zero nonzero)).mp read
    exact ⟨nonzero, notEmpty, isChain_rises_iff.mp chain,
      fun point member => (bounded point member).1, fun point member => (bounded point member).2⟩
  · intro showable
    have nonzero := showable.nonzero
    have bounded : ∀ point ∈ dropStart points,
        point.2 ≤ total ∧ (point.2 = total ∨ point.2.val * 100 < 2 ^ 128) :=
      fun point member => ⟨showable.within point member, showable.fits point member⟩
    exact ⟨showable.notEmpty, nonzero,
      (exists_stepsFrom?_iff nonzero (cumulativePercent?_zero nonzero)).mpr
        ⟨isChain_rises_iff.mpr showable.rises, bounded⟩⟩

/-- The steps that a curve is shown as describe its points, but for one at the start; a curve has
steps if it is showable. -/
theorem steps_describe_curve (points : List (Count × BaseAmount)) (total : BaseAmount)
    (duration : Count) :
    ∃ curve, (points = (.zero, .zero) :: curve ∨
        points.head? ≠ some (.zero, .zero) ∧ points = curve) ∧
      ((∃ steps, steps? (.piecewiseLinear points) total duration = some steps) ↔
        Showable total curve) ∧
      ∀ steps, steps? (.piecewiseLinear points) total duration = some steps →
        Describes total curve steps := by
  refine ⟨dropStart points, dropStart_cases points, exists_steps?_iff, fun steps read => ?_⟩
  have showable : Showable total (dropStart points) := exists_steps?_iff.mp ⟨steps, read⟩
  exact showable.describes (steps?_eq_some_iff.mp read).2.2

/-- A third of 57 base units after ten days, and the rest after ten more. -/
def thirds : List (Count × BaseAmount) :=
  [(.zero, .zero), (⟨864000, by decide⟩, ⟨19, by decide⟩), (⟨1728000, by decide⟩, ⟨57, by decide⟩)]

/-- A third of 114 base units at once, and the rest after five days. -/
def thirdAtOnce : List (Count × BaseAmount) :=
  [(.zero, ⟨38, by decide⟩), (⟨432000, by decide⟩, ⟨114, by decide⟩)]

/-- A third is shown as a little less, and the last step makes up for it. What is unlocked at once
has a step of its own. -/
theorem steps_describe_curve_thirds :
    ∃ steps others, steps? (.piecewiseLinear thirds) ⟨57, by decide⟩ .zero = some steps ∧
      steps.length = 2 ∧ secondsSum (steps.take 1) = 864000 ∧ secondsSum steps = 1728000 ∧
      percentSum (steps.take 1) = 33333333333333333333 ∧
      percentSum steps = hundredPercent.atomics.val ∧
      steps? (.piecewiseLinear thirdAtOnce) ⟨114, by decide⟩ .zero = some others ∧
      others.length = 2 ∧ secondsSum (others.take 1) = 0 ∧ secondsSum others = 432000 ∧
      percentSum (others.take 1) = 33333333333333333333 := by
  obtain ⟨steps, read⟩ :
      ∃ steps, steps? (.piecewiseLinear thirds) ⟨57, by decide⟩ .zero = some steps := ⟨_, rfl⟩
  obtain ⟨others, readOthers⟩ :
      ∃ steps, steps? (.piecewiseLinear thirdAtOnce) ⟨114, by decide⟩ .zero = some steps := ⟨_, rfl⟩
  obtain ⟨curve, behind, _, describes⟩ := steps_describe_curve thirds ⟨57, by decide⟩ .zero
  obtain ⟨whole, behindWhole, _, describesWhole⟩ :=
    steps_describe_curve thirdAtOnce ⟨114, by decide⟩ .zero
  obtain rfl : thirds.tail = curve :=
    behind.elim (congrArg List.tail) fun other => absurd rfl other.1
  obtain rfl : thirdAtOnce = whole := behindWhole.elim (fun start => by cases start) And.right
  have described := describes steps read
  have describedWhole := describesWhole others readOthers
  have two : steps.length = 2 := described.length_eq
  have twoOthers : others.length = 2 := describedWhole.length_eq
  have all : steps.take 2 = steps := by rw [← two, List.take_length]
  have allOthers : others.take 2 = others := by rw [← twoOthers, List.take_length]
  refine ⟨steps, others, read, two, (described.seconds 1 _ rfl).2.symm, ?_,
    described.shares 1 _ rfl, described.whole_iff.mpr rfl, readOthers, twoOthers,
    (describedWhole.seconds 1 _ rfl).2.symm, ?_, describedWhole.shares 1 _ rfl⟩
  · rw [← all]
    exact (described.seconds 2 _ rfl).2.symm
  · rw [← allOthers]
    exact (describedWhole.seconds 2 _ rfl).2.symm

end VestingContract.Schedule

end Proposal
