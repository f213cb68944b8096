import Mathlib.Tactic
import Proposal.Proofs.Vesting.Finish

namespace Proposal

namespace Vesting

variable {total : BaseAmount} {human unlockedSoFar : HumanAmount} {decimals : Places}
  {start time : Timestamp} {seconds : Count} {percent : Percent} {step : VestingStep}
  {steps rest : List VestingStep} {offsets : List (Count × BaseAmount)}

/-- What one step adds to the preview. -/
theorem pointsFrom_cons_eq_ok_iff {points : List VestingPoint} :
    pointsFrom human time unlockedSoFar (step :: rest) = .ok points ↔
      ∃ (later : Timestamp) (share reached : HumanAmount) (others : List VestingPoint),
        later.nanos.val = time.nanos.val + step.span * 1000000000 ∧
        share.atomics.val = human.atomics.val * step.percent.atomics.val / Decimal.one ∧
        reached.atomics.val = unlockedSoFar.atomics.val + share.atomics.val / 100 ∧
        pointsFrom human later reached rest = .ok others ∧
        points = ⟨later, reached⟩ :: others := by
  simp only [pointsFrom, bind_eq_ok_iff, VestingStep.endTime_eq_ok_iff, Decimal.times_eq_ok_iff,
    Decimal.plus_eq_ok_iff]
  constructor
  · rintro ⟨later, ends, share, scaled, reached, added, others, more, same⟩
    cases same
    exact ⟨later, share, reached, others, ends, scaled, added, more, rfl⟩
  · rintro ⟨later, share, reached, others, ends, scaled, added, more, rfl⟩
    exact ⟨later, ends, share, scaled, reached, added, others, more, rfl⟩

/-- A point of the preview says what the point of the curve says: the same time after the start, and
exactly the same amount. -/
def Foresees (start : Timestamp) (decimals : Places) (point : VestingPoint)
    (offset : Count × BaseAmount) : Prop :=
  point.time.nanos.val = start.nanos.val + offset.1.val * 1000000000 ∧
    Amount.toHuman offset.2 decimals = .ok point.unlocked

/-- A step between two exact amounts unlocks exactly their difference. -/
theorem unlocked_add_share (scale : ℕ) {reached before added : ℕ} (sum : reached = before + added)
    (start : hundredPercent.atomics.val ∣ total.val * before)
    (whole : hundredPercent.atomics.val ∣ total.val * reached) :
    unlocked total before * scale + total.val * scale * added / Decimal.one / 100 =
      unlocked total reached * scale := by
  have part : hundredPercent.atomics.val ∣ total.val * added := by
    rw [sum, Nat.mul_add] at whole
    exact (Nat.dvd_add_right start).mp whole
  have share : total.val * scale * added / Decimal.one / 100 = unlocked total added * scale := by
    have hundred : Decimal.one * 100 = hundredPercent.atomics.val := rfl
    rw [Nat.div_div_eq_div_mul, hundred, Nat.mul_right_comm]
    exact (Nat.div_mul_right_comm part scale).symm
  rw [share, ← Nat.add_mul, sum, unlocked, unlocked, unlocked, Nat.mul_add,
    Nat.add_div_of_dvd_right start]

/-- The product of a total and a share of it keeps its place in a human amount. -/
theorem product_lt (exactTotal : Amount.Exact human total decimals) {added : ℕ}
    (within : added ≤ hundredPercent.atomics.val) :
    human.atomics.val * added / Decimal.one < Nat.pow 2 256 := by
  have bound : human.atomics.val < Nat.pow 2 128 * Decimal.one := by
    rw [(Amount.exact_iff.mp exactTotal).2]
    exact Nat.mul_lt_mul_of_lt_of_le total.val_lt (Amount.stepsPerBase_le decimals) (by decide)
  have hundred : hundredPercent.atomics.val = 100 * Decimal.one := rfl
  calc human.atomics.val * added / Decimal.one
      ≤ human.atomics.val * hundredPercent.atomics.val / Decimal.one :=
        Nat.div_le_div_right (Nat.mul_le_mul_left _ within)
    _ = human.atomics.val * 100 := by
        rw [hundred, ← Nat.mul_assoc, Nat.mul_div_cancel _ (by decide)]
    _ < Nat.pow 2 128 * Decimal.one * 100 := Nat.mul_lt_mul_of_pos_right bound (by decide)
    _ ≤ Nat.pow 2 256 := by decide

/-- Between two steps, preview and curve are at the same time and at the same amount, in whole base
units. -/
structure Abreast (total : BaseAmount) (decimals : Places) (start time : Timestamp)
    (unlockedSoFar : HumanAmount) (seconds : Count) (percent : Percent) : Prop where
  time_eq : time.nanos.val = start.nanos.val + seconds.val * 1000000000
  unlocked_eq : unlockedSoFar.atomics.val =
    unlocked total percent.atomics.val * Amount.stepsPerBase decimals
  whole : hundredPercent.atomics.val ∣ total.val * percent.atomics.val

namespace Abreast

variable (exactTotal : Amount.Exact human total decimals)
  (abreast : Abreast total decimals start time unlockedSoFar seconds percent)
include exactTotal abreast

private theorem foresees {amount : BaseAmount}
    (share : amount.val = unlocked total percent.atomics.val) :
    Foresees start decimals ⟨time, unlockedSoFar⟩ (seconds, amount) := by
  have exactShown : Amount.Exact unlockedSoFar amount decimals :=
    Amount.exact_iff.mpr ⟨exactTotal.1, by rw [abreast.unlocked_eq, share]⟩
  exact ⟨abreast.time_eq, Amount.toHuman_eq_ok_iff.mpr exactShown⟩

/-- A step that ends on whole base units takes the preview on, to where it takes the curve. -/
theorem advance {later : Count} {reached : Percent} {amount : BaseAmount}
    (spans : later.val = seconds.val + step.span)
    (sum : reached.atomics.val = percent.atomics.val + step.percent.atomics.val)
    (share : amount.val = unlocked total reached.atomics.val)
    (whole : hundredPercent.atomics.val ∣ total.val * reached.atomics.val)
    (within : step.percent.atomics.val ≤ hundredPercent.atomics.val)
    (inTime : time.nanos.val + step.span * 1000000000 < Nat.pow 2 64) :
    ∃ (ends : Timestamp) (product shown : HumanAmount),
      ends.nanos.val = time.nanos.val + step.span * 1000000000 ∧
      product.atomics.val = human.atomics.val * step.percent.atomics.val / Decimal.one ∧
      shown.atomics.val = unlockedSoFar.atomics.val + product.atomics.val / 100 ∧
      Abreast total decimals start ends shown later reached := by
  have added : unlockedSoFar.atomics.val +
      human.atomics.val * step.percent.atomics.val / Decimal.one / 100 =
        unlocked total reached.atomics.val * Amount.stepsPerBase decimals := by
    rw [abreast.unlocked_eq, (Amount.exact_iff.mp exactTotal).2]
    exact unlocked_add_share _ sum abreast.whole whole
  let ends : Timestamp := ⟨⟨_, inTime⟩⟩
  let product : HumanAmount := ⟨⟨_, product_lt exactTotal within⟩⟩
  let shown : HumanAmount := ⟨⟨_, Amount.human_lt amount decimals⟩⟩
  have shows : shown.atomics.val =
      unlocked total reached.atomics.val * Amount.stepsPerBase decimals :=
    congrArg (· * _) share
  refine ⟨ends, product, shown, rfl, rfl, shows.trans added.symm, ?_, shows, whole⟩
  change time.nanos.val + step.span * 1000000000 = _
  rw [spans, Nat.add_mul, ← Nat.add_assoc, ← abreast.time_eq]

/-- From any point of an exact curve onwards, there is a preview of the rest that says the same. -/
theorem foresees_offsetsFrom (planned : offsetsFrom total seconds percent steps = .ok offsets)
    (exactly : exactFrom total percent steps = .ok true)
    (shares : percent.atomics.val + percentSum steps ≤ hundredPercent.atomics.val)
    (inTime : time.nanos.val + secondsSum steps * 1000000000 < Nat.pow 2 64) :
    ∃ points, pointsFrom human time unlockedSoFar steps = .ok points ∧
      List.Forall₂ (Foresees start decimals) points offsets := by
  induction steps generalizing time seconds percent unlockedSoFar offsets with
  | nil =>
    cases planned
    exact ⟨[], rfl, .nil⟩
  | cons step rest ih =>
    obtain ⟨later, reached, amount, others, spans, sum, share, more, rfl⟩ :=
      offsetsFrom_cons_eq_ok_iff.mp planned
    obtain ⟨same, again, whole, exactRest⟩ := exactFrom_cons_eq_true_iff.mp exactly
    obtain rfl : same = reached := Decimal.ext (again.trans sum.symm)
    rw [percentSum_cons, ← Nat.add_assoc, ← sum] at shares
    rw [secondsSum_cons, Nat.add_mul, ← Nat.add_assoc] at inTime
    obtain ⟨ends, product, shown, endTime, scaled, added, next⟩ :=
      abreast.advance exactTotal spans sum share whole (by omega) (Nat.lt_of_add_right_lt inTime)
    rw [← endTime] at inTime
    obtain ⟨points, previewed, foresees⟩ := ih next more exactRest shares inTime
    exact ⟨⟨ends, shown⟩ :: points, pointsFrom_cons_eq_ok_iff.mpr
        ⟨ends, product, shown, points, endTime, scaled, added, previewed, rfl⟩,
      .cons (next.foresees exactTotal share) foresees⟩

end Abreast

/-- What lists of pairs end with is a pair. -/
theorem exists_getLast?_of_forall₂ {α β : Type} {relation : α → β → Prop} {items : List α}
    {others : List β} (pairs : List.Forall₂ relation items others) {last : β}
    (ends : others.getLast? = some last) :
    ∃ item, items.getLast? = some item ∧ relation item last := by
  induction pairs with
  | nil => cases ends
  | @cons item other _ _ pair rest ih =>
    cases rest with
    | nil =>
      cases ends
      exact ⟨item, rfl, pair⟩
    | cons _ _ =>
      rw [List.getLast?_cons_cons] at ends
      simpa only [List.getLast?_cons_cons] using ih ends

/-- The preview of an exact schedule is the curve of the contract, point by point, and ends with the
total. -/
theorem preview_eq_curve (within : decimals.val ≤ Amount.maxDecimals)
    (whole : percentSum steps = hundredPercent.atomics.val)
    (exactly : offsetsAreExact total steps = .ok true)
    (inTime : start.nanos.val + secondsSum steps * 1000000000 < 2 ^ 64) :
    ∃ human points offsets finish, Amount.toHuman total decimals = .ok human ∧
      Vesting.points human start steps = .ok points ∧
      Vesting.offsets total steps = .ok offsets ∧
      points.length = steps.length ∧ List.Forall₂ (Foresees start decimals) points offsets ∧
      finishTime start steps = .ok (some finish) ∧ points.getLast? = some ⟨finish, human⟩ := by
  let human : HumanAmount := ⟨⟨_, Amount.human_lt total decimals⟩⟩
  have exactTotal : Amount.Exact human total decimals := Amount.exact_iff.mpr ⟨within, rfl⟩
  have countable : secondsSum steps < Nat.pow 2 64 := by
    have more : secondsSum steps ≤ secondsSum steps * 1000000000 :=
      Nat.le_mul_of_pos_right _ (by decide)
    change _ < 2 ^ 64
    omega
  have notEmpty : steps ≠ [] := by
    rintro rfl
    cases whole
  obtain ⟨offsets, planned⟩ : ∃ offsets, Vesting.offsets total steps = .ok offsets :=
    offsetsFrom_eq_ok (by simpa using countable) (by simp [whole])
  have started : Abreast total decimals start start .zero .zero .zero :=
    ⟨by simp, by simp [unlocked], dvd_zero _⟩
  obtain ⟨points, previewed, foresees⟩ :
      ∃ points, Vesting.points human start steps = .ok points ∧
        List.Forall₂ (Foresees start decimals) points offsets :=
    started.foresees_offsetsFrom exactTotal planned exactly (by simp [whole]) inTime
  have length : offsets.length = steps.length := length_offsetsFrom planned
  have counted : durationSeconds steps = .ok ⟨_, countable⟩ := durationSeconds_eq_ok_iff.mpr rfl
  have ends := (curve_of_offsets planned exactly whole counted).getLast?_tail notEmpty
  obtain ⟨⟨finish, last⟩, reached, finishes, amount⟩ := exists_getLast?_of_forall₂ foresees ends
  obtain rfl : last = human :=
    Except.ok.inj (amount.symm.trans (Amount.toHuman_eq_ok_iff.mpr exactTotal))
  exact ⟨human, points, offsets, finish, amount, previewed, planned,
    foresees.length_eq.trans length, foresees,
    (finishTime_eq_ok_iff notEmpty).mpr finishes, reached⟩

/-- Of 24 tokens the preview of the cliff says what its curve says: 3, 3 and 24. -/
theorem preview_eq_curve_cliff :
    ∃ points, Vesting.points ⟨⟨24 * Decimal.one, by decide⟩⟩ Context.sample.now
        BeginVesting.cliff.steps = .ok points ∧
      List.Forall₂ (Foresees Context.sample.now ⟨6, by decide⟩) points
        [(.zero, ⟨3000000, by decide⟩), (⟨604800, by decide⟩, ⟨3000000, by decide⟩),
          (⟨44668800, by decide⟩, ⟨24000000, by decide⟩)] := by
  have within : (⟨6, by decide⟩ : Places).val ≤ Amount.maxDecimals := by decide
  have whole : percentSum BeginVesting.cliff.steps = hundredPercent.atomics.val := rfl
  have exactly : offsetsAreExact ⟨24000000, by decide⟩ BeginVesting.cliff.steps = .ok true := by
    decide
  have inTime : Context.sample.now.nanos.val +
      secondsSum BeginVesting.cliff.steps * 1000000000 < 2 ^ 64 := by decide
  have curve : Vesting.offsets ⟨24000000, by decide⟩ BeginVesting.cliff.steps =
    .ok [(.zero, ⟨3000000, by decide⟩), (⟨604800, by decide⟩, ⟨3000000, by decide⟩),
      (⟨44668800, by decide⟩, ⟨24000000, by decide⟩)] := by decide
  obtain ⟨human, points, offsets, _, shown, previewed, planned, _, foresees, _⟩ :=
    preview_eq_curve within whole exactly inTime
  cases shown
  obtain rfl := Except.ok.inj (planned.symm.trans curve)
  exact ⟨points, previewed, foresees⟩

end Vesting

end Proposal
