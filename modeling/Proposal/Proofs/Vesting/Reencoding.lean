import Mathlib.Tactic
import Proposal.Proofs.Vesting.Curve

/-! An amount is shown as the steps of a percent below it. Of large totals a step is worth several
base units, which are lost. -/
namespace Proposal

namespace Vesting

variable {total amount : BaseAmount}

/-- The steps of a percent that an amount is shown as, rounded down. -/
def shownShare (total amount : BaseAmount) : ℕ :=
  amount.val * hundredPercent.atomics.val / total.val

/-- Some number of steps of a percent is exactly the amount. -/
def Expressible (total amount : BaseAmount) : Prop :=
  total.val ∣ amount.val * hundredPercent.atomics.val

/-- A point and the one made of it again: at the same time, short by less than a step of a percent
is worth. -/
structure Lags (total : BaseAmount) (point again : Count × BaseAmount) : Prop where
  seconds : again.1 = point.1
  le : again.2 ≤ point.2
  lost_lt : (point.2.val - again.2.val) * hundredPercent.atomics.val < total.val
  same_iff : again.2 = point.2 ↔ Expressible total point.2

/-- Steps that come to whole base units come to what they are shown for, less what was rounded. -/
theorem lags_of_shownShare (nonzero : total.val ≠ 0) {point again : Count × BaseAmount}
    (seconds : again.1 = point.1)
    (whole : hundredPercent.atomics.val ∣ total.val * shownShare total point.2)
    (made : again.2.val = unlocked total (shownShare total point.2)) :
    Lags total point again := by
  have exactly : again.2.val * hundredPercent.atomics.val =
      shownShare total point.2 * total.val := by
    rw [made, Nat.mul_comm (shownShare ..)]
    exact Nat.div_mul_cancel whole
  have positive := Nat.pos_of_ne_zero nonzero
  have below : again.2.val * hundredPercent.atomics.val ≤
      point.2.val * hundredPercent.atomics.val :=
    exactly.trans_le (Nat.div_mul_le_self _ _)
  have above : point.2.val * hundredPercent.atomics.val <
      again.2.val * hundredPercent.atomics.val + total.val := by
    rw [exactly, ← Nat.succ_mul, Nat.mul_comm _ total.val]
    exact Nat.lt_mul_div_succ _ positive
  refine ⟨seconds, Nat.le_of_mul_le_mul_right below (by decide), ?_, ?_⟩
  · rw [Nat.sub_mul]
    omega
  · rw [Expressible, Nat.dvd_iff_div_mul_eq, ← shownShare, ← exactly, Nat.mul_left_inj (by decide)]
    exact ⟨congrArg _, Unsigned.ext⟩

private theorem Lags.eq_of_le {point again : Count × BaseAmount} (lags : Lags total point again)
    (coarse : total.val ≤ hundredPercent.atomics.val) : again = point := by
  have nothing : point.2.val - again.2.val = 0 := by
    by_contra some
    have lost := lags.lost_lt.trans_le coarse
    exact absurd (Nat.le_mul_of_pos_left _ (Nat.pos_of_ne_zero some)) (Nat.not_le.mpr lost)
  exact Prod.ext lags.seconds
    (Unsigned.ext (Nat.le_antisymm lags.le (Nat.le_of_sub_eq_zero nothing)))

private theorem forall₂_lags_eq_iff {points again : List (Count × BaseAmount)}
    (lags : List.Forall₂ (Lags total) points again) :
    again = points ↔ ∀ point ∈ points, Expressible total point.2 := by
  induction lags with
  | nil => simp
  | @cons point other rest others lag _ ih =>
    rw [List.cons.injEq, ih, List.forall_mem_cons, ← lag.same_iff, Prod.ext_iff,
      and_iff_right lag.seconds]

end Vesting

namespace VestingContract.Schedule

open Vesting

variable {total amount : BaseAmount} {percent : Percent} {reached : Reached} {seconds : Count}
  {steps : List VestingStep} {rest points offsets : List (Count × BaseAmount)}

/-- The offsets of exact steps that a curve was shown as lag behind the curve. -/
theorem forall₂_lags_of_stepsFrom? (nonzero : total.val ≠ 0)
    (read : stepsFrom? total reached points = some steps)
    (planned : offsetsFrom total reached.seconds reached.percent steps = .ok offsets)
    (exactly : exactFrom total reached.percent steps = .ok true) :
    List.Forall₂ (Lags total) points offsets := by
  induction points generalizing reached steps offsets with
  | nil =>
    cases read
    cases planned
    exact .nil
  | cons point rest ih =>
    obtain ⟨delay, cumulative, percent, others, _, _, later, found, share, more, rfl⟩ :=
      stepsFrom?_cons_eq_some_iff.mp read
    obtain ⟨seconds, sum, amount, further, spans, shares, made, plannedRest, rfl⟩ :=
      offsetsFrom_cons_eq_ok_iff.mp planned
    obtain ⟨same, again, whole, exactRest⟩ := exactFrom_cons_eq_true_iff.mp exactly
    obtain rfl : same = cumulative := Decimal.ext (again.trans share.symm)
    obtain rfl : sum = same := Decimal.ext (shares.trans share.symm)
    rw [VestingStep.span_ofSeconds, ← later] at spans
    obtain rfl : seconds = point.1 := Unsigned.ext spans
    have shown : sum.atomics.val = shownShare total point.2 :=
      ((cumulativePercent?_eq_some_iff nonzero).mp found).2
    rw [shown] at whole made
    exact .cons (lags_of_shownShare nonzero rfl whole made) (ih more plannedRest exactRest)

theorem length_of_stepsFrom? (read : stepsFrom? total reached points = some steps) :
    steps.length = points.length := by
  induction points generalizing reached steps with
  | nil =>
    cases read
    rfl
  | cons point rest ih =>
    obtain ⟨_, _, _, others, _, _, _, _, _, more, rfl⟩ := stepsFrom?_cons_eq_some_iff.mp read
    rw [List.length_cons, List.length_cons, ih more]

/-- A curve from nothing is shown as the steps through its other points. -/
theorem stepsFrom?_of_steps? {duration : Count}
    (read : steps? (.piecewiseLinear ((.zero, .zero) :: points)) total duration = some steps) :
    total.val ≠ 0 ∧ stepsFrom? total ⟨.zero, .zero, .zero⟩ points = some steps := by
  rw [steps?_eq_some_iff, dropStart_start] at read
  exact read.2

/-- Several exact steps that a curve was shown as make a curve that lags behind it. -/
theorem lags_of_ofSteps {duration : Count} {schedule : Schedule} (several : 2 ≤ points.length)
    (read : steps? (.piecewiseLinear ((.zero, .zero) :: points)) total duration = some steps)
    (exactly : offsetsAreExact total steps = .ok true)
    (made : ofSteps total steps = .ok schedule) :
    ∃ lagging, schedule = .piecewiseLinear ((.zero, .zero) :: lagging) ∧
      List.Forall₂ (Lags total) points lagging := by
  obtain ⟨nonzero, read⟩ := stepsFrom?_of_steps? read
  have length := length_of_stepsFrom? read
  rw [ofSteps, if_neg (by omega)] at made
  obtain ⟨lagging, planned, same⟩ := bind_eq_ok_iff.mp made
  cases same
  exact ⟨lagging, rfl, forall₂_lags_of_stepsFrom? nonzero read planned exactly⟩

end VestingContract.Schedule

namespace BeginVesting

variable {context : Context} {form : BeginVesting} {message restored : Message}
  {original : VestingContract.Instantiate} {points : List (Count × BaseAmount)}

/-- A decoded vesting encodes to the same total and times; its amounts lag by less than a step of a
percent is worth. -/
theorem lags_of_encode_decoded (reachable : context.tokens.Reachable)
    (decoded : decode message context = .ok (.matched form))
    (told : message.Instantiates original)
    (curve : original.schedule = .piecewiseLinear ((.zero, .zero) :: points))
    (several : 2 ≤ points.length) (made : form.encode context = .ok restored) :
    ∃ instantiate lagging, restored.Instantiates instantiate ∧
      instantiate.total = original.total ∧ instantiate.denom = original.denom ∧
      instantiate.schedule = .piecewiseLinear ((.zero, .zero) :: lagging) ∧
      List.Forall₂ (Vesting.Lags original.total) points lagging ∧
      (instantiate.schedule = original.schedule ↔
        ∀ point ∈ points, Vesting.Expressible original.total point.2) ∧
      (original.total.val ≤ hundredPercent.atomics.val →
        instantiate.schedule = original.schedule) := by
  obtain ⟨grant, token, claimed, resolved, shown⟩ := decode_eq_matched_iff.mp decoded
  obtain ⟨steps, amount, read, exactly, rfl⟩ := ofInstantiate_eq_matched_iff.mp shown
  obtain ⟨granted, key⟩ := Grant.instantiates_of_ofMessage? claimed
  obtain rfl := granted.unique told
  obtain ⟨good, factory, found, total, instantiate, _, resolvedAgain, exactlyAgain, terms, rfl⟩ :=
    encode_eq_ok_iff.mp made
  -- The form names the token of the grant, so its amount is scaled by the same decimals.
  have own : token.key = grant.token := reachable.wellKeyed.key_of_lookup resolved
  obtain rfl : token = found := by
    have same : context.lookup token.key = .resolved found := resolvedAgain
    rw [own, resolved] at same
    exact TokenLookup.resolved.inj same
  obtain rfl : total = grant.instantiate.total := exactlyAgain.base_unique exactly
  obtain ⟨schedule, duration, planned, _, rfl⟩ := instantiate_eq_ok_iff.mp terms
  obtain ⟨_, _, _, exactSteps⟩ := checkSteps_eq_nil (checkSteps_of_validate good)
  rw [curve] at read
  obtain ⟨lagging, rfl, lags⟩ := VestingContract.Schedule.lags_of_ofSteps several read
    (exactSteps _ (total?_of_exact resolvedAgain exactlyAgain)) planned
  have same : lagging = points ↔ _ := Vesting.forall₂_lags_eq_iff lags
  refine ⟨_, lagging, instantiates_messageOf .., rfl, ?_, rfl, lags, ?_, fun coarse => ?_⟩
  · exact VestingContract.Denom.eq_of_key ((key_denomOf token).trans (own.trans key.symm))
  · simpa [curve] using same
  · have kept : lagging = points := by
      rw [← List.forall₂_eq_eq_eq]
      exact lags.flip.imp fun _ _ lag => lag.eq_of_le coarse
    rw [curve, kept]

/-- The sample context, which also knows a native token with eighteen decimals. -/
def fineContext : Context :=
  Context.sample.withToken ⟨.native, "agas", ⟨Amount.maxDecimals, by decide⟩, "GAS"⟩

/-- What a factory is told of a grant of so much of that token along a curve. -/
def grantAlong (total : BaseAmount) (points : List (Count × BaseAmount)) :
    VestingContract.Instantiate where
  owner := none
  recipient := "dave"
  title := "Tail"
  description := none
  total := total
  denom := .native "agas"
  schedule := .piecewiseLinear ((.zero, .zero) :: points)
  startTime := some ⟨⟨1800000000000000000, by decide⟩⟩
  vestingSeconds := (points.map Prod.fst).getLastD .zero
  unbondingSeconds := Context.sampleConfig.unbondingSeconds

def messageAlong (total : BaseAmount) (points : List (Count × BaseAmount)) : Message :=
  .execute "factory"
    (valueOf (VestingContract.FactoryExecute.instantiateNative (grantAlong total points) "tail"))
    [⟨"agas", total⟩]

private theorem instantiates_messageAlong (total : BaseAmount)
    (points : List (Count × BaseAmount)) :
    (messageAlong total points).Instantiates (grantAlong total points) :=
  .native (Message.typedCall?_execute _ _ _)

/-- The form that such a grant is shown as. -/
def formAlong (amount : HumanAmount) (steps : List VestingStep) : BeginVesting where
  recipient := "dave"
  title := "Tail"
  description := none
  owner := none
  token := .native "agas"
  amount := amount
  startTime := ⟨⟨1800000000000000000, by decide⟩⟩
  steps := steps

/-- Three eighths after a while, and the rest at the end. -/
def eighths : List (Count × BaseAmount) :=
  [(.zero, .zero), (⟨1013, by decide⟩, ⟨2313, by decide⟩), (⟨2027, by decide⟩, ⟨6168, by decide⟩)]

def eighthsForm : BeginVesting :=
  formAlong ⟨⟨6168, by decide⟩⟩
    [⟨.zero, ⟨.zero, .seconds⟩⟩,
      ⟨⟨⟨37500000000000000000, by decide⟩⟩, ⟨⟨1013, by decide⟩, .seconds⟩⟩,
      ⟨⟨⟨62500000000000000000, by decide⟩⟩, ⟨⟨1014, by decide⟩, .seconds⟩⟩]

/-- Percents express eighths, so that a curve through them is kept. -/
theorem lags_of_encode_decoded_eighths :
    ∃ restored instantiate,
      decode (messageAlong ⟨6168, by decide⟩ eighths) fineContext = .ok (.matched eighthsForm) ∧
      eighthsForm.encode fineContext = .ok restored ∧ restored.Instantiates instantiate ∧
      instantiate.schedule = .piecewiseLinear ((.zero, .zero) :: eighths) := by
  have decoded : decode (messageAlong ⟨6168, by decide⟩ eighths) fineContext =
    .ok (.matched eighthsForm) := rfl
  obtain ⟨restored, made⟩ : ∃ restored, eighthsForm.encode fineContext = .ok restored := ⟨_, rfl⟩
  obtain ⟨instantiate, _, told, _, _, _, _, _, kept⟩ := lags_of_encode_decoded
    (.insert (.insert .empty _) _) decoded (instantiates_messageAlong _ _) rfl (by decide) made
  exact ⟨restored, instantiate, decoded, made, told, kept (by decide)⟩

/-- A million tokens of which 773 base units unlock early. -/
def dust : List (Count × BaseAmount) :=
  [(⟨3607, by decide⟩, ⟨773, by decide⟩), (⟨7214, by decide⟩, ⟨10 ^ 24, by decide⟩)]

def dustForm : BeginVesting :=
  formAlong ⟨⟨1000000 * Decimal.one, by decide⟩⟩
    [⟨.zero, ⟨⟨3607, by decide⟩, .seconds⟩⟩, ⟨hundredPercent, ⟨⟨3607, by decide⟩, .seconds⟩⟩]

/-- A step of a percent is worth ten thousand base units, so that the 773 are gone when the decoded
grant is encoded again. -/
theorem dust_lost_of_encode_decoded :
    ∃ restored instantiate,
      (messageAlong ⟨10 ^ 24, by decide⟩ dust).Instantiates
        (grantAlong ⟨10 ^ 24, by decide⟩ dust) ∧
      decode (messageAlong ⟨10 ^ 24, by decide⟩ dust) fineContext = .ok (.matched dustForm) ∧
      dustForm.encode fineContext = .ok restored ∧ restored.Instantiates instantiate ∧
      instantiate.schedule ≠ (grantAlong ⟨10 ^ 24, by decide⟩ dust).schedule := by
  have decoded : decode (messageAlong ⟨10 ^ 24, by decide⟩ dust) fineContext =
    .ok (.matched dustForm) := rfl
  -- Half the time is over before anything unlocks.
  have made : dustForm.encode fineContext = .ok (dustForm.messageOf "factory"
    ⟨.native, "agas", ⟨Amount.maxDecimals, by decide⟩, "GAS"⟩ ⟨10 ^ 24, by decide⟩
    (grantAlong ⟨10 ^ 24, by decide⟩
      [(⟨3607, by decide⟩, .zero), (⟨7214, by decide⟩, ⟨10 ^ 24, by decide⟩)])) := rfl
  exact ⟨_, _, instantiates_messageAlong _ _, decoded, made, instantiates_messageOf .., by decide⟩

end BeginVesting

end Proposal
