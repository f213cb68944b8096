import Mathlib.Tactic
import Proposal.Proofs.Spending
import Proposal.Proofs.Vesting.RoundTrip

namespace Proposal

private theorem Unsigned.le_iff {bits : Nat} {left right : Unsigned bits} :
    left ≤ right ↔ left.val ≤ right.val :=
  Iff.rfl

namespace Vesting

variable {total : BaseAmount} {seconds duration : Count} {percent : Percent}
  {steps : List VestingStep} {offsets points : List (Count × BaseAmount)}

/-- More steps are never less of anything that is added up over steps. -/
theorem sum_map_take_mono (measure : VestingStep → ℕ) {count more : ℕ} (le : count ≤ more) :
    ((steps.take count).map measure).sum ≤ ((steps.take more).map measure).sum :=
  ((List.take_sublist_take_left le).map measure).sum_le_sum fun _ _ => Nat.zero_le _

/-- The offset behind each step is the sum of the steps so far. -/
theorem getElem?_offsetsFrom (made : offsetsFrom total seconds percent steps = .ok offsets)
    {index : ℕ} {point : Count × BaseAmount} (found : offsets[index]? = some point) :
    point.1.val = seconds.val + secondsSum (steps.take (index + 1)) ∧
      point.2.val = unlocked total (percent.atomics.val + percentSum (steps.take (index + 1))) := by
  induction steps generalizing seconds percent offsets index with
  | nil =>
    cases made
    cases found
  | cons step rest ih =>
    obtain ⟨later, reached, amount, others, spans, shares, share, more, rfl⟩ :=
      offsetsFrom_cons_eq_ok_iff.mp made
    rw [List.take_succ_cons, secondsSum_cons, percentSum_cons, ← Nat.add_assoc, ← Nat.add_assoc,
      ← spans, ← shares]
    cases index with
    | zero =>
      cases found
      exact ⟨rfl, share⟩
    | succ index => exact ih more found

theorem length_offsetsFrom (made : offsetsFrom total seconds percent steps = .ok offsets) :
    offsets.length = steps.length := by
  induction steps generalizing seconds percent offsets with
  | nil =>
    cases made
    rfl
  | cons step rest ih =>
    obtain ⟨_, _, _, others, _, _, _, more, rfl⟩ := offsetsFrom_cons_eq_ok_iff.mp made
    rw [List.length_cons, List.length_cons, ih more]

/-- In an exact schedule the shares up to each step come to whole base units. -/
theorem dvd_of_exactFrom (exactly : exactFrom total percent steps = .ok true)
    (start : hundredPercent.atomics.val ∣ total.val * percent.atomics.val) (count : ℕ) :
    hundredPercent.atomics.val ∣
      total.val * (percent.atomics.val + percentSum (steps.take count)) := by
  induction steps generalizing percent count with
  | nil => simpa [percentSum] using start
  | cons step rest ih =>
    obtain ⟨reached, shares, whole, more⟩ := exactFrom_cons_eq_true_iff.mp exactly
    cases count with
    | zero => exact start
    | succ count =>
      rw [List.take_succ_cons, percentSum_cons, ← Nat.add_assoc, ← shares]
      exact ih more whole count

/-- What a contract needs of a curve: points at the sums of the delays, with exactly the shares of
the total so far. -/
structure Curve (total : BaseAmount) (duration : Count) (steps : List VestingStep)
    (points : List (Count × BaseAmount)) : Prop where
  starts : points.head? = some (.zero, .zero)
  length_eq : points.length = steps.length + 1
  rises : points.Pairwise fun point later => point.1 ≤ later.1 ∧ point.2 ≤ later.2
  within : ∀ point ∈ points, point.2 ≤ total
  seconds : ∀ count point, points[count]? = some point →
    point.1.val = secondsSum (steps.take count)
  shares : ∀ count point, points[count]? = some point →
    point.2.val * hundredPercent.atomics.val = total.val * percentSum (steps.take count)
  ends : points.getLast? = some (duration, total)

theorem Curve.getLast?_tail (curve : Curve total duration steps ((.zero, .zero) :: offsets))
    (notEmpty : steps ≠ []) : offsets.getLast? = some (duration, total) := by
  cases offsets with
  | nil => exact absurd (List.length_eq_zero_iff.mp (Nat.succ.inj curve.length_eq).symm) notEmpty
  | cons _ _ => exact curve.ends

/-- The points of a curve are the sums over the steps before them. -/
theorem getElem?_curve (made : Vesting.offsets total steps = .ok offsets) {count : ℕ}
    {point : Count × BaseAmount}
    (found : ((.zero, .zero) :: offsets : List (Count × BaseAmount))[count]? = some point) :
    point.1.val = secondsSum (steps.take count) ∧
      point.2.val = unlocked total (percentSum (steps.take count)) := by
  cases count with
  | zero =>
    cases found
    simp [secondsSum, percentSum, unlocked]
  | succ index => simpa using getElem?_offsetsFrom made found

private theorem unlocked_hundredPercent : unlocked total hundredPercent.atomics.val = total.val :=
  Nat.mul_div_cancel _ (by decide)

/-- The curve of exact steps that come to all of the total. -/
theorem curve_of_offsets (made : Vesting.offsets total steps = .ok offsets)
    (exactly : offsetsAreExact total steps = .ok true)
    (whole : percentSum steps = hundredPercent.atomics.val)
    (counted : durationSeconds steps = .ok duration) :
    Curve total duration steps ((.zero, .zero) :: offsets) where
  starts := rfl
  length_eq := congrArg (· + 1) (length_offsetsFrom made)
  rises := by
    refine List.pairwise_iff_getElem.mpr fun count later before behind less => ?_
    obtain ⟨seconds, amount⟩ := getElem?_curve made (List.getElem?_eq_getElem before)
    obtain ⟨laterSeconds, laterAmount⟩ := getElem?_curve made (List.getElem?_eq_getElem behind)
    rw [Unsigned.le_iff, Unsigned.le_iff, seconds, laterSeconds, amount, laterAmount]
    exact ⟨sum_map_take_mono _ less.le,
      VestingContract.Schedule.unlocked_mono (sum_map_take_mono _ less.le)⟩
  within := by
    intro point member
    obtain ⟨count, found⟩ := List.getElem?_of_mem member
    have part : percentSum (steps.take count) ≤ percentSum steps :=
      ((List.take_sublist count steps).map _).sum_le_sum fun _ _ => Nat.zero_le _
    rw [Unsigned.le_iff, (getElem?_curve made found).2]
    exact share_le (part.trans whole.le)
  seconds := fun _ _ found => (getElem?_curve made found).1
  shares := by
    intro count point found
    have exactShare := dvd_of_exactFrom exactly (dvd_zero _) count
    rw [Decimal.val_zero, Nat.zero_add] at exactShare
    rw [(getElem?_curve made found).2]
    exact Nat.div_mul_cancel exactShare
  ends := by
    obtain ⟨last, found⟩ : ∃ last, ((.zero, .zero) :: offsets)[steps.length]? = some last :=
      ⟨_, List.getElem?_eq_getElem (by simp [length_offsetsFrom made])⟩
    obtain ⟨seconds, amount⟩ := getElem?_curve made found
    rw [List.take_length, ← durationSeconds_eq_ok_iff.mp counted] at seconds
    rw [List.take_length, whole, unlocked_hundredPercent] at amount
    rw [List.getLast?_eq_getElem?, List.length_cons, length_offsetsFrom made, Nat.add_sub_cancel,
      found]
    exact congrArg some (Prod.ext (Unsigned.ext seconds) (Unsigned.ext amount))

end Vesting

/-- A schedule is what its steps say: even over the whole duration for a single step, and else a
curve with one more point for each step. -/
def VestingContract.Schedule.Follows (total : BaseAmount) (duration : Count)
    (steps : List VestingStep) : VestingContract.Schedule → Prop
  | .saturatingLinear => steps.length = 1
  | .piecewiseLinear points => steps.length ≠ 1 ∧ Vesting.Curve total duration steps points

private theorem VestingContract.Schedule.follows_of_ofSteps {total : BaseAmount} {duration : Count}
    {steps : List VestingStep} {schedule : Schedule} (made : ofSteps total steps = .ok schedule)
    (exactly : Vesting.offsetsAreExact total steps = .ok true)
    (whole : Vesting.percentSum steps = hundredPercent.atomics.val)
    (counted : Vesting.durationSeconds steps = .ok duration) :
    schedule.Follows total duration steps := by
  unfold ofSteps at made
  split at made
  next single =>
    cases made
    exact single
  next several =>
    obtain ⟨offsets, given, same⟩ := bind_eq_ok_iff.mp made
    cases same
    exact ⟨several, Vesting.curve_of_offsets given exactly whole counted⟩

namespace BeginVesting

variable {context : Context} {form : BeginVesting} {message : Message} {token : Token}
  {base : BaseAmount}

theorem instantiates_messageOf (form : BeginVesting) (factory : String) (token : Token)
    (base : BaseAmount) (instantiate : VestingContract.Instantiate) :
    (form.messageOf factory token base instantiate).Instantiates instantiate := by
  obtain ⟨type, name, decimals, symbol⟩ := token
  cases type with
  | native => exact .native (Message.typedCall?_execute _ _ _)
  | cw20 => exact .cw20 (HookedSend.ofMessage?_message (by decide) rfl _)

theorem key_denomOf (token : Token) : (denomOf token).key = token.key := by
  obtain ⟨type, name, decimals, symbol⟩ := token
  cases type <;> rfl

/-- A vesting message moves exactly the total that the contract is told, and tells it the schedule
of the form. -/
theorem follows_of_encode (reachable : context.tokens.Reachable)
    (made : form.encode context = .ok message) :
    ∃ instantiate, message.Instantiates instantiate ∧
      message.moved = [⟨form.token, instantiate.total⟩] ∧ instantiate.denom.key = form.token ∧
      instantiate.vestingSeconds.val = Vesting.secondsSum form.steps ∧
      instantiate.schedule.Follows instantiate.total instantiate.vestingSeconds form.steps := by
  obtain ⟨good, factory, token, total, instantiate, _, resolved, exactly, told, rfl⟩ :=
    encode_eq_ok_iff.mp made
  obtain ⟨schedule, duration, planned, counted, rfl⟩ := instantiate_eq_ok_iff.mp told
  obtain ⟨_, whole, _, exactSteps⟩ := checkSteps_eq_nil (checkSteps_of_validate good)
  have own : token.key = form.token := reachable.wellKeyed.key_of_lookup resolved
  refine ⟨_, instantiates_messageOf .., ?_, (key_denomOf token).trans own,
    Vesting.durationSeconds_eq_ok_iff.mp counted, ?_⟩
  · rw [moved_messageOf, own]
  · exact VestingContract.Schedule.follows_of_ofSteps planned
      (exactSteps total (total?_of_exact resolved exactly)) whole counted

/-- A grant of which an eighth unlocks at once, nothing with the 7 days after it, and the rest with
17 months after that. -/
def cliff : BeginVesting where
  recipient := "erin"
  title := "Cliff"
  description := some "nothing for a week"
  owner := some "dao"
  token := .native "utoken"
  amount := ⟨⟨24 * Decimal.one, by decide⟩⟩
  startTime := Context.sample.now
  steps :=
    [⟨⟨⟨12500000000000000000, by decide⟩⟩, ⟨.zero, .days⟩⟩, ⟨.zero, ⟨⟨7, by decide⟩, .days⟩⟩,
      ⟨⟨⟨87500000000000000000, by decide⟩⟩, ⟨⟨17, by decide⟩, .months⟩⟩]

theorem follows_of_encode_cliff :
    ∃ message instantiate, cliff.encode .sample = .ok message ∧ message.Instantiates instantiate ∧
      message.moved = [⟨.native "utoken", instantiate.total⟩] ∧
      instantiate.denom.key = .native "utoken" ∧
      instantiate.vestingSeconds.val = 44668800 ∧
      instantiate.schedule.Follows instantiate.total instantiate.vestingSeconds cliff.steps := by
  obtain ⟨message, made⟩ : ∃ message, cliff.encode .sample = .ok message := ⟨_, rfl⟩
  obtain ⟨instantiate, told, moved, denom, seconds, follows⟩ :=
    follows_of_encode (.insert .empty _) made
  exact ⟨message, instantiate, made, told, moved, denom, seconds, follows⟩

end BeginVesting

end Proposal
