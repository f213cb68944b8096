import Mathlib.Tactic
import Proposal.Proofs.Vesting.Curve

/-! Encoders count the length of a schedule in seconds and leave out its start; its finish is
counted in nanoseconds. -/
namespace Proposal

namespace Timestamp

variable {time later : Timestamp} {seconds : ℕ}

/-- The time so many seconds later, however many they are. -/
def later? (time : Timestamp) (seconds : ℕ) : Option Timestamp :=
  (Unsigned.ofNat? 64 (time.nanos.val + seconds * 1000000000)).map Timestamp.mk

private theorem addSeconds?_eq (time : Timestamp) (count : Count) :
    time.addSeconds? count = time.later? count.val :=
  rfl

private theorem later?_eq_some_iff :
    time.later? seconds = some later ↔
      later.nanos.val = time.nanos.val + seconds * 1000000000 := by
  rw [later?, Option.map_eq_some_iff]
  constructor
  · rintro ⟨nanos, found, rfl⟩
    exact Unsigned.ofNat?_eq_some_iff.mp found
  · intro same
    exact ⟨later.nanos, Unsigned.ofNat?_eq_some_iff.mpr same, rfl⟩

private theorem later?_eq_none_iff :
    time.later? seconds = none ↔ Nat.pow 2 64 ≤ time.nanos.val + seconds * 1000000000 :=
  Option.map_eq_none_iff.trans Unsigned.ofNat?_eq_none_iff

/-- Delays add up, and a sum that is too late is too late at once or in parts. -/
theorem later?_bind_later? (time : Timestamp) (first second : ℕ) :
    ((time.later? first).bind fun middle => middle.later? second) =
      time.later? (first + second) := by
  cases reached : time.later? first with
  | none =>
    have late := later?_eq_none_iff.mp reached
    have more : first * 1000000000 ≤ (first + second) * 1000000000 :=
      Nat.mul_le_mul_right _ (Nat.le_add_right first second)
    exact (later?_eq_none_iff.mpr (late.trans (Nat.add_le_add_left more _))).symm
  | some middle =>
    rw [Option.bind_some, later?, later?, later?_eq_some_iff.mp reached, Nat.add_assoc,
      ← Nat.add_mul]

end Timestamp

private theorem VestingStep.endTime_eq (step : VestingStep) (time : Timestamp) :
    step.endTime time = orError .timeOverflow (time.later? step.span) := by
  rw [endTime, seconds, orError_bind]
  congr 1
  cases counted : step.delay.seconds? with
  | some count =>
    have span : count.val = step.span := seconds?_eq_some_iff.mp counted
    rw [Option.bind_some, Timestamp.addSeconds?_eq, span]
  | none =>
    -- Seconds that cannot be counted are too many nanoseconds as well.
    have many : Nat.pow 2 64 ≤ step.span := seconds?_eq_none_iff.mp counted
    have more : step.span ≤ step.span * 1000000000 :=
      Nat.le_mul_of_pos_right _ (by decide)
    exact (Timestamp.later?_eq_none_iff.mpr (by omega)).symm

theorem VestingStep.endTime_eq_ok_iff {step : VestingStep} {time later : Timestamp} :
    step.endTime time = .ok later ↔
      later.nanos.val = time.nanos.val + step.span * 1000000000 := by
  rw [endTime_eq, orError_eq_ok_iff, Timestamp.later?_eq_some_iff]

namespace Vesting

variable {start finish : Timestamp} {steps : List VestingStep}

private theorem foldlM_endTime (steps : List VestingStep) (time : Timestamp) :
    steps.foldlM (fun time (step : VestingStep) => step.endTime time) time =
      orError .timeOverflow (time.later? (secondsSum steps)) := by
  induction steps generalizing time with
  | nil =>
    have now : time.later? (secondsSum []) = some time :=
      Timestamp.later?_eq_some_iff.mpr (by simp [secondsSum])
    rw [now]
    rfl
  | cons step rest ih =>
    rw [List.foldlM_cons, VestingStep.endTime_eq, secondsSum_cons, ← Timestamp.later?_bind_later?,
      ← orError_bind]
    simp only [ih]

/-- A schedule that has steps finishes when the sum of its delays is over. -/
theorem finishTime_eq (notEmpty : steps ≠ []) :
    finishTime start steps =
      (orError .timeOverflow (start.later? (secondsSum steps))).map some := by
  rw [finishTime, if_neg (by simpa using notEmpty), foldlM_endTime]

theorem finishTime_eq_ok_iff (notEmpty : steps ≠ []) :
    finishTime start steps = .ok (some finish) ↔
      finish.nanos.val = start.nanos.val + secondsSum steps * 1000000000 := by
  rw [finishTime_eq notEmpty, map_eq_ok_iff, ← Timestamp.later?_eq_some_iff]
  simp [orError_eq_ok_iff]

theorem finishTime_eq_error_iff (notEmpty : steps ≠ []) :
    finishTime start steps = .error .timeOverflow ↔
      Nat.pow 2 64 ≤ start.nanos.val + secondsSum steps * 1000000000 := by
  rw [finishTime_eq notEmpty, ← Timestamp.later?_eq_none_iff]
  cases start.later? (secondsSum steps) <;> simp [orError, Except.map]

end Vesting

namespace BeginVesting

variable {context : Context} {form : BeginVesting} {message : Message}

/-- The form of a vesting message finishes if and only if start and duration of the message add up
to a time. -/
theorem finishTime_of_encode (made : form.encode context = .ok message) :
    ∃ instantiate, message.Instantiates instantiate ∧
      instantiate.startTime = some form.startTime ∧
      instantiate.vestingSeconds.val = Vesting.secondsSum form.steps ∧
      (∀ finish, Vesting.finishTime form.startTime form.steps = .ok (some finish) ↔
        finish.nanos.val = form.startTime.nanos.val +
          instantiate.vestingSeconds.val * 1000000000) ∧
      (Vesting.finishTime form.startTime form.steps = .error .timeOverflow ↔
        2 ^ 64 ≤ form.startTime.nanos.val +
          instantiate.vestingSeconds.val * 1000000000) := by
  obtain ⟨good, factory, token, total, instantiate, _, _, _, told, rfl⟩ :=
    encode_eq_ok_iff.mp made
  obtain ⟨schedule, duration, _, counted, rfl⟩ := instantiate_eq_ok_iff.mp told
  obtain ⟨notEmpty, _⟩ := checkSteps_eq_nil (checkSteps_of_validate good)
  have length := Vesting.durationSeconds_eq_ok_iff.mp counted
  refine ⟨_, instantiates_messageOf .., rfl, length, fun finish => ?_, ?_⟩
  · rw [Vesting.finishTime_eq_ok_iff notEmpty, length]
  · rw [Vesting.finishTime_eq_error_iff notEmpty, length]
    rfl

theorem finishTime_of_encode_cliff :
    ∃ message instantiate finish, cliff.encode .sample = .ok message ∧
      message.Instantiates instantiate ∧
      Vesting.finishTime cliff.startTime cliff.steps = .ok (some finish) ∧
      finish.nanos.val = cliff.startTime.nanos.val +
        instantiate.vestingSeconds.val * 1000000000 := by
  obtain ⟨message, made⟩ : ∃ message, cliff.encode .sample = .ok message := ⟨_, rfl⟩
  obtain ⟨instantiate, told, _, _, finishes, _⟩ := finishTime_of_encode made
  obtain ⟨finish, found⟩ :
    ∃ finish, Vesting.finishTime cliff.startTime cliff.steps = .ok (some finish) := ⟨_, rfl⟩
  exact ⟨message, instantiate, finish, made, told, found, (finishes finish).mp found⟩

/-- A grant that unlocks over six hundred years. -/
def dynasty : BeginVesting where
  recipient := "heirs"
  title := "Dynasty"
  description := none
  owner := none
  token := .native "utoken"
  amount := ⟨⟨31 * Decimal.one, by decide⟩⟩
  startTime := Context.sample.now
  steps := [⟨hundredPercent, ⟨⟨600, by decide⟩, .years⟩⟩]

/-- Its seconds can be counted, so that it is encoded, but the time when it finishes cannot. -/
theorem dynasty_never_finishes :
    (∃ message, dynasty.encode .sample = .ok message) ∧
      Vesting.finishTime dynasty.startTime dynasty.steps = .error .timeOverflow :=
  ⟨⟨_, rfl⟩, rfl⟩

end BeginVesting

end Proposal
