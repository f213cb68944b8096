import Proposal.Contract.Vesting
import Proposal.Error

namespace Proposal

/-- A share of the total, unlocked some time after the step before, or after the start. -/
structure VestingStep where
  percent : Percent
  delay : Duration
  deriving DecidableEq, Repr

instance : JsonForm VestingStep where
  toJson step := .obj [("percent", toJson step.percent), ("delay", toJson step.delay)]
  ofJson? reading json := do
    let fields ← json.record? reading ["percent", "delay"]
    let percent ← field? reading fields "percent"
    let delay ← field? reading fields "delay"
    return { percent, delay }

/-- The amount that is unlocked at a time. -/
structure VestingPoint where
  time : Timestamp
  unlocked : HumanAmount
  deriving DecidableEq, Repr

instance : JsonForm VestingPoint where
  toJson point :=
    .obj [("timestamp", toJson point.time), ("cumulative_amount", toJson point.unlocked)]
  ofJson? reading json := do
    let fields ← json.record? reading ["timestamp", "cumulative_amount"]
    let time ← field? reading fields "timestamp"
    let unlocked ← field? reading fields "cumulative_amount"
    return { time, unlocked }

/-- The sum of the shares, and whether it is all of the total. -/
structure VestingValidity where
  percentSum : Percent
  isValid : Bool
  deriving DecidableEq, Repr

instance : JsonForm VestingValidity where
  toJson validity :=
    .obj [("percent_sum", toJson validity.percentSum), ("is_valid", toJson validity.isValid)]
  ofJson? reading json := do
    let fields ← json.record? reading ["percent_sum", "is_valid"]
    let percentSum ← field? reading fields "percent_sum"
    let isValid ← field? reading fields "is_valid"
    return { percentSum, isValid }

namespace VestingStep

def seconds (step : VestingStep) : Result Count := orError .timeOverflow step.delay.seconds?

/-- The time at which a step ends that begins at the given time. -/
def endTime (step : VestingStep) (time : Timestamp) : Result Timestamp := do
  orError .timeOverflow (time.addSeconds? (← step.seconds))

end VestingStep

namespace Vesting

/-- Adds the shares up. A sum short of all of the total is reported, not refused, so that previews
go on. -/
def validity (steps : List VestingStep) : Result VestingValidity := do
  let sum ← steps.foldlM (fun sum step => sum.plus step.percent) Decimal.zero
  return { percentSum := sum, isValid := sum == hundredPercent }

/-- The points from a time and an amount onwards. -/
def pointsFrom (total : HumanAmount) (time : Timestamp) (unlocked : HumanAmount) :
    List VestingStep → Result (List VestingPoint)
  | [] => .ok []
  | step :: rest => do
    let time ← step.endTime time
    let share ← total.times ⟨step.percent.atomics.widen (by decide)⟩
    let unlocked ← unlocked.plus share.hundredth
    return ⟨time, unlocked⟩ :: (← pointsFrom total time unlocked rest)

/-- The amount unlocked at the end of each step. -/
def points (total : HumanAmount) (start : Timestamp) (steps : List VestingStep) :
    Result (List VestingPoint) :=
  pointsFrom total start .zero steps

/-- The time at which the last step ends. -/
def finishTime (start : Timestamp) (steps : List VestingStep) : Result (Option Timestamp) :=
  if steps.isEmpty then .ok none
  else (steps.foldlM (fun time (step : VestingStep) => step.endTime time) start).map some

/-- The base units of a cumulative share of a total, rounded down. -/
def shareOf (total : BaseAmount) (percent : Percent) : Result BaseAmount :=
  orError .ratioOverflow
    (Unsigned.ofNat? 128
      (total.val * percent.atomics.val / hundredPercent.atomics.val))

/-- The offsets from a number of seconds and a cumulative share onwards. -/
def offsetsFrom (total : BaseAmount) (seconds : Count) (percent : Percent) :
    List VestingStep → Result (List (Count × BaseAmount))
  | [] => .ok []
  | step :: rest => do
    let seconds ← orError .timeOverflow (seconds.add? (← step.seconds))
    let percent ← percent.plus step.percent
    let amount ← shareOf total percent
    return (seconds, amount) :: (← offsetsFrom total seconds percent rest)

/-- The seconds since the start and the base units unlocked at the end of each step. -/
def offsets (total : BaseAmount) (steps : List VestingStep) :
    Result (List (Count × BaseAmount)) :=
  offsetsFrom total .zero .zero steps

def exactFrom (total : BaseAmount) (percent : Percent) : List VestingStep → Result Bool
  | [] => .ok true
  | step :: rest => do
    let percent ← percent.plus step.percent
    if total.val * percent.atomics.val % hundredPercent.atomics.val = 0 then
      exactFrom total percent rest
    else return false

/-- Whether every step ends on whole base units. The shares of other schedules are not had back. -/
def offsetsAreExact (total : BaseAmount) (steps : List VestingStep) : Result Bool :=
  exactFrom total .zero steps

/-- The length of a schedule in seconds. -/
def durationSeconds (steps : List VestingStep) : Result Count :=
  steps.foldlM (fun total step => do orError .timeOverflow (total.add? (← step.seconds))) .zero

end Vesting

namespace VestingContract.Schedule

/-- The schedule of steps: even over the delay of a single one, else a curve from nothing through
all of them. -/
def ofSteps (total : BaseAmount) (steps : List VestingStep) : Result Schedule := do
  if steps.length = 1 then return .saturatingLinear
  else return .piecewiseLinear ((.zero, .zero) :: (← Vesting.offsets total steps))

/-- The cumulative share of an amount in percent, rounded down unless it is all of the total. -/
def cumulativePercent? (total amount : BaseAmount) : Option Percent :=
  if amount = total then some hundredPercent
  else do
    let hundredfold ← Unsigned.ofNat? 128 (amount.val * 100)
    Decimal.ofRatio? 128 hundredfold.val total.val

/-- The point that steps are counted from, with its cumulative share. -/
structure Reached where
  seconds : Count
  amount : BaseAmount
  percent : Percent

/-- The steps through the points behind the one that is reached. -/
def stepsFrom? (total : BaseAmount) (reached : Reached) :
    List (Count × BaseAmount) → Option (List VestingStep)
  | [] => some []
  | (seconds, amount) :: rest => do
    if amount < reached.amount ∨ total < amount then none
    else
      let delay ← seconds.sub? reached.seconds
      let cumulative ← cumulativePercent? total amount
      let percent ← cumulative.sub? reached.percent
      let steps ← stepsFrom? total ⟨seconds, amount, cumulative⟩ rest
      return ⟨percent, .ofSeconds delay⟩ :: steps

/-- The points of a curve without the one at its start. -/
def dropStart : List (Count × BaseAmount) → List (Count × BaseAmount)
  | [] => []
  | point :: rest => if point = (.zero, .zero) then rest else point :: rest

/-- The steps of a schedule for a total and a duration, if there are steps for it. -/
def steps? (schedule : Schedule) (total : BaseAmount) (duration : Count) :
    Option (List VestingStep) :=
  match schedule with
  | .saturatingLinear => some [⟨hundredPercent, .ofSeconds duration⟩]
  | .piecewiseLinear points =>
    let points := dropStart points
    if points.isEmpty ∨ total.val = 0 then none
    else stepsFrom? total ⟨.zero, .zero, .zero⟩ points

end VestingContract.Schedule

end Proposal
