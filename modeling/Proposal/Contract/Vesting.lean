import Proposal.Time

namespace Proposal.VestingContract

inductive Execute
  | cancel
  | registerSlash (validator : String) (time : Timestamp) (amount : BaseAmount)
      (duringUnbonding : Bool)
  deriving DecidableEq, Repr

instance : JsonForm Execute where
  toJson
    | .cancel => .obj [("cancel", .obj [])]
    | .registerSlash validator time amount duringUnbonding =>
      .obj [("register_slash", .obj [("validator", toJson validator), ("time", toJson time),
        ("amount", toJson amount), ("during_unbonding", toJson duringUnbonding)])]
  ofJson? reading json := do
    match ← json.choice? with
    | ("cancel", some body) => do
      let _ ← body.alternative? reading []
      return .cancel
    | ("register_slash", some body) => do
      let fields ← body.alternative? reading ["validator", "time", "amount", "during_unbonding"]
      return .registerSlash (← field? reading fields "validator") (← field? reading fields "time")
        (← field? reading fields "amount") (← field? reading fields "during_unbonding")
    | _ => none

/-- The token that a new contract vests. -/
inductive Denom
  | native (denom : String)
  | cw20 (address : String)
  deriving DecidableEq, Repr

instance : JsonForm Denom where
  toJson
    | .native denom => .obj [("native", toJson denom)]
    | .cw20 address => .obj [("cw20", toJson address)]
  ofJson? reading json := do
    match ← json.choice? with
    | ("native", some body) => return .native (← ofJson? reading body)
    | ("cw20", some body) => return .cw20 (← ofJson? reading body)
    | _ => none

/-- How a total unlocks: evenly over the duration, or through points of seconds since the start and
amount by then. -/
inductive Schedule
  | saturatingLinear
  | piecewiseLinear (points : List (Count × BaseAmount))
  deriving DecidableEq, Repr

instance : JsonForm Schedule where
  toJson
    | .saturatingLinear => .str "saturating_linear"
    | .piecewiseLinear points => .obj [("piecewise_linear", toJson points)]
  ofJson? reading json :=
    if json.name? reading = some "saturating_linear" then some .saturatingLinear
    else do
      match ← json.choice? with
      | ("piecewise_linear", some body) => return .piecewiseLinear (← ofJson? reading body)
      | _ => none

structure Instantiate where
  owner : Option String
  recipient : String
  title : String
  description : Option String
  total : BaseAmount
  denom : Denom
  schedule : Schedule
  startTime : Option Timestamp
  vestingSeconds : Count
  unbondingSeconds : Count
  deriving DecidableEq, Repr

instance : JsonForm Instantiate where
  toJson message :=
    .obj [("owner", toJson message.owner), ("recipient", toJson message.recipient),
      ("title", toJson message.title), ("description", toJson message.description),
      ("total", toJson message.total), ("denom", toJson message.denom),
      ("schedule", toJson message.schedule), ("start_time", toJson message.startTime),
      ("vesting_duration_seconds", toJson message.vestingSeconds),
      ("unbonding_duration_seconds", toJson message.unbondingSeconds)]
  ofJson? reading json := do
    let fields ← json.record? reading ["owner", "recipient", "title", "description", "total",
      "denom", "schedule", "start_time", "vesting_duration_seconds", "unbonding_duration_seconds"]
    let owner ← optionalField? reading fields "owner"
    let recipient ← field? reading fields "recipient"
    let title ← field? reading fields "title"
    let description ← optionalField? reading fields "description"
    let total ← field? reading fields "total"
    let denom ← field? reading fields "denom"
    let schedule ← field? reading fields "schedule"
    let startTime ← optionalField? reading fields "start_time"
    let vestingSeconds ← field? reading fields "vesting_duration_seconds"
    let unbondingSeconds ← field? reading fields "unbonding_duration_seconds"
    return ⟨owner, recipient, title, description, total, denom, schedule, startTime,
      vestingSeconds, unbondingSeconds⟩

/-- A call of the factory with native tokens. -/
inductive FactoryExecute
  | instantiateNative (message : Instantiate) (label : String)
  deriving DecidableEq, Repr

instance : JsonForm FactoryExecute where
  toJson
    | .instantiateNative message label =>
      .obj [("instantiate_native_payroll_contract",
        .obj [("instantiate_msg", toJson message), ("label", toJson label)])]
  ofJson? reading json := do
    match ← json.choice? with
    | ("instantiate_native_payroll_contract", some body) => do
      let fields ← body.alternative? reading ["instantiate_msg", "label"]
      return .instantiateNative (← field? reading fields "instantiate_msg")
        (← field? reading fields "label")
    | _ => none

/-- The hook that calls the factory with contract tokens. -/
inductive FactoryHook
  | instantiate (message : Instantiate) (label : String)
  deriving DecidableEq, Repr

instance : JsonForm FactoryHook where
  toJson
    | .instantiate message label =>
      .obj [("instantiate_payroll_contract",
        .obj [("instantiate_msg", toJson message), ("label", toJson label)])]
  ofJson? reading json := do
    match ← json.choice? with
    | ("instantiate_payroll_contract", some body) => do
      let fields ← body.alternative? reading ["instantiate_msg", "label"]
      return .instantiate (← field? reading fields "instantiate_msg")
        (← field? reading fields "label")
    | _ => none

end Proposal.VestingContract
