import Proposal.Vesting

namespace Proposal

/-- A payment from the treasury. -/
structure Spend where
  recipient : String
  token : TokenKey
  amount : HumanAmount
  deriving DecidableEq, Repr

instance : JsonForm Spend where
  toJson form :=
    .obj [("recipient", toJson form.recipient), ("token", toJson form.token),
      ("amount", toJson form.amount)]
  ofJson? reading json := do
    let fields ← json.record? reading ["recipient", "token", "amount"]
    let recipient ← field? reading fields "recipient"
    let token ← field? reading fields "token"
    let amount ← field? reading fields "amount"
    return { recipient, token, amount }

/-- A stake of treasury tokens in a staking contract. -/
structure Stake where
  contract : String
  token : TokenKey
  amount : HumanAmount
  deriving DecidableEq, Repr

instance : JsonForm Stake where
  toJson form :=
    .obj [("staking_contract", toJson form.contract), ("token", toJson form.token),
      ("amount", toJson form.amount)]
  ofJson? reading json := do
    let fields ← json.record? reading ["staking_contract", "token", "amount"]
    let contract ← field? reading fields "staking_contract"
    let token ← field? reading fields "token"
    let amount ← field? reading fields "amount"
    return { contract, token, amount }

/-- A new vesting contract. Without an owner nobody can cancel it. -/
structure BeginVesting where
  recipient : String
  title : String
  description : Option String
  owner : Option String
  token : TokenKey
  amount : HumanAmount
  startTime : Timestamp
  steps : List VestingStep
  deriving DecidableEq, Repr

instance : JsonForm BeginVesting where
  toJson form :=
    .obj [("recipient", toJson form.recipient), ("title", toJson form.title),
      ("description", toJson form.description), ("owner", toJson form.owner),
      ("token", toJson form.token), ("amount", toJson form.amount),
      ("start_time", toJson form.startTime), ("steps", toJson form.steps)]
  ofJson? reading json := do
    let fields ← json.record? reading
      ["recipient", "title", "description", "owner", "token", "amount", "start_time", "steps"]
    let recipient ← field? reading fields "recipient"
    let title ← field? reading fields "title"
    let description ← optionalField? reading fields "description"
    let owner ← optionalField? reading fields "owner"
    let token ← field? reading fields "token"
    let amount ← field? reading fields "amount"
    let startTime ← field? reading fields "start_time"
    let steps ← field? reading fields "steps"
    return ⟨recipient, title, description, owner, token, amount, startTime, steps⟩

structure CancelVesting where
  contract : String
  deriving DecidableEq, Repr

instance : JsonForm CancelVesting where
  toJson form := .obj [("vesting_contract", toJson form.contract)]
  ofJson? reading json := do
    let fields ← json.record? reading ["vesting_contract"]
    return { contract := ← field? reading fields "vesting_contract" }

/-- Tells a vesting contract that a validator it delegated to was slashed. The amount is in base
units of the vested token. -/
structure RegisterSlash where
  contract : String
  validator : String
  time : Timestamp
  amount : BaseAmount
  duringUnbonding : Bool
  deriving DecidableEq, Repr

instance : JsonForm RegisterSlash where
  toJson form :=
    .obj [("vesting_contract", toJson form.contract), ("validator", toJson form.validator),
      ("time", toJson form.time), ("amount", toJson form.amount),
      ("during_unbonding", toJson form.duringUnbonding)]
  ofJson? reading json := do
    let fields ← json.record? reading
      ["vesting_contract", "validator", "time", "amount", "during_unbonding"]
    let contract ← field? reading fields "vesting_contract"
    let validator ← field? reading fields "validator"
    let time ← field? reading fields "time"
    let amount ← field? reading fields "amount"
    let duringUnbonding ← field? reading fields "during_unbonding"
    return { contract, validator, time, amount, duringUnbonding }

/-- Writes an item of the DAO. -/
structure SetItem where
  key : String
  value : String
  deriving DecidableEq, Repr

instance : JsonForm SetItem where
  toJson form := .obj [("key", toJson form.key), ("value", toJson form.value)]
  ofJson? reading json := do
    let fields ← json.record? reading ["key", "value"]
    let key ← field? reading fields "key"
    let value ← field? reading fields "value"
    return { key, value }

/-- Deletes an item of the DAO. -/
structure RemoveItem where
  key : String
  deriving DecidableEq, Repr

instance : JsonForm RemoveItem where
  toJson form := .obj [("key", toJson form.key)]
  ofJson? reading json := do
    let fields ← json.record? reading ["key"]
    return { key := ← field? reading fields "key" }

/-- Native tokens that go with a call. -/
structure Fund where
  denom : String
  amount : HumanAmount
  deriving DecidableEq, Repr

instance : JsonForm Fund where
  toJson fund := .obj [("denom", toJson fund.denom), ("amount", toJson fund.amount)]
  ofJson? reading json := do
    let fields ← json.record? reading ["denom", "amount"]
    let denom ← field? reading fields "denom"
    let amount ← field? reading fields "amount"
    return { denom, amount }

/-- A call of any contract. The message has to be a JSON object. -/
structure Execute where
  contract : String
  message : Value
  funds : List Fund

instance : JsonForm Execute where
  toJson form :=
    .obj [("contract_address", toJson form.contract), ("message", toJson form.message),
      ("funds", toJson form.funds)]
  ofJson? reading json := do
    let fields ← json.record? reading ["contract_address", "message", "funds"]
    let contract ← field? reading fields "contract_address"
    let message ← field? reading fields "message"
    let funds ← field? reading fields "funds"
    return { contract, message, funds }

/-- A filled-in form. -/
inductive Action
  | spend (form : Spend)
  | stake (form : Stake)
  | beginVesting (form : BeginVesting)
  | cancelVesting (form : CancelVesting)
  | registerSlash (form : RegisterSlash)
  | setItem (form : SetItem)
  | removeItem (form : RemoveItem)
  | execute (form : Execute)

def Action.kind : Action → ActionKind
  | .spend _ => .spend
  | .stake _ => .stake
  | .beginVesting _ => .beginVesting
  | .cancelVesting _ => .cancelVesting
  | .registerSlash _ => .registerSlash
  | .setItem _ => .setItem
  | .removeItem _ => .removeItem
  | .execute _ => .execute

instance : JsonForm Action where
  toJson
    | .spend form => .obj [("spend", toJson form)]
    | .stake form => .obj [("stake", toJson form)]
    | .beginVesting form => .obj [("begin_vesting", toJson form)]
    | .cancelVesting form => .obj [("cancel_vesting", toJson form)]
    | .registerSlash form => .obj [("register_slash", toJson form)]
    | .setItem form => .obj [("set_item", toJson form)]
    | .removeItem form => .obj [("remove_item", toJson form)]
    | .execute form => .obj [("execute", toJson form)]
  ofJson? reading json := do
    match ← json.choice? with
    | ("spend", some body) => return .spend (← ofJson? reading body)
    | ("stake", some body) => return .stake (← ofJson? reading body)
    | ("begin_vesting", some body) => return .beginVesting (← ofJson? reading body)
    | ("cancel_vesting", some body) => return .cancelVesting (← ofJson? reading body)
    | ("register_slash", some body) => return .registerSlash (← ofJson? reading body)
    | ("set_item", some body) => return .setItem (← ofJson? reading body)
    | ("remove_item", some body) => return .removeItem (← ofJson? reading body)
    | ("execute", some body) => return .execute (← ofJson? reading body)
    | _ => none

/-- What one kind of action makes of a message: its form, nothing, or a token that has to be
resolved first. -/
inductive Match (α : Type)
  | matched (form : α)
  | notMatched
  | pending (token : TokenKey)

def Match.map {α β : Type} (wrap : α → β) : Match α → Match β
  | .matched form => .matched (wrap form)
  | .notMatched => .notMatched
  | .pending token => .pending token

instance : JsonForm (Match Action) where
  toJson
    | .matched action => .obj [("matched", toJson action)]
    | .notMatched => .str "not_matched"
    | .pending token => .obj [("pending", .obj [("token", toJson token)])]
  ofJson? reading json :=
    if json.name? reading = some "not_matched" then some .notMatched
    else do
      match ← json.choice? with
      | ("matched", some body) => return .matched (← ofJson? reading body)
      | ("pending", some body) => do
        let fields ← body.alternative? reading ["token"]
        return .pending (← field? reading fields "token")
      | _ => none

end Proposal
