import Proposal.Action.Basic
import Proposal.Vesting

/-! The factory makes new vesting contracts, and gets the total with the call: as funds, or with a
hook of the same content. -/
namespace Proposal.BeginVesting

open VestingContract

/-- A message that begins a vesting: what the factory makes, and the token that goes with it. -/
structure Grant where
  instantiate : Instantiate
  token : TokenKey
  deriving DecidableEq, Repr

namespace Grant

/-- A grant of contract tokens, whose amount and contract have to be those of the hook. -/
def ofSend? (send : HookedSend FactoryHook) : Option Grant :=
  match send.hook with
  | .instantiate instantiate _ =>
    if instantiate.denom = .cw20 send.token ∧ instantiate.total = send.amount then
      some ⟨instantiate, .cw20 send.token⟩
    else none

/-- A grant of native tokens, whose only coin has to be the total. -/
def ofCall? (call : Message.TypedCall FactoryExecute) : Option Grant :=
  match call.data with
  | .instantiateNative instantiate _ =>
    match instantiate.denom with
    | .cw20 _ => none
    | .native denom => do
      let coin ← Coin.single? call.funds
      if coin.denom = denom ∧ coin.amount = instantiate.total then
        return ⟨instantiate, .native denom⟩
      else none

def ofMessage? (message : Message) : Option Grant :=
  match (HookedSend.ofMessage? message : Option (HookedSend FactoryHook)) with
  | some send => ofSend? send
  | none => message.typedCall?.bind ofCall?

end Grant

/-- A form for a single step of one year, owned by the DAO. -/
def blank (context : Context) : BeginVesting where
  recipient := ""
  title := ""
  description := none
  owner := some context.dao
  token := context.defaultToken
  amount := .zero
  startTime := context.now
  steps := [⟨hundredPercent, ⟨⟨1, by decide⟩, .years⟩⟩]

/-- The total in base units, as soon as the token is resolved and the amount fits. -/
def total? (form : BeginVesting) (context : Context) : Option BaseAmount :=
  match context.lookup form.token with
  | .resolved token => (Amount.toBase form.amount token.decimals).toOption
  | .pending => none
  | .failed _ => none

/-- Holds the steps against the total, and against the longest duration. -/
def checkSteps (form : BeginVesting) (context : Context) : Result (List FieldError) := do
  if form.steps.isEmpty then return [⟨"steps", "at least one step is required"⟩]
  else
    let validity ← Vesting.validity form.steps
    let shares ←
      if validity.isValid then
        match form.total? context with
        | none => pure []
        | some total =>
          if ← Vesting.offsetsAreExact total form.steps then pure []
          else pure [⟨"steps", "every step must unlock a whole number of base units"⟩]
      else
        pure [⟨"steps", "percents must add up to 100, got " ++ validity.percentSum.text⟩]
    let length :=
      match Vesting.durationSeconds form.steps with
      | .ok _ => []
      | .error _ => [⟨"steps", "schedule is too long"⟩]
    return shares ++ length

def validate (form : BeginVesting) (context : Context) : Result (List FieldError) := do
  let owner :=
    match form.owner with
    | some owner => Field.checkAddress "owner" owner
    | none => []
  let amount ← Field.checkAmount context "amount" form.token form.amount
  let steps ← form.checkSteps context
  return Field.checkAddress "recipient" form.recipient ++ Field.checkPresent "title" form.title ++
    owner ++ amount ++ steps

/-- Refuses a schedule that is empty or does not add up. -/
def checkSchedule (form : BeginVesting) : Result Unit := do
  if form.steps.isEmpty then .error .emptySchedule
  else
    let validity ← Vesting.validity form.steps
    if validity.isValid then return () else .error (.unevenSchedule validity.percentSum)

/-- The label of the new contract. -/
def label (form : BeginVesting) : String :=
  "vesting:" ++ form.recipient ++ ":" ++ Numeral.text form.startTime.seconds

def denomOf (token : Token) : Denom :=
  match token.type with
  | .native => .native token.name
  | .cw20 => .cw20 token.name

/-- What the factory is told to make. -/
def instantiate (form : BeginVesting) (context : Context) (token : Token) (total : BaseAmount) :
    Result Instantiate := do
  let schedule ← Schedule.ofSteps total form.steps
  let duration ← Vesting.durationSeconds form.steps
  return {
    owner := form.owner
    recipient := form.recipient
    title := form.title
    description := form.description
    total := total
    denom := denomOf token
    schedule := schedule
    startTime := some form.startTime
    vestingSeconds := duration
    unbondingSeconds := context.config.unbondingSeconds }

def encode (form : BeginVesting) (context : Context) : Result Message := do
  form.checkSchedule
  Field.ensureNone (← form.validate context)
  let factory ← orError .factoryNotResolved context.vestingFactory
  let (token, total) ← context.baseAmount form.token form.amount
  let instantiate ← form.instantiate context token total
  match token.type with
  | .native =>
    return .execute factory (valueOf (FactoryExecute.instantiateNative instantiate form.label))
      [⟨token.name, total⟩]
  | .cw20 =>
    return HookedSend.message
      ⟨token.name, factory, total, FactoryHook.instantiate instantiate form.label⟩

/-- The form of an instantiate message, unless its schedule cannot be had from steps. -/
def ofInstantiate (instantiate : Instantiate) (token : Token) (context : Context) :
    Result (Match BeginVesting) :=
  match instantiate.schedule.steps? instantiate.total instantiate.vestingSeconds with
  | none => .ok .notMatched
  | some steps => do
    let amount ← Amount.toHuman instantiate.total token.decimals
    return .matched {
      recipient := instantiate.recipient
      title := instantiate.title
      description := instantiate.description
      owner := instantiate.owner
      token := token.key
      amount := amount
      startTime := instantiate.startTime.getD context.now
      steps := steps }

def decode (message : Message) (context : Context) : Result (Match BeginVesting) :=
  match Grant.ofMessage? message with
  | none => .ok .notMatched
  | some grant => context.withTokenOf grant.token fun token =>
    ofInstantiate grant.instantiate token context

end Proposal.BeginVesting
