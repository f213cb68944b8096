import Proposal.Action.Basic

namespace Proposal

namespace Spend

/-- A message that pays: who gets how many base units of which token. -/
structure Payment where
  recipient : String
  token : TokenKey
  amount : BaseAmount
  deriving DecidableEq, Repr

def Payment.ofMessage? (message : Message) : Option Payment :=
  match message with
  | .bank (.send recipient coins) => do
    let coin ← Coin.single? coins
    return ⟨recipient, .native coin.denom, coin.amount⟩
  | message => do
    let call ← message.unfunded?
    match call.data with
    | Cw20.Execute.transfer recipient amount => return ⟨recipient, .cw20 call.contract, amount⟩
    | _ => none

def blank (context : Context) : Spend := ⟨"", context.defaultToken, .zero⟩

def validate (form : Spend) (context : Context) : Result (List FieldError) := do
  let amount ← Field.checkAmount context "amount" form.token form.amount
  return Field.checkAddress "recipient" form.recipient ++ amount

def encode (form : Spend) (context : Context) : Result Message := do
  Field.ensureNone (← form.validate context)
  let (token, amount) ← context.baseAmount form.token form.amount
  match token.type with
  | .native => return .bankSend form.recipient [⟨token.name, amount⟩]
  | .cw20 =>
    return .execute token.name (valueOf (Cw20.Execute.transfer form.recipient amount)) []

def decode (message : Message) (context : Context) : Result (Match Spend) :=
  match Payment.ofMessage? message with
  | none => .ok .notMatched
  | some payment => context.withTokenOf payment.token fun token => do
    let amount ← Amount.toHuman payment.amount token.decimals
    return .matched ⟨payment.recipient, token.key, amount⟩

end Spend

namespace Stake

/-- A message that stakes: which contract gets how many base units of which token. -/
structure Deposit where
  contract : String
  token : TokenKey
  amount : BaseAmount
  deriving DecidableEq, Repr

def Deposit.ofMessage? (message : Message) : Option Deposit :=
  match (HookedSend.ofMessage? message : Option (HookedSend Staking.Hook)) with
  | some send => some ⟨send.contract, .cw20 send.token, send.amount⟩
  | none => do
    let call : Message.TypedCall Staking.Execute ← message.typedCall?
    let coin ← Coin.single? call.funds
    return ⟨call.contract, .native coin.denom, coin.amount⟩

def blank (context : Context) : Stake := ⟨"", context.defaultToken, .zero⟩

def validate (form : Stake) (context : Context) : Result (List FieldError) := do
  let amount ← Field.checkAmount context "amount" form.token form.amount
  return Field.checkAddress "staking_contract" form.contract ++ amount

def encode (form : Stake) (context : Context) : Result Message := do
  Field.ensureNone (← form.validate context)
  let (token, amount) ← context.baseAmount form.token form.amount
  match token.type with
  | .native =>
    return .execute form.contract (valueOf Staking.Execute.stake) [⟨token.name, amount⟩]
  | .cw20 =>
    return HookedSend.message ⟨token.name, form.contract, amount, Staking.Hook.stake⟩

def decode (message : Message) (context : Context) : Result (Match Stake) :=
  match Deposit.ofMessage? message with
  | none => .ok .notMatched
  | some deposit => context.withTokenOf deposit.token fun token => do
    let amount ← Amount.toHuman deposit.amount token.decimals
    return .matched ⟨deposit.contract, token.key, amount⟩

end Stake

end Proposal
