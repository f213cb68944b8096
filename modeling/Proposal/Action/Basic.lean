import Proposal.Action.Form
import Proposal.Context
import Proposal.Contract.Dao
import Proposal.Message

namespace Proposal

namespace Field

def checkAddress (field address : String) : List FieldError :=
  if Text.allBlank address then [⟨field, "address is required"⟩]
  else if Text.hasBlank address then [⟨field, "address must not contain whitespace"⟩]
  else []

def checkPresent (field value : String) : List FieldError :=
  if Text.allBlank value then [⟨field, "value is required"⟩] else []

/-- Holds an amount against its token's precision and the balance, as far as known. The first
problem hides the others. -/
def checkAmount (context : Context) (field : String) (key : TokenKey) (amount : HumanAmount) :
    Result (List FieldError) :=
  if amount.isZero then .ok [⟨field, "amount must be greater than zero"⟩]
  else
    match context.lookup key with
    | .pending => .ok []
    | .failed _ => .ok []
    | .resolved token => do
      if ← Amount.fits amount token.decimals then
        match Amount.toBase amount token.decimals with
        | .error _ => return [⟨field, AmountFault.tooLarge.text⟩]
        | .ok base =>
          match context.balance? key with
          | none => return []
          | some balance =>
            if balance < base then
              return [⟨field, "amount exceeds the available balance of " ++
                (Amount.toHumanOrZero balance token.decimals).text ++ " " ++ token.symbol⟩]
            else return []
      else
        return [⟨field, token.symbol ++ " supports at most " ++ token.decimals.text ++
          " decimal places"⟩]

/-- Refuses a form that has problems. -/
def ensureNone (errors : List FieldError) : Result Unit :=
  if errors.isEmpty then .ok () else .error (.validation errors)

end Field

namespace Message

/-- A call whose body is the JSON form of some data. -/
structure TypedCall (α : Type) where
  contract : String
  funds : List Coin
  data : α

def typedCall? {α : Type} [JsonForm α] (message : Message) : Option (TypedCall α) := do
  let call ← message.call?
  return ⟨call.contract, call.funds, ← call.body.as?⟩

/-- A call that no coins go with. -/
def unfunded? {α : Type} [JsonForm α] (message : Message) : Option (TypedCall α) := do
  let call ← message.typedCall?
  if call.funds.isEmpty then return call else none

end Message

/-- Contract tokens sent to a contract together with a hook. -/
structure HookedSend (α : Type) where
  token : String
  contract : String
  amount : BaseAmount
  hook : α

namespace HookedSend

variable {α : Type} [JsonForm α]

def ofMessage? (message : Message) : Option (HookedSend α) := do
  let call ← message.unfunded?
  match call.data with
  | Cw20.Execute.send contract amount hook =>
    return ⟨call.contract, contract, amount, ← ofPayload? hook⟩
  | _ => none

def message (send : HookedSend α) : Message :=
  .execute send.token
    (valueOf (Cw20.Execute.send send.contract send.amount (payloadOf send.hook))) []

end HookedSend

namespace Context

/-- The metadata of a token and the base units of an amount of it. -/
def baseAmount (context : Context) (key : TokenKey) (amount : HumanAmount) :
    Result (Token × BaseAmount) := do
  let token ← context.token key
  return (token, ← Amount.toBase amount token.decimals)

/-- Decodes with the metadata of a token, or says that the token is pending. -/
def withTokenOf {α : Type} (context : Context) (key : TokenKey)
    (decode : Token → Result (Match α)) : Result (Match α) :=
  match context.lookup key with
  | .resolved token => decode token
  | .pending => .ok (.pending key)
  | .failed reason => .error (.tokenFailed key reason)

end Context

end Proposal
