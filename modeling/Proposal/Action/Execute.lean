import Proposal.Action.Basic

namespace Proposal.Execute

def call? (message : Message) : Option Message.Call :=
  message.call?.filter fun call => call.body.isObject

def blank : Execute := ⟨"", .emptyObject, []⟩

def checkMessage (message : Value) : List FieldError :=
  if !message.isObject then [⟨"message", "message must be a JSON object"⟩]
  else if message.isEmptyObject then [⟨"message", "message must not be empty"⟩]
  else []

/-- Checks the funds from a position onwards. -/
def checkFunds (context : Context) (position : Nat) : List Fund → Result (List FieldError)
  | [] => .ok []
  | fund :: rest => do
    let field := "funds[" ++ Numeral.text position ++ "].amount"
    let errors ← Field.checkAmount context field (.native fund.denom) fund.amount
    return errors ++ (← checkFunds context (position + 1) rest)

/-- The names that occur again, each once, in the order of their second occurrence. -/
def repeated (seen : List String) : List String → List String
  | [] => []
  | name :: rest =>
    if seen.count name = 1 then name :: repeated (name :: seen) rest
    else repeated (name :: seen) rest

def validate (form : Execute) (context : Context) : Result (List FieldError) := do
  let funds ← checkFunds context 0 form.funds
  return Field.checkAddress "contract_address" form.contract ++ checkMessage form.message ++
    funds ++
    (repeated [] (form.funds.map Fund.denom)).map fun denom =>
      ⟨"funds", denom ++ " is sent more than once"⟩

/-- The coin of a fund. -/
def coin (context : Context) (fund : Fund) : Result Coin := do
  let (token, amount) ← context.baseAmount (.native fund.denom) fund.amount
  return ⟨token.name, amount⟩

def encode (form : Execute) (context : Context) : Result Message := do
  Field.ensureNone (← form.validate context)
  return .execute form.contract form.message (← form.funds.mapM (coin context))

/-- The funds of coins, in order, up to the first token that is not resolved. -/
def decodeFunds (context : Context) : List Coin → Result (Match (List Fund))
  | [] => .ok (.matched [])
  | coin :: rest => context.withTokenOf (.native coin.denom) fun token => do
    let amount ← Amount.toHuman coin.amount token.decimals
    return (← decodeFunds context rest).map (⟨coin.denom, amount⟩ :: ·)

def decode (message : Message) (context : Context) : Result (Match Execute) :=
  match call? message with
  | none => .ok .notMatched
  | some call => do
    return (← decodeFunds context call.funds).map fun funds => ⟨call.contract, call.body, funds⟩

end Proposal.Execute
