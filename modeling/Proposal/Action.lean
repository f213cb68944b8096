import Proposal.Action.BeginVesting
import Proposal.Action.Execute
import Proposal.Action.Payment
import Proposal.Action.Upkeep

namespace Proposal.ActionKind

/-- The form that a new action starts out with. -/
def blank (kind : ActionKind) (context : Context) : Action :=
  match kind with
  | .spend => .spend (Spend.blank context)
  | .stake => .stake (Stake.blank context)
  | .beginVesting => .beginVesting (BeginVesting.blank context)
  | .cancelVesting => .cancelVesting CancelVesting.blank
  | .registerSlash => .registerSlash (RegisterSlash.blank context)
  | .setItem => .setItem SetItem.blank
  | .removeItem => .removeItem RemoveItem.blank
  | .execute => .execute Execute.blank

/-- The problems of a form. One without problems can be encoded. -/
def validate (kind : ActionKind) (action : Action) (context : Context) :
    Result (List FieldError) :=
  match kind, action with
  | .spend, .spend form => form.validate context
  | .stake, .stake form => form.validate context
  | .beginVesting, .beginVesting form => form.validate context
  | .cancelVesting, .cancelVesting form => .ok form.validate
  | .registerSlash, .registerSlash form => .ok (form.validate context)
  | .setItem, .setItem form => .ok form.validate
  | .removeItem, .removeItem form => .ok form.validate
  | .execute, .execute form => form.validate context
  | kind, action => .error (.wrongAction kind action.kind)

/-- The message of a form, which must have no problems. -/
def encode (kind : ActionKind) (action : Action) (context : Context) : Result Message :=
  match kind, action with
  | .spend, .spend form => form.encode context
  | .stake, .stake form => form.encode context
  | .beginVesting, .beginVesting form => form.encode context
  | .cancelVesting, .cancelVesting form => form.encode
  | .registerSlash, .registerSlash form => form.encode context
  | .setItem, .setItem form => form.encode context
  | .removeItem, .removeItem form => form.encode context
  | .execute, .execute form => form.encode context
  | kind, action => .error (.wrongAction kind action.kind)

/-- Whether a message has the shape of the kind. This needs no data of tokens. -/
def claims (kind : ActionKind) (message : Message) : Bool :=
  match kind with
  | .spend => (Spend.Payment.ofMessage? message).isSome
  | .stake => (Stake.Deposit.ofMessage? message).isSome
  | .beginVesting => (BeginVesting.Grant.ofMessage? message).isSome
  | .cancelVesting => (CancelVesting.ofMessage? message).isSome
  | .registerSlash => (RegisterSlash.ofMessage? message).isSome
  | .setItem => (SetItem.ofMessage? message).isSome
  | .removeItem => (RemoveItem.ofMessage? message).isSome
  | .execute => (Execute.call? message).isSome

/-- A form that a message gives without any token. -/
def matchOf {α : Type} : Option α → Match α
  | some form => .matched form
  | none => .notMatched

/-- The form of a message. -/
def decode (kind : ActionKind) (message : Message) (context : Context) : Result (Match Action) :=
  match kind with
  | .spend => (Spend.decode message context).map (·.map .spend)
  | .stake => (Stake.decode message context).map (·.map .stake)
  | .beginVesting => (BeginVesting.decode message context).map (·.map .beginVesting)
  | .cancelVesting => .ok ((matchOf (CancelVesting.ofMessage? message)).map .cancelVesting)
  | .registerSlash => .ok ((matchOf (RegisterSlash.ofMessage? message)).map .registerSlash)
  | .setItem => .ok ((matchOf (SetItem.ofMessage? message)).map .setItem)
  | .removeItem => .ok ((matchOf (RemoveItem.ofMessage? message)).map .removeItem)
  | .execute => (Execute.decode message context).map (·.map .execute)

/-- The tokens that have to be resolved before a message can be decoded. -/
def requiredTokens (kind : ActionKind) (message : Message) : List TokenKey :=
  match kind with
  | .spend => (Spend.Payment.ofMessage? message).toList.map Spend.Payment.token
  | .stake => (Stake.Deposit.ofMessage? message).toList.map Stake.Deposit.token
  | .beginVesting => (BeginVesting.Grant.ofMessage? message).toList.map BeginVesting.Grant.token
  | .execute =>
    match Execute.call? message with
    | some call => call.funds.map fun coin => .native coin.denom
    | none => []
  | _ => []

end Proposal.ActionKind
