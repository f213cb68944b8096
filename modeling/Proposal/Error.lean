import Proposal.Action.Kind
import Proposal.Token

namespace Proposal

/-- A problem with one field of a form that the person who fills it in can mend. -/
structure FieldError where
  field : String
  message : String
  deriving DecidableEq, Repr

def FieldError.text (error : FieldError) : String := error.field ++ ": " ++ error.message

instance : JsonForm FieldError where
  toJson error := .obj [("field", toJson error.field), ("message", toJson error.message)]
  ofJson? reading json := do
    let fields ← json.record? reading ["field", "message"]
    let field ← field? reading fields "field"
    let message ← field? reading fields "message"
    return { field, message }

/-- What is wrong with the text of an amount. -/
inductive AmountFault
  | negative
  | notANumber
  | tooLarge
  deriving DecidableEq, Repr

def AmountFault.text : AmountFault → String
  | .negative => "amount must not be negative"
  | .notANumber => "not a number"
  | .tooLarge => "amount is too large"

/-- What is wrong with a chain config. -/
inductive ConfigFault
  | blankChainId
  | noNativeTokens
  | blankDenom
  | tooPrecise (denom : String) (decimals : Places)
  | repeatedDenom (denom : String)
  | otherChain (connected configured : String)
  deriving DecidableEq, Repr

/-- What an action was asked to do in a state that does not allow it. -/
inductive Step
  | decode
  | edit
  | validate
  | encode
  | submit
  deriving DecidableEq, Repr

def Step.participle : Step → String
  | .decode => "decoded"
  | .edit => "edited"
  | .validate => "validated"
  | .encode => "encoded"
  | .submit => "submitted"

inductive ActionError
  /-- A sum of two numbers is too large. -/
  | sumOverflow (left right : String)
  /-- A product of two numbers is too large. -/
  | productOverflow (left right : String)
  /-- A share of an amount is too large. -/
  | ratioOverflow
  /-- A contract answered a query with an error. -/
  | queryRefused (reason : String)
  | noSuchContract (address : String)
  | notFound (what : String)
  /-- A text is not JSON, or not the JSON form of a type; the reader names the type and says why. -/
  | malformed (complaint : String)
  /-- Data cannot be written so that contracts can read it. -/
  | unwritable (complaint : String)
  | invalidBase64 (complaint : String)
  | validation (errors : List FieldError)
  | invalidAmount (amount : String) (fault : AmountFault)
  | tooPrecise (decimals : Places)
  | unevenSchedule (percentSum : Percent)
  | emptySchedule
  | timeOverflow
  | tokenNotResolved (token : TokenKey)
  | tokenFailed (token : TokenKey) (reason : String)
  | unknownDenom (denom : String)
  | factoryNotResolved
  | wrongAction (expected actual : ActionKind)
  | duplicateAction (kind : ActionKind)
  | notRegistered (kind : ActionKind)
  | undecodedStargate (typeUrl : String)
  | noMessages
  | invalidState (step : Step)
  | invalidConfig (fault : ConfigFault)
  deriving DecidableEq, Repr

private def precisionText (decimals : Places) : String :=
  "Token decimals must be at most 18, got " ++ decimals.text

def ConfigFault.text : ConfigFault → String
  | .blankChainId => "chain_id must not be empty"
  | .noNativeTokens => "at least one native token must be configured"
  | .blankDenom => "native token denom must not be empty"
  | .tooPrecise denom decimals => "native token " ++ denom ++ ": " ++ precisionText decimals
  | .repeatedDenom denom => "duplicate native token " ++ denom
  | .otherChain connected configured =>
    "querier is connected to " ++ connected ++ ", but the config is for " ++ configured

/-- The wording of an error. -/
def ActionError.message : ActionError → String
  | .sumOverflow left right => "Generic error: Cannot Add with " ++ left ++ " and " ++ right
  | .productOverflow left right => "Generic error: Cannot Mul with " ++ left ++ " and " ++ right
  | .ratioOverflow => "Generic error: Multiplication overflow"
  | .queryRefused reason => "Generic error: Querier contract error: " ++ reason
  | .noSuchContract address =>
    "Generic error: Querier system error: No such contract: " ++ address
  | .notFound what => what ++ " not found"
  | .malformed complaint => "Error parsing into type " ++ complaint
  | .unwritable complaint => "Error serializing type " ++ complaint
  | .invalidBase64 complaint => "Invalid Base64 string: " ++ complaint
  | .validation errors =>
    "Action failed validation: " ++ "; ".intercalate (errors.map FieldError.text)
  | .invalidAmount amount fault => "Invalid amount '" ++ amount ++ "': " ++ fault.text
  | .tooPrecise decimals => precisionText decimals
  | .unevenSchedule percentSum =>
    "Vesting schedule percents must add up to 100, got " ++ percentSum.text
  | .emptySchedule => "Vesting schedule has no steps"
  | .timeOverflow => "Vesting schedule extends past the representable time range"
  | .tokenNotResolved token => "Token " ++ token.label ++ " has not been resolved yet"
  | .tokenFailed token reason => "Token " ++ token.label ++ " could not be resolved: " ++ reason
  | .unknownDenom denom => "Native denom " ++ denom ++ " is not known to this chain"
  | .factoryNotResolved => "The vesting factory address has not been resolved"
  | .wrongAction expected actual =>
    "Action " ++ expected.label ++ " was given data of action " ++ actual.label
  | .duplicateAction kind => "Action " ++ kind.label ++ " is already registered"
  | .notRegistered kind => "Action " ++ kind.label ++ " is not registered"
  | .undecodedStargate typeUrl =>
    "Stargate message " ++ typeUrl ++
      " carries a decoded value; it must be protobuf-encoded before broadcasting"
  | .noMessages => "Cannot broadcast an empty message list"
  | .invalidState step => "Action cannot be " ++ step.participle ++ " in its current state"
  | .invalidConfig fault => "Invalid chain config: " ++ fault.text

abbrev Result (α : Type) := Except ActionError α

/-- The value of an option, or an error in its absence. -/
def orError {α : Type} (error : ActionError) : Option α → Result α
  | some value => .ok value
  | none => .error error

namespace Unsigned

variable {bits : Nat}

/-- The sum, unless it is too large. -/
def plus (left right : Unsigned bits) : Result (Unsigned bits) :=
  orError (.sumOverflow left.text right.text) (left.add? right)

/-- The product, unless it is too large. -/
def times (left right : Unsigned bits) : Result (Unsigned bits) :=
  orError (.productOverflow left.text right.text) (left.mul? right)

end Unsigned

namespace Decimal

variable {bits : Nat}

/-- The sum, unless it is too large. -/
def plus (left right : Decimal bits) : Result (Decimal bits) :=
  orError (.sumOverflow left.text right.text) (left.add? right)

/-- The product, unless it is too large. -/
def times (left right : Decimal bits) : Result (Decimal bits) :=
  orError (.productOverflow left.text right.text) (left.mul? right)

end Decimal

end Proposal
