import Proposal.Draft

/-! Decodes a list of messages, or encodes a list of actions, for a DAO that a config file and some
arguments describe. -/
namespace Proposal

/-- Why an inspection ends early. -/
inductive InspectionError
  | action (error : ActionError)
  | unreadable (file : String)
  | tokenShape (argument : String)
  | tokenDecimals (address : String)
  | malformedMessages (file : String)
  | malformedActions (file : String)
  | invalidActions
  /-- The time in seconds is past the largest time in nanoseconds. -/
  | timeRange
  deriving DecidableEq, Repr

/-- The wording of an error. One that stops the program in its tracks has none. -/
def InspectionError.message? : InspectionError → Option String
  | .action error => some error.message
  | .unreadable file => some ("reading " ++ file)
  | .tokenShape argument =>
    some ("expected a token as address:symbol:decimals, got '" ++ argument ++ "'")
  | .tokenDecimals address => some ("invalid decimals of token " ++ address)
  | .malformedMessages file => some ("parsing messages in " ++ file)
  | .malformedActions file => some ("parsing actions in " ++ file)
  | .invalidActions => some "some actions are invalid"
  | .timeRange => none

/-- The exit code of an error. -/
def InspectionError.exitCode : InspectionError → Nat
  | .timeRange => 101
  | _ => 1

/-- Splits at every colon. -/
def splitColons : List Char → List (List Char)
  | [] => [[]]
  | char :: rest =>
    if char = ':' then [] :: splitColons rest
    else
      match splitColons rest with
      | [] => [[char]]
      | part :: parts => (char :: part) :: parts

/-- Reads a contract token given as `address:symbol:decimals`. -/
def Token.ofArgument (argument : String) : Except InspectionError Token :=
  match splitColons argument.toList with
  | [address, symbol, decimals] =>
    if address = [] ∨ symbol = [] then .error (.tokenShape argument)
    else
      match Unsigned.read? 8 decimals with
      | none => .error (.tokenDecimals (String.ofList address))
      | some decimals =>
        match Amount.checkDecimals decimals with
        | .error error => .error (.action error)
        | .ok () => .ok ⟨.cw20, String.ofList address, decimals, String.ofList symbol⟩
  | _ => .error (.tokenShape argument)

inductive InspectionCommand
  | decode
  /-- Encodes actions, if asked for in the form that the chain executes. -/
  | encode (forChain : Bool)
  deriving DecidableEq, Repr

/-- A file by its name, with its content if it can be read. -/
structure SourceFile where
  name : String
  content : Option Payload

/-- What the inspector is asked. -/
structure Inspection where
  config : SourceFile
  dao : String
  now : Count
  vestingFactory : Option String
  tokens : List String
  command : InspectionCommand
  input : SourceFile

/-- What is said of a config that cannot be read, and of a value that is not Base64. -/
structure Wording where
  config : Payload → String
  base64 : String → String

/-- What an inspection comes to. -/
structure InspectionReport where
  exitCode : Nat
  output : Option Value
  log : List String
  error : Option String

namespace Inspection

abbrev Outcome (α : Type) := Except InspectionError α

def ofResult {α : Type} : Result α → Outcome α
  | .ok value => .ok value
  | .error error => .error (.action error)

def orStop {α : Type} (error : InspectionError) : Option α → Outcome α
  | some value => .ok value
  | none => .error error

def readFile (file : SourceFile) : Outcome Payload := orStop (.unreadable file.name) file.content

/-- Reads a list from a document that people wrote. -/
def readList {α : Type} [JsonForm α] (file : SourceFile) (malformed : InspectionError) :
    Outcome (List α) := do
  let payload ← readFile file
  orStop malformed ((payload.text?.bind ofText?))

/-- The chain and the context that the arguments describe. -/
def setUp (wording : Wording) (inspection : Inspection) : Outcome (Offline × Context) := do
  let config ← ofResult (ChainConfig.load wording.config (← readFile inspection.config))
  let tokens ← inspection.tokens.mapM Token.ofArgument
  let chain : Offline := ⟨config, tokens, inspection.vestingFactory⟩
  let now ← orStop .timeRange (Timestamp.ofSeconds? inspection.now)
  let context ← ofResult (Context.new config inspection.dao now)
  let (context, found) := context.resolveVestingFactory chain.querier
  ofResult found
  return (chain, context.resolveTokens chain.querier (tokens.map Token.key))

def decode (chain : Offline) (context : Context) (messages : List Message) : Value :=
  let tokens := Registry.standard.requiredTokens messages
  valueOf (Registry.standard.decodeAll messages (context.resolveTokens chain.querier tokens))

/-- A line for every problem of the actions from a position onwards, and the error that stopped the
search for them. -/
def problemsFrom (context : Context) (position : Nat) :
    List Action → List String × Option ActionError
  | [] => ([], none)
  | action :: rest =>
    match Registry.standard.validate action context with
    | .error error => ([], some error)
    | .ok errors =>
      let lines := errors.map fun error =>
        "Action " ++ Numeral.text position ++ " (" ++ action.kind.label ++ "): " ++ error.text
      let more := problemsFrom context (position + 1) rest
      (lines ++ more.1, more.2)

def encode (wording : Wording) (context : Context) (actions : List Action) (forChain : Bool) :
    Result Value := do
  let messages ← Registry.standard.encodeAll actions context
  if forChain then
    let messages ← messages.mapM (ChainMessage.ofMessage wording.base64)
    return .ofJson (.arr (messages.map ChainMessage.toJson))
  else return valueOf messages

def stop (log : List String) (error : InspectionError) : InspectionReport :=
  ⟨error.exitCode, none, log, error.message?⟩

def finish (output : Value) : InspectionReport := ⟨0, some output, [], none⟩

def runEncode (wording : Wording) (context : Context) (actions : List Action)
    (forChain : Bool) : InspectionReport :=
  let (log, error) := problemsFrom context 0 actions
  match error with
  | some error => stop log (.action error)
  | none =>
    if log.isEmpty then
      match encode wording context actions forChain with
      | .ok output => finish output
      | .error error => stop [] (.action error)
    else stop log .invalidActions

def run (wording : Wording) (inspection : Inspection) : InspectionReport :=
  match inspection.setUp wording with
  | .error error => stop [] error
  | .ok (chain, context) =>
    match inspection.command with
    | .decode =>
      match readList inspection.input (.malformedMessages inspection.input.name) with
      | .error error => stop [] error
      | .ok messages => finish (decode chain context messages)
    | .encode forChain =>
      match readList inspection.input (.malformedActions inspection.input.name) with
      | .error error => stop [] error
      | .ok actions => runEncode wording context actions forChain

end Inspection

end Proposal
