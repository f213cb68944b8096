import Proposal.Message.Chain
import Proposal.Registry

namespace Proposal

inductive DraftState
  | defaults (action : Action)
  | editing (action : Action)
  | encoded (action : Action) (message : Message)
  | encodeFailed (action : Action) (error : String) (fieldErrors : List FieldError)
  | decoding (message : Message) (pending : Option TokenKey)
  | resolutionFailed (message : Message) (token : TokenKey) (reason : String)
  /-- No kind in use claims the message; it is shown and submitted as it is. -/
  | notMatched (message : Message)

/-- The name of a state that people see. -/
def DraftState.label : DraftState → String
  | .defaults _ => "Defaults"
  | .editing _ => "Editing"
  | .encoded _ _ => "Encoded"
  | .encodeFailed _ _ _ => "EncodeFailed"
  | .decoding _ _ => "Decoding"
  | .resolutionFailed _ _ _ => "ResolutionFailed"
  | .notMatched _ => "NotMatched"

structure Draft where
  kind : Option ActionKind
  state : DraftState

namespace Draft

/-- A new action of a kind. -/
def new (registry : Registry) (kind : ActionKind) (context : Context) : Result Draft := do
  return ⟨some kind, .defaults (← registry.blank kind context)⟩

/-- The draft of a message, as far as the message can be decoded. -/
def ofDecoded (message : Message) : Decoded → Draft
  | .matched kind action => ⟨some kind, .editing action⟩
  | .pending kind token => ⟨some kind, .decoding message (some token)⟩
  | .unresolved kind token reason => ⟨some kind, .resolutionFailed message token reason⟩
  | .raw message => ⟨none, .notMatched message⟩

def ofMessage (registry : Registry) (message : Message) (context : Context) : Draft :=
  ofDecoded message (registry.decode message context)

/-- Decodes the message again, as a rule once a token has been resolved. -/
def retryDecode (draft : Draft) (registry : Registry) (context : Context) : Draft × Result Unit :=
  match draft.state with
  | .decoding message _ => (ofMessage registry message context, .ok ())
  | .resolutionFailed message _ _ => (ofMessage registry message context, .ok ())
  | _ => (draft, .error (.invalidState .decode))

/-- The form, if there is one yet. -/
def action? (draft : Draft) : Option Action :=
  match draft.state with
  | .defaults action => some action
  | .editing action => some action
  | .encoded action _ => some action
  | .encodeFailed action _ _ => some action
  | _ => none

/-- The message to submit, if there is one yet. -/
def message? (draft : Draft) : Option Message :=
  match draft.state with
  | .encoded _ message => some message
  | .notMatched message => some message
  | _ => none

def fieldErrors (draft : Draft) : List FieldError :=
  match draft.state with
  | .encodeFailed _ _ errors => errors
  | _ => []

/-- Whether the action can be submitted as it is. -/
def isTerminal (draft : Draft) : Bool := draft.message?.isSome

/-- Changes the form. A message made from the form before is dropped. -/
def edit (draft : Draft) (change : Action → Action) : Draft × Result Unit :=
  match draft.action? with
  | none => (draft, .error (.invalidState .edit))
  | some action => ({ draft with state := .editing (change action) }, .ok ())

def validate (draft : Draft) (registry : Registry) (context : Context) :
    Result (List FieldError) := do
  registry.validate (← orError (.invalidState .validate) draft.action?) context

/-- The problems that an error names. -/
def problems : ActionError → List FieldError
  | .validation errors => errors
  | _ => []

/-- Makes the message of the form. Where that fails the form is kept, so that it can be mended. -/
def encode (draft : Draft) (registry : Registry) (context : Context) : Draft × Result Message :=
  match draft.action? with
  | none => (draft, .error (.invalidState .encode))
  | some action =>
    match registry.encode action context with
    | .ok message => ({ draft with state := .encoded action message }, .ok message)
    | .error error =>
      ({ draft with state := .encodeFailed action error.message (problems error) }, .error error)

end Draft

structure Fee where
  amount : List Coin
  gasLimit : Count
  deriving DecidableEq, Repr

instance : JsonForm Fee where
  toJson fee := .obj [("amount", toJson fee.amount), ("gas_limit", toJson fee.gasLimit)]
  ofJson? reading json := do
    let fields ← json.record? reading ["amount", "gas_limit"]
    let amount ← field? reading fields "amount"
    let gasLimit ← field? reading fields "gas_limit"
    return { amount, gasLimit }
  extent := .fields [("amount", JsonForm.extent (List Coin)), ("gas_limit", .all)] .all

structure Submission where
  sender : String
  messages : List Message
  fee : Fee

namespace Submission

def new (sender : String) (messages : List Message) (fee : Fee) : Result Submission :=
  if messages.isEmpty then .error .noMessages else .ok ⟨sender, messages, fee⟩

/-- Takes the message of every draft. Each has to be encoded, or not claimed by any kind. -/
def ofDrafts (sender : String) (drafts : List Draft) (fee : Fee) : Result Submission := do
  let messages ← drafts.mapM fun draft => orError (.invalidState .submit) draft.message?
  new sender messages fee

def chainMessages (submission : Submission) (complaint : String → String) :
    Result (List ChainMessage) :=
  submission.messages.mapM (ChainMessage.ofMessage complaint)

end Submission

end Proposal
