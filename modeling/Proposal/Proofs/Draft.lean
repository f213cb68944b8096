import Mathlib.Tactic
import Proposal.Draft
import Proposal.Proofs.Amount
import Proposal.Proofs.Registry

/-! Drafts share nothing, so that calls on several drafts, in whatever order they are made, are one
run of each. -/
namespace Proposal

private theorem Registry.eq_of_decode_raw {registry : Registry} {message other : Message}
    {context : Context} (raw : registry.decode message context = .raw other) : other = message := by
  by_contra changed
  obtain ⟨kind, _, decides⟩ := decides_of_decodeWith raw (by simpa using changed)
  cases decides

namespace Draft

/-- How a draft comes about: as a new action of a kind, or from a message. -/
inductive Origin
  | new (registry : Registry) (kind : ActionKind) (context : Context)
  | loaded (registry : Registry) (message : Message) (context : Context)

namespace Origin

def draft : Origin → Result Draft
  | .new registry kind context => Draft.new registry kind context
  | .loaded registry message context => .ok (ofMessage registry message context)

/-- The message that the draft was loaded from. -/
def message? : Origin → Option Message
  | .new .. => none
  | .loaded _ message _ => some message

end Origin

inductive Call
  | edit (change : Action → Action)
  | validate (registry : Registry) (context : Context)
  | encode (registry : Registry) (context : Context)
  | retryDecode (registry : Registry) (context : Context)

/-- The draft after a call. -/
def after (draft : Draft) : Call → Draft
  | .edit change => (draft.edit change).1
  | .validate _ _ => draft
  | .encode registry context => (draft.encode registry context).1
  | .retryDecode registry context => (draft.retryDecode registry context).1

/-- The drafts that calls lead to, whether the calls succeed or fail. -/
inductive Run (origin : Origin) : List Call → Draft → Prop
  | opened {draft : Draft} (made : origin.draft = .ok draft) : Run origin [] draft
  | called {calls : List Call} {draft : Draft} (before : Run origin calls draft) (call : Call) :
      Run origin (calls ++ [call]) (draft.after call)

/-- A draft with all that was done with it. -/
structure History where
  origin : Origin
  calls : List Call
  draft : Draft
  run : Run origin calls draft

namespace History

def opened (origin : Origin) {draft : Draft} (made : origin.draft = .ok draft) : History :=
  ⟨origin, [], draft, .opened made⟩

def called (history : History) (call : Call) : History :=
  ⟨history.origin, history.calls ++ [call], history.draft.after call, .called history.run call⟩

end History

/-- The message that still has to be decoded. -/
def undecoded? (draft : Draft) : Option Message :=
  match draft.state with
  | .decoding message _ => some message
  | .resolutionFailed message _ _ => some message
  | _ => none

variable {draft : Draft} {registry : Registry} {context : Context} {message : Message}

theorem retryDecode_of_undecoded (waiting : draft.undecoded? = some message) :
    draft.retryDecode registry context = (ofMessage registry message context, .ok ()) := by
  obtain ⟨kind, state⟩ := draft
  cases state <;> cases waiting <;> rfl

theorem retryDecode_of_none (decoded : draft.undecoded? = none) :
    draft.retryDecode registry context = (draft, .error (.invalidState .decode)) := by
  obtain ⟨kind, state⟩ := draft
  cases state <;> first | rfl | cases decoded

/-- What a call does to a draft. -/
inductive Step (draft : Draft) : Call → Draft → Prop
  | edited {change : Action → Action} {action : Action} (held : draft.action? = some action) :
      Step draft (.edit change) ⟨draft.kind, .editing (change action)⟩
  | refusedEdit {change : Action → Action} (formless : draft.action? = none) :
      Step draft (.edit change) draft
  | validated {registry : Registry} {context : Context} :
      Step draft (.validate registry context) draft
  | encoded {registry : Registry} {context : Context} {action : Action} {message : Message}
      (held : draft.action? = some action) (made : registry.encode action context = .ok message) :
      Step draft (.encode registry context) ⟨draft.kind, .encoded action message⟩
  | encodeFailed {registry : Registry} {context : Context} {action : Action} {error : ActionError}
      (held : draft.action? = some action)
      (failed : registry.encode action context = .error error) :
      Step draft (.encode registry context)
        ⟨draft.kind, .encodeFailed action error.message (problems error)⟩
  | refusedEncode {registry : Registry} {context : Context} (formless : draft.action? = none) :
      Step draft (.encode registry context) draft
  | decoded {registry : Registry} {context : Context} {message : Message}
      (waiting : draft.undecoded? = some message) :
      Step draft (.retryDecode registry context) (ofMessage registry message context)
  | refusedRetry {registry : Registry} {context : Context} (settled : draft.undecoded? = none) :
      Step draft (.retryDecode registry context) draft

theorem step_after (draft : Draft) (call : Call) : draft.Step call (draft.after call) := by
  cases call with
  | validate registry context => exact .validated
  | edit change =>
    cases held : draft.action? with
    | none =>
      have kept : draft.after (.edit change) = draft := by
        rw [after, edit, held]
      rw [kept]
      exact .refusedEdit held
    | some action =>
      have edited : draft.after (.edit change) = ⟨draft.kind, .editing (change action)⟩ := by
        rw [after, edit, held]
      rw [edited]
      exact .edited held
  | encode registry context =>
    cases held : draft.action? with
    | none =>
      have kept : draft.after (.encode registry context) = draft := by
        rw [after, encode, held]
      rw [kept]
      exact .refusedEncode held
    | some action =>
      cases made : registry.encode action context with
      | ok message =>
        have encoded : draft.after (.encode registry context) =
            ⟨draft.kind, .encoded action message⟩ := by
          simp only [after, encode, held, made]
        rw [encoded]
        exact .encoded held made
      | error error =>
        have failed : draft.after (.encode registry context) =
            ⟨draft.kind, .encodeFailed action error.message (problems error)⟩ := by
          simp only [after, encode, held, made]
        rw [failed]
        exact .encodeFailed held made
  | retryDecode registry context =>
    cases waiting : draft.undecoded? with
    | none =>
      have kept : draft.after (.retryDecode registry context) = draft := by
        rw [after, retryDecode_of_none waiting]
      rw [kept]
      exact .refusedRetry waiting
    | some message =>
      have decoded : draft.after (.retryDecode registry context) =
          ofMessage registry message context := by
        rw [after, retryDecode_of_undecoded waiting]
      rw [decoded]
      exact .decoded waiting

/-- What becomes of a message that is loaded or tried again. -/
inductive Loads (registry : Registry) (message : Message) (context : Context) : Draft → Prop
  | matched {kind : ActionKind} {action : Action}
      (decoded : registry.decode message context = .matched kind action) :
      Loads registry message context ⟨some kind, .editing action⟩
  | pending {kind : ActionKind} {token : TokenKey}
      (decoded : registry.decode message context = .pending kind token) :
      Loads registry message context ⟨some kind, .decoding message (some token)⟩
  | unresolved {kind : ActionKind} {token : TokenKey} {reason : String}
      (decoded : registry.decode message context = .unresolved kind token reason) :
      Loads registry message context ⟨some kind, .resolutionFailed message token reason⟩
  | raw (decoded : registry.decode message context = .raw message) :
      Loads registry message context ⟨none, .notMatched message⟩

theorem loads_ofMessage (registry : Registry) (message : Message) (context : Context) :
    Loads registry message context (ofMessage registry message context) := by
  unfold ofMessage
  cases decoded : registry.decode message context with
  | matched kind action => exact .matched decoded
  | pending kind token => exact .pending decoded
  | unresolved kind token reason => exact .unresolved decoded
  | raw other =>
    obtain rfl := Registry.eq_of_decode_raw decoded
    exact .raw decoded

end Draft

end Proposal
