import Mathlib.Tactic
import Proposal.Proofs.Dispatch
import Proposal.Proofs.Resolution
import Proposal.Proofs.Submission

namespace Proposal.Draft

variable {origin : Origin} {calls : List Call} {draft next : Draft} {call : Call}
  {action : Action} {message : Message}

/-- What a call answers, as far as it may fail. -/
def answer (draft : Draft) : Call → Result Unit
  | .edit change => (draft.edit change).2
  | .validate registry context => (draft.validate registry context).map fun _ => ()
  | .encode registry context => (draft.encode registry context).2.map fun _ => ()
  | .retryDecode registry context => (draft.retryDecode registry context).2

/-- The message that a draft without a form is about. -/
def unformed? (draft : Draft) : Option Message :=
  match draft.state with
  | .decoding message _ => some message
  | .resolutionFailed message _ _ => some message
  | .notMatched message => some message
  | _ => none

/-- The message of a draft was decoded with a registry and a context, when the draft was opened or
when it was tried again. -/
inductive Tried (origin : Origin) (calls : List Call) (registry : Registry)
    (context : Context) : Prop
  | opened {message : Message} (loaded : origin = .loaded registry message context)
  | retried (called : .retryDecode registry context ∈ calls)

/-- What the state of a draft says of its kind. One that waits names a token that was pending when
it was tried. -/
inductive Placed (origin : Origin) (calls : List Call) : Draft → Prop
  | formed {kind : ActionKind} {state : DraftState} {action : Action}
      (held : action? ⟨some kind, state⟩ = some action) : Placed origin calls ⟨some kind, state⟩
  | waiting {registry : Registry} {context : Context} {message : Message} {kind : ActionKind}
      {token : TokenKey} (tried : Tried origin calls registry context)
      (decoded : registry.decode message context = .pending kind token) :
      Placed origin calls ⟨some kind, .decoding message (some token)⟩
  | failed {message : Message} {kind : ActionKind} {token : TokenKey} {reason : String} :
      Placed origin calls ⟨some kind, .resolutionFailed message token reason⟩
  | unclaimed {message : Message} : Placed origin calls ⟨none, .notMatched message⟩

theorem Tried.append {registry : Registry} {context : Context}
    (tried : Tried origin calls registry context) (call : Call) :
    Tried origin (calls ++ [call]) registry context := by
  cases tried with
  | opened loaded => exact .opened loaded
  | retried called => exact .retried (List.mem_append_left _ called)

theorem Placed.append (placed : Placed origin calls draft) (call : Call) :
    Placed origin (calls ++ [call]) draft := by
  cases placed with
  | formed held => exact .formed held
  | waiting tried decoded => exact .waiting (tried.append call) decoded
  | failed => exact .failed
  | unclaimed => exact .unclaimed

private theorem Placed.exists_kind (placed : Placed origin calls draft)
    (held : draft.action? = some action) : ∃ kind, draft.kind = some kind := by
  cases placed with
  | formed _ => exact ⟨_, rfl⟩
  | waiting _ _ => exact ⟨_, rfl⟩
  | failed => exact ⟨_, rfl⟩
  | unclaimed => cases held

private theorem placed_of_loads {registry : Registry} {context : Context}
    (loads : Loads registry message context draft) (tried : Tried origin calls registry context) :
    Placed origin calls draft := by
  cases loads with
  | matched _ => exact .formed rfl
  | pending decoded => exact .waiting tried decoded
  | unresolved _ => exact .failed
  | raw _ => exact .unclaimed

private theorem placed_of_opened (made : origin.draft = .ok draft) : Placed origin [] draft := by
  cases origin with
  | new registry kind context =>
    obtain ⟨action, _, same⟩ := bind_eq_ok_iff.mp made
    cases same
    exact .formed rfl
  | loaded registry message context =>
    cases made
    exact placed_of_loads (loads_ofMessage registry message context) (.opened rfl)

/-- One call keeps the place of a draft. -/
theorem Placed.step (placed : Placed origin calls draft) (step : draft.Step call next) :
    Placed origin (calls ++ [call]) next := by
  cases step with
  | edited held =>
    obtain ⟨kind, known⟩ := placed.exists_kind held
    rw [known]
    exact .formed rfl
  | refusedEdit _ => exact placed.append _
  | validated => exact placed.append _
  | encoded held _ =>
    obtain ⟨kind, known⟩ := placed.exists_kind held
    rw [known]
    exact .formed rfl
  | encodeFailed held _ =>
    obtain ⟨kind, known⟩ := placed.exists_kind held
    rw [known]
    exact .formed rfl
  | refusedEncode _ => exact placed.append _
  | decoded _ => exact placed_of_loads (loads_ofMessage _ _ _) (.retried (by simp))
  | refusedRetry _ => exact placed.append _

theorem Run.placed (run : Run origin calls draft) : Placed origin calls draft := by
  induction run with
  | opened made => exact placed_of_opened made
  | called _ call placed => exact placed.step (step_after _ call)

private theorem Run.message?_of_unformed (run : Run origin calls draft)
    (unformed : draft.unformed? = some message) : origin.message? = some message := by
  have accounted := run.accounted
  obtain ⟨kind, state⟩ := draft
  cases state with
  | decoding other pending => cases unformed; exact accounted
  | resolutionFailed other token reason => cases unformed; exact accounted
  | notMatched other =>
    cases unformed
    cases accounted with
    | loaded opened _ => rw [opened]; rfl
    | retried opened _ _ => exact opened
  | _ => cases unformed

private theorem Placed.kind_eq_none_iff (placed : Placed origin calls draft) :
    draft.kind = none ↔ ∃ message, draft.state = .notMatched message := by
  cases placed with
  | @formed kind state action held =>
    refine iff_of_false nofun ?_
    rintro ⟨message, rfl⟩
    cases held
  | waiting _ _ => simp
  | failed => simp
  | unclaimed => simp

/-- Without a form and without a message to decode there is nothing that a call could do. -/
theorem answer_of_settled (formless : draft.action? = none) (settled : draft.undecoded? = none)
    (call : Call) : ∃ step, draft.answer call = .error (.invalidState step) := by
  cases call with
  | edit change => exact ⟨.edit, by rw [answer, edit, formless]⟩
  | validate registry context => exact ⟨.validate, by rw [answer, validate, formless]; rfl⟩
  | encode registry context => exact ⟨.encode, by rw [answer, encode, formless]; rfl⟩
  | retryDecode registry context =>
    exact ⟨.decode, by rw [answer, retryDecode_of_none settled]⟩

private theorem after_of_settled (formless : draft.action? = none)
    (settled : draft.undecoded? = none) (call : Call) : draft.after call = draft := by
  have step := draft.step_after call
  generalize draft.after call = next at step ⊢
  cases step with
  | edited held => rw [formless] at held; cases held
  | encoded held _ => rw [formless] at held; cases held
  | encodeFailed held _ => rw [formless] at held; cases held
  | decoded waiting => rw [settled] at waiting; cases waiting
  | _ => rfl

private theorem foldl_after_of_settled (formless : draft.action? = none)
    (settled : draft.undecoded? = none) (calls : List Call) : calls.foldl after draft = draft := by
  induction calls with
  | nil => rfl
  | cons call rest ih => rw [List.foldl_cons, after_of_settled formless settled, ih]

/-- A draft that has a form has nothing left to decode. -/
theorem action?_eq_none_of_undecoded (waiting : draft.undecoded? = some message) :
    draft.action? = none := by
  obtain ⟨kind, state⟩ := draft
  cases state with
  | decoding _ _ => rfl
  | resolutionFailed _ _ _ => rfl
  | _ => cases waiting

private theorem Step.action?_isSome (step : draft.Step call next) (held : draft.action?.isSome) :
    next.action?.isSome := by
  cases step with
  | edited _ => rfl
  | encoded _ _ => rfl
  | encodeFailed _ _ => rfl
  | decoded waiting => rw [action?_eq_none_of_undecoded waiting] at held; cases held
  | _ => exact held

private theorem action?_isSome_foldl (held : draft.action?.isSome) (calls : List Call) :
    (calls.foldl after draft).action?.isSome := by
  induction calls generalizing draft with
  | nil => exact held
  | cons call rest ih => exact ih ((draft.step_after call).action?_isSome held)

/-- What a failed call leaves behind: an encoding notes the problems of the form; any other call
changes nothing. -/
inductive Fails (draft : Draft) (error : ActionError) : Call → Draft → Prop
  | unchanged {call : Call}
      (other : draft.action? = none ∨ ∀ registry context, call ≠ .encode registry context) :
      Fails draft error call draft
  | noted {registry : Registry} {context : Context} {action : Action}
      {fieldErrors : List FieldError} (held : draft.action? = some action)
      (named : ∀ errors, error = .validation errors → fieldErrors = errors)
      (unnamed : (∀ errors, error ≠ .validation errors) → fieldErrors = []) :
      Fails draft error (.encode registry context)
        ⟨draft.kind, .encodeFailed action error.message fieldErrors⟩

private theorem fails_of_answer {error : ActionError} (failed : draft.answer call = .error error) :
    draft.Fails error call (draft.after call) := by
  have step := draft.step_after call
  generalize draft.after call = next at step ⊢
  cases step with
  | edited held => rw [answer, edit, held] at failed; cases failed
  | refusedEdit formless => exact .unchanged (.inl formless)
  | validated => exact .unchanged (.inr fun _ _ same => by cases same)
  | encoded held made => simp [answer, encode, held, made, Except.map] at failed
  | @encodeFailed registry context action cause held unmade =>
    obtain rfl : cause = error := by
      simpa [answer, encode, held, unmade, Except.map] using failed
    refine .noted held ?_ ?_
    · rintro errors rfl
      rfl
    · intro other
      cases cause
      case validation errors => exact absurd rfl (other errors)
      all_goals rfl
  | refusedEncode formless => exact .unchanged (.inl formless)
  | decoded waiting => rw [answer, retryDecode_of_undecoded waiting] at failed; cases failed
  | refusedRetry _ => exact .unchanged (.inr fun _ _ same => by cases same)

/-- A draft without a form is about the message it was loaded from; forms are never lost; failed
calls change nothing else. -/
theorem History.state_invariant (history : History) :
    (∀ message, history.draft.unformed? = some message →
      history.origin.message? = some message) ∧
    (∀ message pending, history.draft.state = .decoding message pending →
      ∃ kind token registry context, history.draft.kind = some kind ∧ pending = some token ∧
        Tried history.origin history.calls registry context ∧
        registry.decode message context = .pending kind token ∧
        context.lookup token = .pending) ∧
    (history.draft.kind = none ↔ ∃ message, history.draft.state = .notMatched message) ∧
    (∀ message, history.draft.state = .notMatched message →
      ∀ (later : List Call) (call : Call), later.foldl after history.draft = history.draft ∧
        ∃ step, history.draft.answer call = .error (.invalidState step)) ∧
    (history.draft.action?.isSome → ∀ later : List Call,
      (later.foldl after history.draft).action?.isSome) ∧
    ∀ call error, history.draft.answer call = .error error →
      history.draft.Fails error call (history.draft.after call) := by
  obtain ⟨origin, calls, draft, run⟩ := history
  have placed := run.placed
  refine ⟨fun message => run.message?_of_unformed, ?_, placed.kind_eq_none_iff, ?_,
    action?_isSome_foldl, fun call error => fails_of_answer⟩
  · rintro message pending waiting
    cases placed with
    | formed held => cases waiting; cases held
    | @waiting registry context _ kind token tried decoded =>
      cases waiting
      have lacking := (Registry.required_of_decode_pending (List.mem_singleton_self _) decoded).2
      exact ⟨kind, token, registry, context, rfl, rfl, tried, decoded, lacking⟩
    | failed => cases waiting
    | unclaimed => cases waiting
  · intro message unclaimed later call
    have formless : draft.action? = none := by rw [action?, unclaimed]
    have settled : draft.undecoded? = none := by rw [undecoded?, unclaimed]
    exact ⟨foldl_after_of_settled formless settled later, answer_of_settled formless settled call⟩

/-- A stake of a token that is not known yet; a needless encoding fails. -/
def waitingStake : History :=
  (History.opened (.loaded .standard Registry.strangeStake .sample) rfl).called
    (.encode .standard .sample)

/-- A new removal of an item, whose key is not filled in yet. -/
def keylessRemoval : History := History.opened (.new .standard .removeItem .sample) rfl

theorem state_invariant_stake_vote_and_removal :
    (∃ registry context, Tried waitingStake.origin waitingStake.calls registry context ∧
      context.lookup (.native "uother") = .pending) ∧
    waitingStake.origin.message? = some Registry.strangeStake ∧
    (∃ step, Submission.loadedVote.draft.answer (.encode .standard .sample) =
      .error (.invalidState step)) ∧
    ([Call.edit fun _ => .removeItem ⟨"motto"⟩].foldl after
      keylessRemoval.draft).action?.isSome ∧
    keylessRemoval.draft.Fails (.validation [⟨"key", "value is required"⟩])
      (.encode .standard .sample) (keylessRemoval.draft.after (.encode .standard .sample)) := by
  obtain ⟨loaded, waits, _⟩ := waitingStake.state_invariant
  obtain ⟨_, _, _, absorbs, _⟩ := Submission.loadedVote.state_invariant
  obtain ⟨_, _, _, _, keeps, fails⟩ := keylessRemoval.state_invariant
  obtain ⟨kind, token, registry, context, _, same, tried, _, pending⟩ := waits _ _ rfl
  cases same
  exact ⟨⟨registry, context, tried, pending⟩, loaded _ rfl, (absorbs _ rfl [] _).2, keeps rfl _,
    fails _ _ rfl⟩

end Proposal.Draft
