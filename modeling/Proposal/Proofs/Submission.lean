import Mathlib.Tactic
import Proposal.Draft
import Proposal.Proofs.Context
import Proposal.Proofs.Draft

namespace Proposal

namespace Draft

/-- The last encoding of a run made the message of the form. Nothing was edited after it. -/
inductive LastEncoding (origin : Origin) (calls : List Call) (action : Action)
    (message : Message) : Prop
  | made {earlier later : List Call} {registry : Registry} {context : Context} {before : Draft}
      (split : calls = earlier ++ .encode registry context :: later)
      (run : Run origin earlier before)
      (held : before.action? = some action)
      (encodes : registry.encode action context = .ok message)
      (result : (before.encode registry context).2 = .ok message)
      (last : ∀ call ∈ later, ∀ registry context, call ≠ .encode registry context)
      (unedited : ∀ call ∈ later, ∀ change, call ≠ .edit change)

/-- The message was loaded, and a registry gave it back as it was, at once or when it was tried
again. -/
inductive Unclaimed (origin : Origin) (calls : List Call) (message : Message) : Prop
  | loaded {registry : Registry} {context : Context}
      (opened : origin = .loaded registry message context)
      (raw : registry.decode message context = .raw message)
  | retried {registry : Registry} {context : Context}
      (opened : origin.message? = some message)
      (retried : .retryDecode registry context ∈ calls)
      (raw : registry.decode message context = .raw message)

/-- What the state of a draft says of the calls that led to it. -/
def Accounted (origin : Origin) (calls : List Call) : DraftState → Prop
  | .encoded action message => LastEncoding origin calls action message
  | .decoding message _ => origin.message? = some message
  | .resolutionFailed message _ _ => origin.message? = some message
  | .notMatched message => Unclaimed origin calls message
  | .defaults _ => True
  | .editing _ => True
  | .encodeFailed _ _ _ => True

variable {origin : Origin} {calls : List Call} {draft : Draft} {registry : Registry}
  {context : Context} {action : Action} {message : Message}

theorem LastEncoding.append (encoding : LastEncoding origin calls action message) {call : Call}
    (notEncode : ∀ registry context, call ≠ .encode registry context)
    (notEdit : ∀ change, call ≠ .edit change) :
    LastEncoding origin (calls ++ [call]) action message := by
  obtain @⟨earlier, later, registry, context, before, rfl, run, held, encodes, result, last,
    unedited⟩ := encoding
  have split : earlier ++ .encode registry context :: later ++ [call] =
      earlier ++ .encode registry context :: (later ++ [call]) := by simp
  refine .made split run held encodes result ?_ ?_
  · intro other member
    rcases List.mem_append.mp member with old | new
    · exact last other old
    · exact List.mem_singleton.mp new ▸ notEncode
  · intro other member
    rcases List.mem_append.mp member with old | new
    · exact unedited other old
    · exact List.mem_singleton.mp new ▸ notEdit

theorem Unclaimed.append (unclaimed : Unclaimed origin calls message) (call : Call) :
    Unclaimed origin (calls ++ [call]) message := by
  cases unclaimed with
  | loaded opened raw => exact .loaded opened raw
  | retried opened retried raw => exact .retried opened (List.mem_append_left _ retried) raw

/-- A call that neither edits nor encodes may leave a draft as it is. -/
theorem Accounted.append {state : DraftState} (accounted : Accounted origin calls state)
    {call : Call} (notEncode : ∀ registry context, call ≠ .encode registry context)
    (notEdit : ∀ change, call ≠ .edit change) : Accounted origin (calls ++ [call]) state := by
  cases state with
  | encoded action message => exact LastEncoding.append accounted notEncode notEdit
  | notMatched message => exact Unclaimed.append accounted call
  | decoding message pending => exact accounted
  | resolutionFailed message token reason => exact accounted
  | defaults action => trivial
  | editing action => trivial
  | encodeFailed action error errors => trivial

/-- A draft without a form is left as it is by any call that asks for the form. -/
theorem Accounted.append_of_formless (accounted : Accounted origin calls draft.state)
    (formless : draft.action? = none) (call : Call) :
    Accounted origin (calls ++ [call]) draft.state := by
  obtain ⟨kind, state⟩ := draft
  cases state with
  | notMatched message => exact Unclaimed.append accounted call
  | decoding message pending => exact accounted
  | resolutionFailed message token reason => exact accounted
  | defaults action => cases formless
  | editing action => cases formless
  | encoded action message => cases formless
  | encodeFailed action error errors => cases formless

private theorem Accounted.message?_of_undecoded (accounted : Accounted origin calls draft.state)
    (waiting : draft.undecoded? = some message) : origin.message? = some message := by
  obtain ⟨kind, state⟩ := draft
  cases state with
  | decoding other pending => cases waiting; exact accounted
  | resolutionFailed other token reason => cases waiting; exact accounted
  | _ => cases waiting

private theorem accounted_of_loads (loads : Loads registry message context draft)
    (opened : origin.message? = some message)
    (unclaimed : registry.decode message context = .raw message →
      Unclaimed origin calls message) : Accounted origin calls draft.state := by
  cases loads with
  | matched _ => trivial
  | pending _ => exact opened
  | unresolved _ => exact opened
  | raw decoded => exact unclaimed decoded

private theorem accounted_of_opened (made : origin.draft = .ok draft) :
    Accounted origin [] draft.state := by
  cases origin with
  | new registry kind context =>
    obtain ⟨action, _, same⟩ := bind_eq_ok_iff.mp made
    cases same
    trivial
  | loaded registry message context =>
    cases made
    exact accounted_of_loads (loads_ofMessage registry message context) rfl (.loaded rfl)

/-- One call keeps the account of a draft. -/
theorem Accounted.step (accounted : Accounted origin calls draft.state)
    (run : Run origin calls draft) {call : Call} {next : Draft} (step : draft.Step call next) :
    Accounted origin (calls ++ [call]) next.state := by
  cases step with
  | edited held => trivial
  | refusedEdit formless => exact accounted.append_of_formless formless _
  | validated => exact accounted.append (by simp) (by simp)
  | @encoded registry context action message held made =>
    have result : (draft.encode registry context).2 = .ok message := by
      simp only [encode, held, made]
    exact .made rfl run held made result (by simp) (by simp)
  | encodeFailed held failed => trivial
  | refusedEncode formless => exact accounted.append_of_formless formless _
  | decoded waiting =>
    have opened := accounted.message?_of_undecoded waiting
    apply accounted_of_loads (loads_ofMessage _ _ _) opened
    exact .retried opened (by simp)
  | refusedRetry settled => exact accounted.append (by simp) (by simp)

theorem Run.accounted (run : Run origin calls draft) : Accounted origin calls draft.state := by
  induction run with
  | opened made => exact accounted_of_opened made
  | called before call accounted => exact accounted.step before (step_after _ call)

/-- The draft has a message: it is encoded, or no kind claims the message it was loaded from. -/
def IsReady (draft : Draft) : Prop :=
  (∃ action message, draft.state = .encoded action message) ∨
    ∃ message, draft.state = .notMatched message

private theorem message?_eq_none_iff : draft.message? = none ↔ ¬draft.IsReady := by
  obtain ⟨kind, state⟩ := draft
  cases state <;> simp [message?, IsReady]

private theorem IsReady.exists_message (ready : draft.IsReady) :
    ∃ message, draft.message? = some message := by
  apply Option.ne_none_iff_exists'.mp
  intro none
  exact message?_eq_none_iff.mp none ready

/-- The message is of the last encoding and the form is unchanged since, or it was loaded and no
kind claims it. -/
inductive History.Submits (history : History) (message : Message) : Prop
  | encoded {action : Action} (current : history.draft.action? = some action)
      (encoding : LastEncoding history.origin history.calls action message)
  | unclaimed (current : history.draft.state = .notMatched message)
      (unclaimed : Unclaimed history.origin history.calls message)

private theorem History.submits_of_message? {history : History}
    (ready : history.draft.message? = some message) : history.Submits message := by
  obtain ⟨origin, calls, ⟨kind, state⟩, run⟩ := history
  have accounted := run.accounted
  cases state with
  | encoded action made => cases ready; exact .encoded rfl accounted
  | notMatched loaded => cases ready; exact .unclaimed rfl accounted
  | _ => cases ready

end Draft

namespace Submission

variable {sender : String} {fee : Fee} {drafts : List Draft}

private theorem ofDrafts_eq_ok_iff {submission : Submission} :
    ofDrafts sender drafts fee = .ok submission ↔
      drafts ≠ [] ∧ ∃ messages,
        List.Forall₂ (fun draft message => draft.message? = some message) drafts messages ∧
        ⟨sender, messages, fee⟩ = submission := by
  simp only [ofDrafts, bind_eq_ok_iff, mapM_eq_ok_iff, orError_eq_ok_iff]
  cases drafts with
  | nil => simp [new]
  | cons draft rest =>
    constructor
    · rintro ⟨messages, taken, made⟩
      cases taken with
      | cons first others => exact ⟨nofun, _, .cons first others, Except.ok.inj made⟩
    · rintro ⟨_, messages, taken, rfl⟩
      cases taken with
      | cons first others => exact ⟨_, .cons first others, rfl⟩

private theorem exists_messages (ready : ∀ draft ∈ drafts, draft.IsReady) :
    ∃ messages,
      List.Forall₂ (fun draft message => draft.message? = some message) drafts messages := by
  induction drafts with
  | nil => exact ⟨[], .nil⟩
  | cons draft rest ih =>
    obtain ⟨first, others⟩ := List.forall_mem_cons.mp ready
    obtain ⟨message, found⟩ := first.exists_message
    obtain ⟨messages, taken⟩ := ih others
    exact ⟨message :: messages, .cons found taken⟩

private theorem ofDrafts_eq_ok (notEmpty : drafts ≠ []) (ready : ∀ draft ∈ drafts, draft.IsReady) :
    ∃ submission, ofDrafts sender drafts fee = .ok submission := by
  obtain ⟨messages, taken⟩ := exists_messages ready
  exact ⟨_, ofDrafts_eq_ok_iff.mpr ⟨notEmpty, messages, taken, rfl⟩⟩

private theorem ofDrafts_eq_error (missing : ∃ draft ∈ drafts, ¬draft.IsReady) :
    ofDrafts sender drafts fee = .error (.invalidState .submit) := by
  have none : ∃ draft ∈ drafts, draft.message? = none := by
    simpa only [Draft.message?_eq_none_iff] using missing
  rw [ofDrafts, mapM_orError_eq_error none]
  rfl

variable {histories : List Draft.History}

private theorem submits_of_ofDrafts {submission : Submission}
    (made : ofDrafts sender (histories.map Draft.History.draft) fee = .ok submission) :
    histories ≠ [] ∧ submission.sender = sender ∧ submission.fee = fee ∧
      List.Forall₂ Draft.History.Submits histories submission.messages := by
  obtain ⟨notEmpty, messages, taken, rfl⟩ := ofDrafts_eq_ok_iff.mp made
  refine ⟨by simpa using notEmpty, rfl, rfl, ?_⟩
  rw [List.forall₂_map_left_iff] at taken
  exact taken.imp fun _ _ found => Draft.History.submits_of_message? found

/-- Only fresh messages are submitted, one for each draft, in order; every draft has to have one,
and there has to be a draft. -/
theorem ofDrafts_submits_fresh (sender : String) (histories : List Draft.History) (fee : Fee) :
    (∀ submission, ofDrafts sender (histories.map Draft.History.draft) fee = .ok submission →
      histories ≠ [] ∧ submission.sender = sender ∧ submission.fee = fee ∧
        List.Forall₂ Draft.History.Submits histories submission.messages) ∧
    (histories ≠ [] → (∀ history ∈ histories, history.draft.IsReady) →
      ∃ submission, ofDrafts sender (histories.map Draft.History.draft) fee = .ok submission) ∧
    ((∃ history ∈ histories, ¬history.draft.IsReady) →
      ofDrafts sender (histories.map Draft.History.draft) fee = .error (.invalidState .submit)) ∧
    (histories = [] →
      ofDrafts sender (histories.map Draft.History.draft) fee = .error .noMessages) := by
  refine ⟨fun submission made => submits_of_ofDrafts made, ?_, ?_, ?_⟩
  · intro notEmpty ready
    apply ofDrafts_eq_ok (by simpa using notEmpty)
    simpa using ready
  · intro missing
    apply ofDrafts_eq_error
    simpa using missing
  · rintro rfl
    rfl

/-- A new item that is edited and encoded; a check and a needless try to decode it come after. -/
def encodedItem : Draft.History :=
  ((((Draft.History.opened (.new .standard .setItem .sample) rfl).called
    (.edit fun _ => .setItem ⟨"motto", "onward"⟩)).called
    (.encode .standard .sample)).called
    (.validate .standard .sample)).called
    (.retryDecode .standard .sample)

/-- A vote of the DAO that is loaded, and that no kind claims; to edit it fails. -/
def loadedVote : Draft.History :=
  (Draft.History.opened (.loaded .standard (.stargate ⟨"/gov.MsgVote", .emptyObject⟩) .sample)
    rfl).called (.edit fun _ => .setItem ⟨"motto", "onward"⟩)

/-- The item, changed after it was encoded. -/
def changedItem : Draft.History := encodedItem.called (.edit fun _ => .setItem ⟨"motto", "upward"⟩)

theorem ofDrafts_submits_fresh_item_and_vote :
    List.Forall₂ Draft.History.Submits [encodedItem, loadedVote]
        [.execute "dao" (valueOf (DaoCore.Execute.setItem "motto" "onward")) [],
          .stargate ⟨"/gov.MsgVote", .emptyObject⟩] ∧
      ofDrafts "sender" ([loadedVote, changedItem].map Draft.History.draft)
        ⟨[], ⟨200000, by decide⟩⟩ = .error (.invalidState .submit) := by
  have made : ofDrafts "sender" ([encodedItem, loadedVote].map Draft.History.draft)
      ⟨[], ⟨200000, by decide⟩⟩ =
      .ok ⟨"sender", [.execute "dao" (valueOf (DaoCore.Execute.setItem "motto" "onward")) [],
        .stargate ⟨"/gov.MsgVote", .emptyObject⟩], ⟨[], ⟨200000, by decide⟩⟩⟩ := rfl
  have notReady : ¬changedItem.draft.IsReady := by
    intro ready
    obtain ⟨message, found⟩ := ready.exists_message
    cases found
  constructor
  · obtain ⟨_, _, _, fresh⟩ := (ofDrafts_submits_fresh _ _ _).1 _ made
    exact fresh
  · exact (ofDrafts_submits_fresh _ _ _).2.2.1 ⟨changedItem, by simp, notReady⟩

end Submission

end Proposal
