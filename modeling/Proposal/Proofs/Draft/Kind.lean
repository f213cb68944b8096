import Mathlib.Tactic
import Proposal.Proofs.Context
import Proposal.Proofs.Decoding
import Proposal.Proofs.Dispatch
import Proposal.Proofs.Draft
import Proposal.Proofs.Registry

namespace Proposal

namespace Registry

variable {registry : Registry} {kind : ActionKind} {action : Action} {context : Context}
  {message : Message}

private theorem kind_of_blank (made : registry.blank kind context = .ok action) :
    action.kind = kind := by
  obtain ⟨found, used, same⟩ := bind_eq_ok_iff.mp made
  unfold get at used
  split at used
  · cases used
    cases same
    cases kind <;> rfl
  · cases used

private theorem kind_of_decode (matched : registry.decode message context = .matched kind action) :
    action.kind = kind := by
  obtain ⟨_, _, decoded⟩ := decodeWith_eq_matched matched
  exact (ActionKind.decodes_of_decode decoded).kind_eq

end Registry

namespace Draft

/-- What an edit does to a form. -/
def Call.change? : Call → Option (Action → Action)
  | .edit change => some change
  | .validate _ _ => none
  | .encode _ _ => none
  | .retryDecode _ _ => none

/-- A form with the edits of some calls, in order. -/
def edited (form : Action) (calls : List Call) : Action :=
  (calls.filterMap Call.change?).foldl (fun form change => change form) form

/-- How a draft gets its first form: as the blank form of a new action, or from its message, when
that is loaded or tried again. -/
inductive FirstFormed (origin : Origin) : List Call → Action → Prop
  | blank {registry : Registry} {kind : ActionKind} {context : Context} {form : Action}
      (opened : origin = .new registry kind context)
      (made : registry.blank kind context = .ok form) : FirstFormed origin [] form
  | loaded {registry : Registry} {message : Message} {context : Context} {kind : ActionKind}
      {form : Action} (opened : origin = .loaded registry message context)
      (decoded : registry.decode message context = .matched kind form) :
      FirstFormed origin [] form
  | retried {registry : Registry} {message : Message} {context : Context} {kind : ActionKind}
      {form : Action} {calls : List Call} {before : Draft} (run : Run origin calls before)
      (waiting : before.undecoded? = some message)
      (decoded : registry.decode message context = .matched kind form) :
      FirstFormed origin (calls ++ [.retryDecode registry context]) form

/-- The draft has the kind of its first form, and the first form with all edits since then. -/
def Traced (origin : Origin) (calls : List Call) (draft : Draft) : Prop :=
  ∀ action, draft.action? = some action →
    ∃ earlier later first, calls = earlier ++ later ∧ FirstFormed origin earlier first ∧
      draft.kind = some first.kind ∧ action = edited first later

variable {origin : Origin} {calls : List Call} {draft next : Draft} {call : Call}
  {action : Action} {message : Message}

private theorem edited_append (form : Action) (first rest : List Call) :
    edited form (first ++ rest) = edited (edited form first) rest := by
  rw [edited, List.filterMap_append, List.foldl_append]
  rfl

/-- A call that keeps the kind and at most edits the form keeps the trace. -/
theorem Traced.append (traced : Traced origin calls draft) (kind : next.kind = draft.kind)
    (forms : ∀ action, next.action? = some action →
      ∃ before, draft.action? = some before ∧ action = edited before [call]) :
    Traced origin (calls ++ [call]) next := by
  intro action held
  obtain ⟨before, had, changed⟩ := forms action held
  obtain ⟨earlier, later, first, rfl, formed, known, same⟩ := traced before had
  refine ⟨earlier, later ++ [call], first, List.append_assoc _ _ _, formed, kind.trans known, ?_⟩
  rw [changed, same, edited_append]

/-- A call that is no edit, and keeps the kind and the form, keeps the trace. -/
theorem Traced.kept (traced : Traced origin calls draft) (kind : next.kind = draft.kind)
    (form : next.action? = draft.action?) (neutral : call.change? = none) :
    Traced origin (calls ++ [call]) next := by
  apply traced.append kind
  intro action held
  refine ⟨action, form ▸ held, ?_⟩
  rw [edited, List.filterMap_cons_none neutral]
  rfl

private theorem Traced.of_formless (formless : draft.action? = none) :
    Traced origin calls draft := by
  intro action held
  rw [formless] at held
  cases held

private theorem traced_of_loads {registry : Registry} {context : Context}
    (loads : Loads registry message context draft)
    (formed : ∀ kind form, registry.decode message context = .matched kind form →
      FirstFormed origin calls form) : Traced origin calls draft := by
  cases loads with
  | matched decoded =>
    intro action held
    cases held
    refine ⟨calls, [], _, (List.append_nil calls).symm, formed _ _ decoded, ?_, rfl⟩
    exact congrArg some (Registry.kind_of_decode decoded).symm
  | pending _ => exact .of_formless rfl
  | unresolved _ => exact .of_formless rfl
  | raw _ => exact .of_formless rfl

private theorem traced_of_opened (made : origin.draft = .ok draft) : Traced origin [] draft := by
  cases origin with
  | new registry kind context =>
    obtain ⟨form, blank, same⟩ := bind_eq_ok_iff.mp made
    cases same
    intro action held
    cases held
    refine ⟨[], [], form, rfl, .blank rfl blank, ?_, rfl⟩
    exact congrArg some (Registry.kind_of_blank blank).symm
  | loaded registry message context =>
    cases made
    apply traced_of_loads (loads_ofMessage registry message context)
    intro kind form decoded
    exact .loaded rfl decoded

/-- One call keeps the trace of a draft. -/
theorem Traced.step (traced : Traced origin calls draft) (run : Run origin calls draft)
    (step : draft.Step call next) : Traced origin (calls ++ [call]) next := by
  cases step with
  | edited had =>
    apply traced.append
    · rfl
    · intro action held
      cases held
      exact ⟨_, had, rfl⟩
  | refusedEdit formless => exact .of_formless formless
  | validated => exact traced.kept rfl rfl rfl
  | encoded had _ => exact traced.kept rfl had.symm rfl
  | encodeFailed had _ => exact traced.kept rfl had.symm rfl
  | refusedEncode formless => exact .of_formless formless
  | decoded waiting =>
    apply traced_of_loads (loads_ofMessage _ _ _)
    intro kind form decoded
    exact .retried run waiting decoded
  | refusedRetry _ => exact traced.kept rfl rfl rfl

private theorem Run.traced (run : Run origin calls draft) : Traced origin calls draft := by
  induction run with
  | opened made => exact traced_of_opened made
  | called before call traced => exact traced.step before (step_after _ call)

private theorem kind_edited (form : Action) {calls : List Call}
    (keeps : ∀ change, .edit change ∈ calls → ∀ form, (change form).kind = form.kind) :
    (edited form calls).kind = form.kind := by
  induction calls generalizing form with
  | nil => rfl
  | cons call rest ih =>
    have later : ∀ change, .edit change ∈ rest → ∀ form, (change form).kind = form.kind := by
      intro change member
      exact keeps change (List.mem_cons_of_mem call member)
    cases call with
    | edit change =>
      have first : (change form).kind = form.kind := keeps change List.mem_cons_self form
      exact (ih (change form) later).trans first
    | validate registry context => exact ih form later
    | encode registry context => exact ih form later
    | retryDecode registry context => exact ih form later

private theorem encode_of_held {registry : Registry} {context : Context}
    (held : draft.action? = some action) (made : (draft.encode registry context).2 = .ok message) :
    registry.encode action context = .ok message := by
  simp only [encode, held] at made
  split at made
  next encoded => rw [encoded, ← made]
  next => cases made

/-- The kind of a draft is that of its first form; it names the present form if and only if the
edits lead back to it. -/
theorem History.kind_names_first_form (history : History) {action : Action}
    (held : history.draft.action? = some action) :
    (∃ earlier later first, history.calls = earlier ++ later ∧
      FirstFormed history.origin earlier first ∧ action = edited first later ∧
      history.draft.kind = some first.kind ∧
      (history.draft.kind = some action.kind ↔ (edited first later).kind = first.kind)) ∧
    ((∀ change, .edit change ∈ history.calls → ∀ form, (change form).kind = form.kind) →
      history.draft.kind = some action.kind) ∧
    ∀ registry context message, (history.draft.encode registry context).2 = .ok message →
      action.kind ∈ registry.kinds ∧ action.kind.encode action context = .ok message := by
  obtain ⟨earlier, later, first, split, formed, known, same⟩ := history.run.traced action held
  refine ⟨⟨earlier, later, first, split, formed, same, known, ?_⟩, ?_, ?_⟩
  · rw [known, same, Option.some.injEq, eq_comm]
  · intro keeps
    have kept : (edited first later).kind = first.kind := by
      apply kind_edited first
      intro change member
      apply keeps change
      rw [split]
      exact List.mem_append_right _ member
    rw [known, same, kept]
  · intro registry context message made
    exact Registry.encode_eq_ok_iff.mp (encode_of_held held made)

/-- An edit that sends a stake to another contract. -/
def toPool : Action → Action
  | .stake form => .stake { form with contract := "pool" }
  | form => form

/-- A stake that is loaded while its token is looked up, tried again, and then moved to the pool. -/
def movedStake : History :=
  ((History.opened (.loaded .standard Registry.strangeStake
    (Context.sample.markLoading (.native "uother"))) rfl).called
    (.retryDecode .standard
      (Context.sample.withToken ⟨.native, "uother", ⟨17, by decide⟩, "OTHER"⟩))).called
    (.edit toPool)

theorem kind_names_first_form_movedStake :
    (∃ action, movedStake.draft.action? = some action ∧ movedStake.draft.kind = some action.kind) ∧
    ∃ earlier first, FirstFormed movedStake.origin earlier first ∧
      movedStake.draft.kind = some first.kind := by
  have held : movedStake.draft.action? =
      some (.stake ⟨"pool", .native "uother", ⟨⟨50, by decide⟩⟩⟩) := rfl
  obtain ⟨⟨earlier, _, first, _, formed, _, known, _⟩, keeps, _⟩ :=
    movedStake.kind_names_first_form held
  have kept : ∀ change, .edit change ∈ movedStake.calls →
      ∀ form, (change form).kind = form.kind := by
    intro change member form
    have moved : change = toPool := by
      simpa [movedStake, History.called, History.opened] using member
    rw [moved]
    cases form <;> rfl
  exact ⟨⟨_, held, keeps kept⟩, earlier, first, formed, known⟩

/-- A cancelled vesting whose form is replaced by that of a payment, which is then encoded. -/
def mislabelled : History :=
  ((History.opened (.new .standard .cancelVesting .sample) rfl).called
    (.edit fun _ =>
      .spend ⟨"mallory", .native "utoken", ⟨⟨7000000000000000000, by decide⟩⟩⟩)).called
    (.encode .standard .sample)

/-- The kind of a draft need not be that of its form: here a cancelled vesting makes a payment. -/
theorem kind_misnames_form :
    ∃ action, mislabelled.draft.action? = some action ∧
      mislabelled.draft.kind = some .cancelVesting ∧
      mislabelled.draft.kind ≠ some action.kind ∧
      mislabelled.draft.message? =
        some (.bankSend "mallory" [⟨"utoken", ⟨7000000, by decide⟩⟩]) := by
  have held : mislabelled.draft.action? = some (.spend ⟨"mallory", .native "utoken",
    ⟨⟨7000000000000000000, by decide⟩⟩⟩) := rfl
  have known : mislabelled.draft.kind = some .cancelVesting := rfl
  refine ⟨_, held, known, ?_, rfl⟩
  intro named
  rw [known] at named
  cases named

end Draft

end Proposal
