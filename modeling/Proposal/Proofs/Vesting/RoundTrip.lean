import Mathlib.Tactic
import Proposal.Proofs.Decoding
import Proposal.Proofs.Encoding
import Proposal.Proofs.Registry
import Proposal.Proofs.Vesting.Schedule

namespace Proposal

open VestingContract

namespace BeginVesting

variable {context : Context} {message : Message} {form : BeginVesting} {token : Token}
  {total : BaseAmount} {instantiate : Instantiate}

/-- The forms are the same, up to the units in which the delays of their steps are given. -/
structure Agrees (form shown : BeginVesting) : Prop where
  recipient : form.recipient = shown.recipient
  title : form.title = shown.title
  description : form.description = shown.description
  owner : form.owner = shown.owner
  token : form.token = shown.token
  amount : form.amount = shown.amount
  startTime : form.startTime = shown.startTime
  steps : List.Forall₂ VestingStep.Agrees form.steps shown.steps

theorem instantiate_eq_ok_iff :
    form.instantiate context token total = .ok instantiate ↔
      ∃ schedule duration, Schedule.ofSteps total form.steps = .ok schedule ∧
        Vesting.durationSeconds form.steps = .ok duration ∧
        instantiate = {
          owner := form.owner
          recipient := form.recipient
          title := form.title
          description := form.description
          total := total
          denom := denomOf token
          schedule := schedule
          startTime := some form.startTime
          vestingSeconds := duration
          unbondingSeconds := context.config.unbondingSeconds } := by
  simp only [BeginVesting.instantiate, bind_eq_ok_iff, exists_and_left, pure, Except.pure,
    Except.ok.injEq]
  constructor
  · rintro ⟨schedule, planned, duration, counted, rfl⟩
    exact ⟨schedule, planned, duration, counted, rfl⟩
  · rintro ⟨schedule, planned, duration, counted, rfl⟩
    exact ⟨schedule, planned, duration, counted, rfl⟩

theorem total?_of_exact (resolved : context.lookup form.token = .resolved token)
    (exactly : Amount.Exact form.amount total token.decimals) :
    form.total? context = some total := by
  simp only [total?, resolved, exactly.toBase_eq]
  rfl

theorem ofMessage?_messageOf (form : BeginVesting) (factory : String)
    (amount : instantiate.total = total) (denom : instantiate.denom = denomOf token) :
    Grant.ofMessage? (form.messageOf factory token total instantiate) =
      some ⟨instantiate, token.key⟩ := by
  rw [Grant.ofMessage?_eq_some_iff]
  obtain ⟨type, name, decimals, symbol⟩ := token
  cases type with
  | native =>
    exact .inr ⟨factory, form.label, ⟨name, total⟩, Message.typedCall?_execute _ _ _, amount.symm,
      denom, rfl⟩
  | cw20 =>
    refine .inl ⟨name, factory, form.label, ?_, denom, rfl⟩
    rw [amount]
    exact HookedSend.ofMessage?_message (by decide) rfl _

/-- The message of a new vesting contract is claimed, and gives the form back if and only if its
steps are recoverable. -/
theorem decode_of_encode (reachable : context.Reachable)
    (made : form.encode context = .ok message) :
    ActionKind.beginVesting.claims message = true ∧
      ∃ total, form.total? context = some total ∧
        (Vesting.Recoverable total form.steps →
          ∃ shown, decode message context = .ok (.matched shown) ∧ form.Agrees shown) ∧
        (¬Vesting.Recoverable total form.steps → decode message context = .ok .notMatched) := by
  obtain ⟨good, factory, token, total, instantiate, _, resolved, exactly, told, rfl⟩ :=
    encode_eq_ok_iff.mp made
  obtain ⟨schedule, duration, planned, counted, same⟩ := instantiate_eq_ok_iff.mp told
  obtain ⟨notEmpty, whole, _, exactSteps⟩ := checkSteps_eq_nil (checkSteps_of_validate good)
  have known := total?_of_exact resolved exactly
  have nonzero : total.val ≠ 0 := exactly.isZero_eq.mp (admits_of_validate good).1
  have key := reachable.key_of_lookup resolved
  have claimed : Grant.ofMessage? (form.messageOf factory token total instantiate) =
      some ⟨instantiate, token.key⟩ :=
    form.ofMessage?_messageOf factory (by rw [same]) (by rw [same])
  refine ⟨Option.isSome_iff_exists.mpr ⟨_, claimed⟩, total, known, ?_⟩
  have amount : Amount.Exact form.amount instantiate.total token.decimals := by rwa [same]
  have reads : instantiate.schedule.steps? instantiate.total instantiate.vestingSeconds =
      schedule.steps? total duration := by rw [same]
  obtain ⟨recover, lose⟩ := Schedule.steps?_ofSteps nonzero notEmpty planned counted
    (exactSteps total known) whole
  constructor
  · intro recoverable
    obtain ⟨recovered, read, agrees⟩ := recover recoverable
    refine ⟨formOf instantiate context recovered token form.amount, ?_, ?_⟩
    · refine decode_eq_matched_iff.mpr ⟨_, token, claimed, key.symm ▸ resolved, ?_⟩
      exact ofInstantiate_eq_matched_iff.mpr
        ⟨recovered, form.amount, reads.trans read, amount, rfl⟩
    · rw [same]
      exact ⟨rfl, rfl, rfl, rfl, key.symm, rfl, rfl, agrees⟩
  · intro lost
    simp only [decode, claimed, Context.withTokenOf, key, resolved, ofInstantiate, reads, lose lost]

/-- The message of a new vesting contract can be shown as a general call too. -/
theorem execute_decode_of_encode (reachable : context.Reachable)
    (made : form.encode context = .ok message) :
    ActionKind.execute.claims message = true ∧
      ∃ call, Execute.decode message context = .ok (.matched call) := by
  obtain ⟨_, factory, token, total, instantiate, _, resolved, exactly, _, rfl⟩ :=
    encode_eq_ok_iff.mp made
  rw [← reachable.key_of_lookup resolved] at resolved
  obtain ⟨contract, body, coins, funds, same, object, shown⟩ :
      ∃ contract body coins funds,
        form.messageOf factory token total instantiate = .execute contract body coins ∧
        body.isObject = true ∧ List.Forall₂ (Execute.Shown context) coins funds := by
    obtain ⟨type, name, decimals, symbol⟩ := token
    cases type with
    | native =>
      exact ⟨factory, _, _, [⟨name, form.amount⟩], rfl, rfl,
        .cons ⟨rfl, _, resolved, exactly⟩ .nil⟩
    | cw20 => exact ⟨name, _, _, [], rfl, rfl, .nil⟩
  rw [same]
  refine ⟨Option.isSome_iff_exists.mpr ⟨⟨contract, coins, body⟩, ?_⟩, ⟨contract, body, funds⟩, ?_⟩
  · exact Execute.call?_eq_some_iff.mpr ⟨rfl, object⟩
  · exact Execute.decode_eq_matched_iff.mpr ⟨coins, rfl, object, shown⟩

end BeginVesting

namespace Registry

variable {context : Context} {form : BeginVesting} {message : Message}

private theorem encode_vesting (form : BeginVesting) (context : Context) :
    standard.encode (.beginVesting form) context = form.encode context :=
  encode_standard _ _

private theorem decode_vesting_of_recoverable (reachable : context.Reachable)
    (made : form.encode context = .ok message) {total : BaseAmount}
    (known : form.total? context = some total)
    (recoverable : Vesting.Recoverable total form.steps) :
    ∃ shown, standard.decode message context = .matched .beginVesting (.beginVesting shown) ∧
      form.Agrees shown := by
  obtain ⟨claims, other, again, recover, _⟩ := BeginVesting.decode_of_encode reachable made
  rw [known] at again
  cases again
  obtain ⟨shown, decoded, agrees⟩ := recover recoverable
  refine ⟨shown, decode_of_passes (mem_standard _) claims ?_ fun _ earlier =>
    ActionKind.passes_of_claims claims (by decide) earlier, agrees⟩
  exact map_eq_ok_iff.mpr ⟨_, decoded, rfl⟩

private theorem decode_vesting_of_lost (reachable : context.Reachable)
    (made : form.encode context = .ok message) {total : BaseAmount}
    (known : form.total? context = some total) (lost : ¬Vesting.Recoverable total form.steps) :
    ∃ call, standard.decode message context = .matched .execute (.execute call) := by
  obtain ⟨claims, other, again, _, lose⟩ := BeginVesting.decode_of_encode reachable made
  rw [known] at again
  cases again
  obtain ⟨general, call, decoded⟩ := BeginVesting.execute_decode_of_encode reachable made
  refine ⟨call, decode_of_passes (mem_standard _) general ?_ fun other earlier => ?_⟩
  · exact map_eq_ok_iff.mpr ⟨_, decoded, rfl⟩
  · by_cases vesting : other = .beginVesting
    · subst vesting
      refine .inr (.inl ?_)
      rw [ActionKind.decode, lose lost]
      rfl
    · refine .inl (Bool.eq_false_iff.mpr fun otherClaims => vesting ?_)
      refine ActionKind.eq_of_claims otherClaims claims ?_ (by decide)
      rintro rfl
      exact Nat.lt_irrefl _ earlier

/-- A new vesting decodes as itself if and only if its steps are recoverable, and as a general call
otherwise. -/
theorem decode_encode_vesting {context : Context} {form : BeginVesting} {message : Message}
    (reachable : context.Reachable)
    (made : standard.encode (.beginVesting form) context = .ok message) :
    ∃ total, form.total? context = some total ∧
      ((∃ shown, standard.decode message context = .matched .beginVesting (.beginVesting shown) ∧
        form.Agrees shown) ↔ Vesting.Recoverable total form.steps) ∧
      (¬Vesting.Recoverable total form.steps →
        ∃ call, standard.decode message context = .matched .execute (.execute call)) := by
  rw [encode_vesting] at made
  obtain ⟨_, total, known, _⟩ := BeginVesting.decode_of_encode reachable made
  refine ⟨total, known, ⟨?_, decode_vesting_of_recoverable reachable made known⟩,
    decode_vesting_of_lost reachable made known⟩
  rintro ⟨shown, decoded, _⟩
  by_contra lost
  obtain ⟨call, general⟩ := decode_vesting_of_lost reachable made known lost
  rw [general] at decoded
  cases decoded

/-- A grant of so much that unlocks in two halves, two years each. -/
def halves (amount : HumanAmount) : BeginVesting where
  recipient := "alice"
  title := "Grant"
  description := none
  owner := none
  token := .native "utoken"
  amount := amount
  startTime := Context.sample.now
  steps :=
    [⟨⟨⟨50000000000000000000, by decide⟩⟩, ⟨⟨2, by decide⟩, .years⟩⟩,
      ⟨⟨⟨50000000000000000000, by decide⟩⟩, ⟨⟨2, by decide⟩, .years⟩⟩]

/-- Half of two tokens is had back. -/
theorem decode_encode_halves :
    ∃ message shown,
      standard.encode (.beginVesting (halves ⟨⟨2 * Decimal.one, by decide⟩⟩)) .sample =
        .ok message ∧
      standard.decode message .sample = .matched .beginVesting (.beginVesting shown) ∧
      (halves ⟨⟨2 * Decimal.one, by decide⟩⟩).Agrees shown := by
  obtain ⟨message, made⟩ : ∃ message,
      standard.encode (.beginVesting (halves ⟨⟨2 * Decimal.one, by decide⟩⟩)) .sample =
        .ok message := ⟨_, rfl⟩
  obtain ⟨total, known, restored, _⟩ := decode_encode_vesting Context.reachable_sample made
  obtain rfl : ⟨2000000, by decide⟩ = total := Option.some.inj known
  obtain ⟨shown, decoded, agrees⟩ :=
    restored.mpr (.inr ⟨.inr (by decide), .inl (by decide), trivial⟩)
  exact ⟨message, shown, made, decoded, agrees⟩

/-- Half of 10^31 tokens of six places is too large: the grant is shown as a general call. -/
theorem decode_halves_lost :
    ∃ message call,
      standard.encode (.beginVesting (halves ⟨⟨10 ^ 31 * Decimal.one, by decide⟩⟩)) .sample =
        .ok message ∧
      standard.decode message .sample = .matched .execute (.execute call) := by
  obtain ⟨message, made⟩ : ∃ message,
      (halves ⟨⟨10 ^ 31 * Decimal.one, by decide⟩⟩).encode .sample = .ok message := ⟨_, rfl⟩
  have known : (halves ⟨⟨10 ^ 31 * Decimal.one, by decide⟩⟩).total? .sample =
    some ⟨10 ^ 37, by decide⟩ := rfl
  have lost : ¬Vesting.Recoverable ⟨10 ^ 37, by decide⟩
      (halves ⟨⟨10 ^ 31 * Decimal.one, by decide⟩⟩).steps := by
    rintro (single | ⟨all | fits, _⟩)
    · exact absurd single (by decide)
    · exact absurd all (by decide)
    · exact absurd fits (by decide)
  obtain ⟨call, general⟩ := decode_vesting_of_lost Context.reachable_sample made known lost
  exact ⟨message, call, (encode_vesting _ _).trans made, general⟩

end Registry

end Proposal
