import Mathlib.Tactic
import Proposal.Proofs.Registry
import Proposal.Proofs.Requirement

namespace Proposal

variable {message : Message} {context : Context} {kind : ActionKind}

/-- The kind that a message was found to be of. -/
def Decoded.kind? : Decoded → Option ActionKind
  | .matched kind _ => some kind
  | .pending kind _ => some kind
  | .unresolved kind _ _ => some kind
  | .raw _ => none

namespace ActionKind

private theorem Decides.kind?_eq {decoded : Decoded}
    (decides : kind.Decides message context decoded) :
    decoded.kind? = some kind := by
  cases decides <;> rfl

/-- A specific kind decides what it claims while a token that it requires is lacking. -/
theorem decides_of_lookup {token : TokenKey} (specific : kind ≠ .execute)
    (claims : kind.claims message = true) (required : token ∈ kind.requiredTokens message) :
    (context.lookup token = .pending → kind.Decides message context (.pending kind token)) ∧
      ∀ reason, context.lookup token = .failed reason →
        kind.Decides message context (.unresolved kind token reason) := by
  constructor
  · intro pending
    have lacking (metadata : Token) : context.lookup token ≠ .resolved metadata := by
      simp [pending]
    have stops := stopsAt_of_required specific required lacking
    generalize same : kind.decode message context = result at stops
    cases stops with
    | pending _ => exact .pending claims same
    | failed found => rw [pending] at found; cases found
  · intro reason failed
    have lacking (metadata : Token) : context.lookup token ≠ .resolved metadata := by
      simp [failed]
    have stops := stopsAt_of_required specific required lacking
    generalize same : kind.decode message context = result at stops
    cases stops with
    | pending found => rw [failed] at found; cases found
    | failed found => rw [failed] at found; cases found; exact .unresolved claims same

/-- A call with a body that reads as a choice is a general call. -/
theorem execute_claims_of_typedCall? {α : Type} [JsonForm α] [NamedForm α] [BodiedForm α]
    {call : Message.TypedCall α} (typed : message.typedCall? = some call) :
    execute.claims message = true := by
  obtain ⟨body, rfl, read⟩ := Message.typedCall?_eq_some_iff.mp typed
  have object : body.isObject = true := Json.isObject_of_ofJson? read
  have found : Execute.call? (.execute call.contract body call.funds) =
      some ⟨call.contract, call.funds, body⟩ := Execute.call?_eq_some_iff.mpr ⟨rfl, object⟩
  exact Option.isSome_iff_exists.mpr ⟨_, found⟩

/-- Every call that a kind claims is a general call too. -/
theorem execute_claims_of_claims (claims : kind.claims message = true)
    (called : message.call?.isSome) : execute.claims message = true := by
  by_cases specific : kind = .execute
  · exact specific ▸ claims
  · cases tells_of_claims claims specific with
    | bank same => rw [same] at called; cases called
    | call typed _ _ => exact execute_claims_of_typedCall? typed
    | hook _ sent _ =>
      obtain ⟨hook, typed, _⟩ := HookedSend.ofMessage?_eq_some_iff.mp sent
      exact execute_claims_of_typedCall? typed

end ActionKind

namespace Registry

private theorem register_eq_ok_iff {registry extended : Registry} :
    registry.register kind = (extended, .ok ()) ↔
      kind ∉ registry.kinds ∧ extended.kinds = place kind registry.kinds := by
  unfold register
  split
  next present => exact iff_of_false nofun fun absent => absent.1 present
  next absent =>
    rw [and_iff_right absent]
    constructor
    · rintro ⟨⟩
      rfl
    · intro same
      cases extended
      cases same
      rfl

private theorem exists_place (kind : ActionKind) (kinds : List ActionKind) :
    ∃ before after, kinds = before ++ after ∧ place kind kinds = before ++ kind :: after := by
  induction kinds with
  | nil => exact ⟨[], [], rfl, rfl⟩
  | cons head rest ih =>
    obtain ⟨before, after, split, placed⟩ := ih
    unfold place
    by_cases less : kind.priority < head.priority
    · exact ⟨[], head :: rest, rfl, if_pos less⟩
    · exact ⟨head :: before, after, by rw [split, List.cons_append],
        by rw [if_neg less, placed, List.cons_append]⟩

/-- General calls come last. -/
theorem place_execute (kinds : List ActionKind) : place .execute kinds = kinds ++ [.execute] := by
  induction kinds with
  | nil => rfl
  | cons head rest ih =>
    have notLess := Nat.not_lt.mpr (ActionKind.priority_le_execute head)
    rw [place, if_neg notLess, ih, List.cons_append]

/-- A kind that leaves a message to the next one may as well not be in use. -/
theorem decodeWith_insert (passes : kind.Passes message context)
    (before after : List ActionKind) :
    decodeWith message context (before ++ kind :: after) =
      decodeWith message context (before ++ after) := by
  induction before with
  | nil => exact decodeWith_cons_of_passes passes after
  | cons first others ih =>
    rw [List.cons_append, List.cons_append]
    rcases first.passes_or_decides message context with firstPasses | ⟨decoded, decides⟩
    · rw [decodeWith_cons_of_passes firstPasses, decodeWith_cons_of_passes firstPasses, ih]
    · rw [decodeWith_cons_of_decides decides, decodeWith_cons_of_decides decides]

/-- A further kind changes only what no kind had or, if it is specific, what was a general call. -/
theorem decode_register {registry extended : Registry}
    (registered : registry.register kind = (extended, .ok ()))
    (changed : extended.decode message context ≠ registry.decode message context) :
    registry.decode message context = .raw message ∨
      kind ≠ .execute ∧ (registry.decode message context).kind? = some .execute := by
  obtain ⟨absent, kinds⟩ := register_eq_ok_iff.mp registered
  unfold decode at changed ⊢
  rw [kinds] at changed
  rcases decodeWith_cases message context registry.kinds with
    ⟨before, decider, after, split, earlier, decides⟩ | ⟨_, unclaimed⟩
  · by_cases general : kind = .execute
    · -- Behind the kind that decides, general calls have no say.
      subst general
      refine absurd ?_ changed
      rw [place_execute, split, List.append_assoc, List.cons_append, decodeWith_append earlier]
      exact decodeWith_cons_of_decides (split ▸ decides) _
    · by_cases decided : decider = .execute
      · exact .inr ⟨general, decided ▸ decides.kind?_eq⟩
      · have unclaimed : kind.claims message = false := by
          refine Bool.eq_false_iff.mpr fun claims => absent ?_
          rw [ActionKind.eq_of_claims claims decides.claims general decided, split]
          simp
        obtain ⟨front, back, parts, placed⟩ := exists_place kind registry.kinds
        refine absurd ?_ changed
        rw [placed, decodeWith_insert (.inl unclaimed), ← parts]
  · exact .inl unclaimed

/-- A specific kind has the say on what it claims while its token is lacking. -/
theorem decode_of_lookup {registry : Registry} (member : kind ∈ registry.kinds)
    (specific : kind ≠ .execute) (claims : kind.claims message = true) {token : TokenKey}
    (required : token ∈ kind.requiredTokens message) :
    (context.lookup token = .pending →
        registry.decode message context = .pending kind token) ∧
      ∀ reason, context.lookup token = .failed reason →
        registry.decode message context = .unresolved kind token reason := by
  have earlier (other : ActionKind) (before : other.priority < kind.priority) :
      other.Passes message context := ActionKind.passes_of_claims claims specific before
  obtain ⟨pending, failed⟩ := ActionKind.decides_of_lookup specific claims required
  constructor
  · intro found
    exact decode_of_decides member (pending found) earlier
  · intro reason found
    exact decode_of_decides member (failed reason found) earlier

/-- At most one specific kind claims a message. A further kind takes only what was raw or, if
specific, a general call. -/
theorem kinds_never_compete (message : Message) (context : Context) :
    (∀ left right : ActionKind, left ≠ .execute → right ≠ .execute →
      left.claims message = true → right.claims message = true → left = right) ∧
    (∀ kind : ActionKind, kind ≠ .execute → kind.claims message = true → message.call?.isSome →
      ActionKind.execute.claims message = true) ∧
    (∀ (registry extended : Registry) (kind : ActionKind),
      registry.register kind = (extended, .ok ()) →
      extended.decode message context ≠ registry.decode message context →
        registry.decode message context = .raw message ∨
          kind ≠ .execute ∧ (registry.decode message context).kind? = some .execute) ∧
    ∀ (registry : Registry) (kind : ActionKind), kind ∈ registry.kinds → kind ≠ .execute →
      kind.claims message = true → ∀ token ∈ kind.requiredTokens message,
        (context.lookup token = .pending →
          registry.decode message context = .pending kind token) ∧
        ∀ reason, context.lookup token = .failed reason →
          registry.decode message context = .unresolved kind token reason := by
  refine ⟨?_, ?_, ?_, ?_⟩
  · intro left right leftSpecific rightSpecific leftClaims rightClaims
    exact ActionKind.eq_of_claims leftClaims rightClaims leftSpecific rightSpecific
  · intro kind _ claims called
    exact ActionKind.execute_claims_of_claims claims called
  · intro registry extended kind registered changed
    exact decode_register registered changed
  · intro registry kind member specific claims token required
    exact decode_of_lookup member specific claims required

/-- A stake of a token that the sample context does not know. -/
def strangeStake : Message :=
  .execute "staking" (valueOf Staking.Execute.stake) [⟨"uother", ⟨5, by decide⟩⟩]

/-- Once stakes are in use, a stake of an unknown token is no general call any more; it waits for
its token. -/
theorem kinds_never_compete_strangeStake :
    ∃ general extended : Registry, general.register .stake = (extended, .ok ()) ∧
      (general.decode strangeStake .sample).kind? = some .execute ∧
      extended.decode strangeStake .sample = .pending .stake (.native "uother") := by
  let general : Registry := ⟨[.execute], by decide⟩
  let extended : Registry := ⟨[.stake, .execute], by decide⟩
  obtain ⟨_, _, register, lacking⟩ := kinds_never_compete strangeStake .sample
  have registered : general.register .stake = (extended, .ok ()) := rfl
  have waits : extended.decode strangeStake .sample = .pending .stake (.native "uother") :=
    (lacking extended .stake (by decide) (by decide) rfl _ (by decide)).1 rfl
  have called : general.decode strangeStake .sample = .pending .execute (.native "uother") := rfl
  have changed : extended.decode strangeStake .sample ≠ general.decode strangeStake .sample := by
    rw [waits, called]
    nofun
  refine ⟨general, extended, registered, ?_, waits⟩
  rcases register general extended .stake registered changed with unclaimed | ⟨_, had⟩
  · rw [called] at unclaimed
    cases unclaimed
  · exact had

end Registry

end Proposal
