import Mathlib.Tactic
import Proposal.Proofs.Context.Filled

/-! In a context that is filled from a chain a decoder fails for nothing but a token that could not
be resolved. -/
namespace Proposal

variable {α β : Type}

/-- The result is there, or it is missing for a token that could not be resolved. -/
inductive FailsForToken : Result α → Prop
  | ok (value : α) : FailsForToken (.ok value)
  | failed (token : TokenKey) (reason : String) : FailsForToken (.error (.tokenFailed token reason))

namespace FailsForToken

theorem map {result : Result α} (fails : FailsForToken result) (wrap : α → β) :
    FailsForToken (result.map wrap) := by
  cases fails with
  | ok value => exact .ok (wrap value)
  | failed token reason => exact .failed token reason

theorem bind {first : Result α} {next : α → Result β} (fails : FailsForToken first)
    (rest : ∀ value, FailsForToken (next value)) : FailsForToken (first >>= next) := by
  cases fails with
  | ok value => exact rest value
  | failed token reason => exact .failed token reason

theorem toHuman {decimals : Places} (within : decimals.val ≤ Amount.maxDecimals)
    (base : BaseAmount) : FailsForToken (Amount.toHuman base decimals) := by
  rw [Amount.toHuman, Amount.checkDecimals_eq_ok within]
  exact .ok _

end FailsForToken

/-- A schedule that cannot be taken apart into steps is no failure: the message is left alone. -/
theorem BeginVesting.failsForToken_ofInstantiate (instantiate : VestingContract.Instantiate)
    {token : Token} (within : token.decimals.val ≤ Amount.maxDecimals) (context : Context) :
    FailsForToken (ofInstantiate instantiate token context) := by
  unfold ofInstantiate
  split
  · exact .ok _
  · apply (FailsForToken.toHuman within instantiate.total).bind
    intro amount
    exact .ok _

namespace Context.Sound

variable {context : Context} (sound : context.Sound)
include sound

private theorem failsForToken_withTokenOf (key : TokenKey) {decode : Token → Result (Match α)}
    (goesOn : ∀ token, token.decimals.val ≤ Amount.maxDecimals → FailsForToken (decode token)) :
    FailsForToken (context.withTokenOf key decode) := by
  unfold withTokenOf
  cases found : context.lookup key with
  | resolved token =>
    exact goesOn token (sound.resolved key token (TokenCache.lookup_eq_resolved_iff.mp found)).2
  | pending => exact .ok _
  | failed reason => exact .failed key reason

/-- Any number of base units of a token can be shown. -/
theorem failsForToken_amount (key : TokenKey) (base : BaseAmount)
    (formOf : Token → HumanAmount → α) :
    FailsForToken (context.withTokenOf key fun token => do
      let amount ← Amount.toHuman base token.decimals
      return .matched (formOf token amount)) := by
  apply sound.failsForToken_withTokenOf
  intro token within
  apply (FailsForToken.toHuman within base).bind
  intro amount
  exact .ok _

private theorem failsForToken_decodeFunds (coins : List Coin) :
    FailsForToken (Execute.decodeFunds context coins) := by
  induction coins with
  | nil => exact .ok _
  | cons coin rest ih =>
    apply sound.failsForToken_withTokenOf
    intro token within
    apply (FailsForToken.toHuman within coin.amount).bind
    intro amount
    apply ih.bind
    intro funds
    exact .ok _

private theorem failsForToken_decode (kind : ActionKind) (message : Message) :
    FailsForToken (kind.decode message context) := by
  cases kind with
  | cancelVesting => exact .ok _
  | registerSlash => exact .ok _
  | setItem => exact .ok _
  | removeItem => exact .ok _
  | spend =>
    apply FailsForToken.map
    unfold Spend.decode
    split
    · exact .ok _
    · exact sound.failsForToken_amount _ _ _
  | stake =>
    apply FailsForToken.map
    unfold Stake.decode
    split
    · exact .ok _
    · exact sound.failsForToken_amount _ _ _
  | beginVesting =>
    apply FailsForToken.map
    unfold BeginVesting.decode
    split
    · exact .ok _
    next grant _ =>
      apply sound.failsForToken_withTokenOf
      intro token within
      exact BeginVesting.failsForToken_ofInstantiate grant.instantiate within context
  | execute =>
    apply FailsForToken.map
    unfold Execute.decode
    split
    · exact .ok _
    next call _ =>
      apply (sound.failsForToken_decodeFunds call.funds).bind
      intro funds
      exact .ok _

end Context.Sound

namespace ActionKind

variable {kind : ActionKind} {message : Message} {context : Context}

/-- The kind leaves a message to the next one, and it did not fail on it. -/
def Leaves (kind : ActionKind) (message : Message) (context : Context) : Prop :=
  kind.claims message = false ∨ kind.decode message context = .ok .notMatched

private theorem Passes.leaves (passes : kind.Passes message context) (sound : context.Sound) :
    kind.Leaves message context := by
  rcases passes with unclaimed | notMatched | ⟨error, failed, other⟩
  · exact .inl unclaimed
  · exact .inr notMatched
  · have fails := sound.failsForToken_decode kind message
    rw [failed] at fails
    cases fails with
    | failed token reason => exact absurd rfl (other token reason)

/-- A kind decodes a message or names a token that the message requires and that failed. -/
theorem decode_ok_or_failed (sound : context.Sound) (kind : ActionKind) (message : Message) :
    (∃ found, kind.decode message context = .ok found) ∨
      ∃ token ∈ kind.requiredTokens message, ∃ reason, context.lookup token = .failed reason ∧
        kind.decode message context = .error (.tokenFailed token reason) := by
  have fails := sound.failsForToken_decode kind message
  generalize decoded : kind.decode message context = result at fails
  cases fails with
  | ok found => exact .inl ⟨found, rfl⟩
  | failed token reason =>
    obtain ⟨required, failed⟩ := lookup_of_decode_failed decoded
    exact .inr ⟨token, required, reason, failed, rfl⟩

end ActionKind

namespace Context

/-- In a context filled from its chain a decoder fails only for a required token that failed to
resolve. -/
theorem Filled.decoders_fail_for_tokens {context : Context} (filled : context.Filled) :
    (∀ key token, context.tokens.state? key = some (.resolved token) →
      token.key = key ∧ token.decimals.val ≤ Amount.maxDecimals) ∧
    (∀ (kind : ActionKind) (message : Message),
      (∃ found, kind.decode message context = .ok found) ∨
        ∃ token ∈ kind.requiredTokens message, ∃ reason, context.lookup token = .failed reason ∧
          kind.decode message context = .error (.tokenFailed token reason)) ∧
    ∀ (registry : Registry) (message : Message),
      (∃ before kind after, registry.kinds = before ++ kind :: after ∧
        (∀ other ∈ before, other.Leaves message context) ∧
        kind.Decides message context (registry.decode message context)) ∨
      (∀ kind ∈ registry.kinds, kind.Leaves message context) ∧
        registry.decode message context = .raw message := by
  have sound := filled.sound
  refine ⟨sound.resolved, ActionKind.decode_ok_or_failed sound, ?_⟩
  intro registry message
  rcases Registry.decodeWith_cases message context registry.kinds with
    ⟨before, kind, after, split, earlier, decides⟩ | ⟨all, unclaimed⟩
  · exact .inl ⟨before, kind, after, split,
      fun other member => (earlier other member).leaves sound, decides⟩
  · exact .inr ⟨fun kind member => (all kind member).leaves sound, unclaimed⟩

/-- A chain with a token of the largest precision allowed, one of a larger precision, and one
unreadable answer. -/
def oddChain : Connection :=
  .ofTable "chain"
    [("fine", ⟨some (.payload (payloadOf
        (⟨"Fine", "FINE", ⟨18, by decide⟩, .zero⟩ : Cw20.TokenInfo))), none, none⟩),
      ("finer", ⟨some (.payload (payloadOf
        (⟨"Finer", "FINER", ⟨19, by decide⟩, .zero⟩ : Cw20.TokenInfo))), none, none⟩),
      ("garbled", ⟨some (.payload (.ofText "decimals: 6")), none, none⟩)]
    fun _ _ => "cw20::query::TokenInfoResponse: Invalid type"

/-- Of the tokens of that chain only the fine one is resolved, and the largest amount of it is
shown. -/
theorem decoders_fail_for_tokens_oddChain :
    ∃ context : Context, context.Filled ∧
      context.lookup (.cw20 "finer") = .failed "Token decimals must be at most 18, got 19" ∧
      context.lookup (.cw20 "garbled") =
        .failed "Error parsing into type cw20::query::TokenInfoResponse: Invalid type" ∧
      ∃ fine, context.lookup (.cw20 "fine") = .resolved fine ∧ fine.key = .cw20 "fine" ∧
        fine.decimals.val ≤ Amount.maxDecimals ∧
        ∃ found, ActionKind.spend.decode
          (.execute "fine" (valueOf (Cw20.Execute.transfer "alice" .max)) []) context =
            .ok found := by
  let start : Context := { sample with vestingFactory := none }
  let querier : Querier := ⟨oddChain.token sampleConfig, oddChain.vestingFactory⟩
  have made : Context.new sampleConfig sample.dao sample.now = .ok start := rfl
  have connected : oddChain.querier start.config = .ok querier := rfl
  let context := start.resolveTokens querier [.cw20 "garbled", .cw20 "fine", .cw20 "finer"]
  have filled : context.Filled := (Filled.new made).resolveTokens connected _
  have resolved : context.lookup (.cw20 "fine") =
      .resolved ⟨.cw20, "fine", ⟨18, by decide⟩, "FINE"⟩ := by decide +kernel
  obtain ⟨kept, decodes, _⟩ := filled.decoders_fail_for_tokens
  obtain ⟨own, within⟩ := kept _ _ (TokenCache.lookup_eq_resolved_iff.mp resolved)
  refine ⟨context, filled, by decide +kernel, by decide +kernel, _, resolved, own, within, ?_⟩
  rcases decodes .spend (.execute "fine" (valueOf (Cw20.Execute.transfer "alice" .max)) []) with
    decoded | ⟨token, required, reason, failed, _⟩
  · exact decoded
  · have same : token = .cw20 "fine" := List.mem_singleton.mp required
    rw [same, resolved] at failed
    cases failed

end Context

end Proposal
