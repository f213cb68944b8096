import Mathlib.Tactic
import Proposal.Proofs.Decoding

namespace Proposal

variable {α β : Type} {context : Context} {message : Message} {key : TokenKey}

/-- Decoding came to its end: no token that is not resolved was in its way. -/
def Settled : Result (Match α) → Prop
  | .ok (.pending _) => False
  | .ok _ => True
  | .error error => ∀ token reason, error ≠ .tokenFailed token reason

theorem Settled.map {result : Result (Match α)} (settled : Settled result) (wrap : α → β) :
    Settled (result.map (·.map wrap)) := by
  cases result with
  | ok found =>
    cases found with
    | matched form => trivial
    | notMatched => trivial
    | pending token => exact settled.elim
  | error error => exact settled

/-- Base units are shown as a human amount, or refused, without a further token. -/
theorem settled_toHuman (base : BaseAmount) (decimals : Places) (formOf : HumanAmount → α) :
    Settled (do
      let amount ← Amount.toHuman base decimals
      return .matched (formOf amount)) := by
  by_cases within : decimals.val ≤ Amount.maxDecimals
  · rw [Amount.toHuman, Amount.checkDecimals_eq_ok within]
    trivial
  · rw [Amount.toHuman, Amount.checkDecimals_eq_error within]
    intro token reason same
    cases same

/-- Decoding stops at a token that the context has not resolved. -/
inductive Context.StopsAt (context : Context) (key : TokenKey) : Result (Match α) → Prop
  | pending (found : context.lookup key = .pending) : StopsAt context key (.ok (.pending key))
  | failed {reason : String} (found : context.lookup key = .failed reason) :
      StopsAt context key (.error (.tokenFailed key reason))

namespace Context

theorem StopsAt.map {result : Result (Match α)} (stops : context.StopsAt key result)
    (wrap : α → β) : context.StopsAt key (result.map (·.map wrap)) := by
  cases stops with
  | pending found => exact .pending found
  | failed found => exact .failed found

theorem stopsAt_withTokenOf (lacking : ∀ token, context.lookup key ≠ .resolved token)
    (decode : Token → Result (Match α)) :
    context.StopsAt key (context.withTokenOf key decode) := by
  unfold withTokenOf
  cases found : context.lookup key with
  | resolved token => exact absurd found (lacking token)
  | pending => exact .pending found
  | failed reason => exact .failed found

/-- What comes of a token: decoding stops at it, or goes on with its metadata. -/
theorem withTokenOf_cases (context : Context) (key : TokenKey)
    (decode : Token → Result (Match α)) :
    context.StopsAt key (context.withTokenOf key decode) ∨
      ∃ token, context.lookup key = .resolved token ∧
        context.withTokenOf key decode = decode token := by
  by_cases resolved : ∃ token, context.lookup key = .resolved token
  · obtain ⟨token, found⟩ := resolved
    exact .inr ⟨token, found, by rw [withTokenOf, found]⟩
  · exact .inl (stopsAt_withTokenOf (not_exists.mp resolved) decode)

/-- Decoding waits for none but the given tokens: it stops at one of them, or comes to its end. -/
def WaitsFor (context : Context) (keys : List TokenKey) (result : Result (Match α)) : Prop :=
  (∃ key ∈ keys, context.StopsAt key result) ∨ Settled result

theorem WaitsFor.map {keys : List TokenKey} {result : Result (Match α)}
    (waits : context.WaitsFor keys result) (wrap : α → β) :
    context.WaitsFor keys (result.map (·.map wrap)) := by
  rcases waits with ⟨key, required, stops⟩ | settled
  · exact .inl ⟨key, required, stops.map wrap⟩
  · exact .inr (settled.map wrap)

private theorem waitsFor_withTokenOf {decode : Token → Result (Match α)}
    (settled : ∀ token, Settled (decode token)) :
    context.WaitsFor [key] (context.withTokenOf key decode) := by
  rcases context.withTokenOf_cases key decode with stops | ⟨token, _, goesOn⟩
  · exact .inl ⟨key, List.mem_singleton_self key, stops⟩
  · rw [goesOn]
    exact .inr (settled token)

end Context

private theorem BeginVesting.settled_ofInstantiate (instantiate : VestingContract.Instantiate)
    (token : Token) (context : Context) : Settled (ofInstantiate instantiate token context) := by
  unfold ofInstantiate
  split
  · trivial
  · exact settled_toHuman _ _ _

private theorem Execute.waitsFor_decodeFunds (context : Context) (coins : List Coin) :
    context.WaitsFor (coins.map fun coin => .native coin.denom) (decodeFunds context coins) := by
  induction coins with
  | nil => exact .inr trivial
  | cons coin rest ih =>
    rw [decodeFunds, List.map_cons]
    rcases context.withTokenOf_cases (.native coin.denom) _ with stops | ⟨token, _, goesOn⟩
    · exact .inl ⟨_, List.mem_cons_self, stops⟩
    · rw [goesOn]
      by_cases within : token.decimals.val ≤ Amount.maxDecimals
      · rw [Amount.toHuman, Amount.checkDecimals_eq_ok within]
        rcases ih with ⟨key, member, stops⟩ | settled
        · exact .inl ⟨key, List.mem_cons_of_mem _ member, stops.map _⟩
        · exact .inr (settled.map _)
      · rw [Amount.toHuman, Amount.checkDecimals_eq_error within]
        right
        intro token reason same
        cases same

namespace ActionKind

variable {kind : ActionKind}

private theorem settled_matchOf (found : Option α) : Settled (.ok (matchOf found)) := by
  cases found <;> trivial

/-- A kind waits for none but the tokens that it requires. -/
theorem waitsFor_requiredTokens (kind : ActionKind) (message : Message) (context : Context) :
    context.WaitsFor (kind.requiredTokens message) (kind.decode message context) := by
  cases kind with
  | cancelVesting => exact .inr ((settled_matchOf _).map _)
  | registerSlash => exact .inr ((settled_matchOf _).map _)
  | setItem => exact .inr ((settled_matchOf _).map _)
  | removeItem => exact .inr ((settled_matchOf _).map _)
  | spend =>
    refine Context.WaitsFor.map ?_ _
    unfold requiredTokens Spend.decode
    cases Spend.Payment.ofMessage? message with
    | none => exact .inr trivial
    | some payment => exact Context.waitsFor_withTokenOf fun token => settled_toHuman _ _ _
  | stake =>
    refine Context.WaitsFor.map ?_ _
    unfold requiredTokens Stake.decode
    cases Stake.Deposit.ofMessage? message with
    | none => exact .inr trivial
    | some deposit => exact Context.waitsFor_withTokenOf fun token => settled_toHuman _ _ _
  | beginVesting =>
    refine Context.WaitsFor.map ?_ _
    unfold requiredTokens BeginVesting.decode
    cases BeginVesting.Grant.ofMessage? message with
    | none => exact .inr trivial
    | some grant =>
      exact Context.waitsFor_withTokenOf fun token => BeginVesting.settled_ofInstantiate _ _ _
  | execute =>
    refine Context.WaitsFor.map ?_ _
    unfold requiredTokens Execute.decode
    cases Execute.call? message with
    | none => exact .inr trivial
    | some call => exact (Execute.waitsFor_decodeFunds context call.funds).map _

/-- A specific kind stops at a token that it requires as long as the token is not resolved. -/
theorem stopsAt_of_required (specific : kind ≠ .execute)
    (required : key ∈ kind.requiredTokens message)
    (lacking : ∀ token, context.lookup key ≠ .resolved token) :
    context.StopsAt key (kind.decode message context) := by
  cases kind with
  | execute => exact absurd rfl specific
  | spend =>
    simp only [requiredTokens, List.mem_map, Option.mem_toList] at required
    obtain ⟨payment, found, rfl⟩ := required
    simp only [decode, Spend.decode, found]
    exact (Context.stopsAt_withTokenOf lacking _).map _
  | stake =>
    simp only [requiredTokens, List.mem_map, Option.mem_toList] at required
    obtain ⟨deposit, found, rfl⟩ := required
    simp only [decode, Stake.decode, found]
    exact (Context.stopsAt_withTokenOf lacking _).map _
  | beginVesting =>
    simp only [requiredTokens, List.mem_map, Option.mem_toList] at required
    obtain ⟨grant, found, rfl⟩ := required
    simp only [decode, BeginVesting.decode, found]
    exact (Context.stopsAt_withTokenOf lacking _).map _
  | _ => cases required

theorem lookup_of_decode_pending {token : TokenKey}
    (decoded : kind.decode message context = .ok (.pending token)) :
    token ∈ kind.requiredTokens message ∧ context.lookup token = .pending := by
  have waits := kind.waitsFor_requiredTokens message context
  rw [decoded] at waits
  rcases waits with ⟨key, required, stops⟩ | settled
  · cases stops with
    | pending found => exact ⟨required, found⟩
  · exact settled.elim

theorem lookup_of_decode_failed {token : TokenKey} {reason : String}
    (decoded : kind.decode message context = .error (.tokenFailed token reason)) :
    token ∈ kind.requiredTokens message ∧ context.lookup token = .failed reason := by
  have waits := kind.waitsFor_requiredTokens message context
  rw [decoded] at waits
  rcases waits with ⟨key, required, stops⟩ | settled
  · cases stops with
    | failed found => exact ⟨required, found⟩
  · exact absurd rfl (settled token reason)

end ActionKind

end Proposal
