import Mathlib.Tactic
import Proposal.Proofs.Decoding
import Proposal.Proofs.Registry

namespace Proposal

/-- An amount of a token in base units. -/
structure Movement where
  token : TokenKey
  amount : BaseAmount
  deriving DecidableEq, Repr

def Coin.movement (coin : Coin) : Movement := ⟨.native coin.denom, coin.amount⟩

/-- The amount that a token contract is told to take from somebody. -/
def Cw20.Execute.taken? : Cw20.Execute → Option BaseAmount
  | .transfer _ amount => some amount
  | .burn amount => some amount
  | .send _ amount _ => some amount
  | .transferFrom _ _ amount => some amount
  | .sendFrom _ _ amount _ => some amount
  | .burnFrom _ amount => some amount
  | _ => none

/-- The token of a new vesting contract. -/
def VestingContract.Denom.key : VestingContract.Denom → TokenKey
  | .native denom => .native denom
  | .cw20 address => .cw20 address

theorem VestingContract.Denom.eq_of_key {denom other : Denom} (same : denom.key = other.key) :
    denom = other := by
  cases denom <;> cases other <;> simp_all [Denom.key, TokenKey.native, TokenKey.cw20]

namespace Message

/-- The native tokens that go with a message. -/
def coins : Message → List Coin
  | .bank (.send _ coins) => coins
  | .wasm (.execute _ funds _) => funds
  | .wasm (.instantiate _ _ _ _ funds) => funds
  | .wasm (.migrate ..) => []
  | .stargate _ => []

/-- The contract tokens that a message moves. -/
def contractTokens (message : Message) : List Movement :=
  match (message.typedCall? : Option (TypedCall Cw20.Execute)) with
  | some call => call.data.taken?.toList.map fun amount => ⟨.cw20 call.contract, amount⟩
  | none => []

/-- Everything that a message moves. -/
def moved (message : Message) : List Movement :=
  message.coins.map Coin.movement ++ message.contractTokens

/-- What a message tells a vesting factory to make. -/
inductive Instantiates (message : Message) (instantiate : VestingContract.Instantiate) : Prop
  | native {factory label : String} {funds : List Coin}
      (told : message.typedCall? =
        some ⟨factory, funds, VestingContract.FactoryExecute.instantiateNative instantiate label⟩)
  | cw20 {token factory label : String} {amount : BaseAmount}
      (told : HookedSend.ofMessage? message =
        some ⟨token, factory, amount, VestingContract.FactoryHook.instantiate instantiate label⟩)

variable {message : Message}

/-- A message tells a factory one thing only. -/
theorem Instantiates.unique {instantiate other : VestingContract.Instantiate}
    (told : message.Instantiates instantiate)
    (again : message.Instantiates other) : instantiate = other := by
  cases told with
  | native told =>
    cases again with
    | native again =>
      rw [told] at again
      cases again
      rfl
    | cw20 again =>
      rw [HookedSend.ofMessage?_eq_none told (ForeignForm.verb_ne_send _)] at again
      cases again
  | cw20 told =>
    cases again with
    | native again =>
      rw [HookedSend.ofMessage?_eq_none again (ForeignForm.verb_ne_send _)] at told
      cases told
    | cw20 again =>
      rw [told] at again
      cases again
      rfl

/-- A call in other words than those of token contracts moves its coins only. -/
theorem moved_of_foreignCall? {α : Type} [JsonForm α] [NamedForm α] [ForeignForm α]
    {call : TypedCall α} (typed : message.typedCall? = some call) :
    message.moved = call.funds.map Coin.movement := by
  have foreign : (message.typedCall? : Option (TypedCall Cw20.Execute)) = none := by
    by_contra read
    obtain ⟨again, read⟩ := Option.ne_none_iff_exists'.mp read
    have same := verb_eq_of_typedCall? read typed
    exact ForeignForm.verb_notMem call.data (same ▸ again.data.verb_mem_verbs)
  obtain ⟨body, rfl, _⟩ := typedCall?_eq_some_iff.mp typed
  simp only [moved, contractTokens, foreign, List.append_nil]
  rfl

theorem moved_of_hookedSend {α : Type} [JsonForm α] {send : HookedSend α}
    (sent : HookedSend.ofMessage? message = some send) :
    message.moved = [⟨.cw20 send.token, send.amount⟩] := by
  obtain ⟨hook, typed, _⟩ := HookedSend.ofMessage?_eq_some_iff.mp sent
  obtain ⟨body, rfl, _⟩ := typedCall?_eq_some_iff.mp typed
  simp only [moved, contractTokens, typed]
  rfl

end Message

/-- The action shows what its message moves, as its own token and exact amount or as one fund for
each coin. -/
def Action.ShowsFunds (context : Context) (message : Message) : Action → Prop
  | .spend form =>
    ∃ base, message.moved = [⟨form.token, base⟩] ∧ context.Shows form.token form.amount base
  | .stake form =>
    ∃ base, message.moved = [⟨form.token, base⟩] ∧ context.Shows form.token form.amount base
  | .beginVesting form =>
    ∃ base instantiate, message.moved = [⟨form.token, base⟩] ∧
      context.Shows form.token form.amount base ∧ message.Instantiates instantiate ∧
      instantiate.total = base ∧ instantiate.denom.key = form.token
  | .execute form =>
    List.Forall₂ (fun coin fund => fund.denom = coin.denom ∧
      context.Shows (.native coin.denom) fund.amount coin.amount) message.coins form.funds
  | .cancelVesting _ => message.moved = []
  | .registerSlash _ => message.moved = []
  | .setItem _ => message.moved = []
  | .removeItem _ => message.moved = []

variable {context : Context} {message : Message}

theorem Context.Reachable.shows (reachable : context.Reachable) {key : TokenKey} {token : Token}
    {human : HumanAmount} {base : BaseAmount} (resolved : context.lookup key = .resolved token)
    (exactly : Amount.Exact human base token.decimals) : context.Shows token.key human base :=
  ⟨token, (reachable.key_of_lookup resolved).symm ▸ resolved, exactly⟩

private theorem Spend.showsFunds_of_decode {form : Spend} (reachable : context.Reachable)
    (decoded : decode message context = .ok (.matched form)) :
    (Action.spend form).ShowsFunds context message := by
  obtain ⟨payment, token, found, resolved, exactly, _, key⟩ := decode_eq_matched_iff.mp decoded
  have own := reachable.key_of_lookup resolved
  refine ⟨payment.amount, ?_, key ▸ reachable.shows resolved exactly⟩
  rw [key, own]
  rcases Payment.ofMessage?_eq_some_iff.mp found with
    ⟨coin, rfl, native, amount⟩ | ⟨contract, typed, cw20⟩
  · rw [native, amount]
    rfl
  · obtain ⟨body, rfl, _⟩ := Message.typedCall?_eq_some_iff.mp typed
    simp only [Message.moved, Message.contractTokens, typed, cw20]
    rfl

private theorem Stake.showsFunds_of_decode {form : Stake} (reachable : context.Reachable)
    (decoded : decode message context = .ok (.matched form)) :
    (Action.stake form).ShowsFunds context message := by
  obtain ⟨deposit, token, found, resolved, exactly, _, key⟩ := decode_eq_matched_iff.mp decoded
  have own := reachable.key_of_lookup resolved
  refine ⟨deposit.amount, ?_, key ▸ reachable.shows resolved exactly⟩
  rw [key, own]
  rcases Deposit.ofMessage?_eq_some_iff.mp found with
    ⟨address, sent, cw20⟩ | ⟨coin, typed, native, amount⟩
  · rw [Message.moved_of_hookedSend sent, cw20]
  · rw [Message.moved_of_foreignCall? typed, native, amount]
    rfl

theorem BeginVesting.Grant.instantiates_of_ofMessage? {grant : Grant}
    (claimed : Grant.ofMessage? message = some grant) :
    message.Instantiates grant.instantiate ∧ grant.instantiate.denom.key = grant.token := by
  rcases Grant.ofMessage?_eq_some_iff.mp claimed with
    ⟨address, factory, label, sent, denom, cw20⟩ |
    ⟨factory, label, coin, typed, _, denom, native⟩
  · exact ⟨.cw20 sent, by rw [denom, cw20]; rfl⟩
  · exact ⟨.native typed, by rw [denom, native]; rfl⟩

private theorem BeginVesting.Grant.moved_of_ofMessage? {grant : Grant}
    (claimed : Grant.ofMessage? message = some grant) :
    message.moved = [⟨grant.token, grant.instantiate.total⟩] := by
  rcases Grant.ofMessage?_eq_some_iff.mp claimed with
    ⟨address, factory, label, sent, _, cw20⟩ | ⟨factory, label, coin, typed, paid, _, native⟩
  · rw [Message.moved_of_hookedSend sent, cw20]
  · rw [Message.moved_of_foreignCall? typed, native, ← paid]
    rfl

private theorem BeginVesting.showsFunds_of_decode {form : BeginVesting}
    (reachable : context.Reachable) (decoded : decode message context = .ok (.matched form)) :
    (Action.beginVesting form).ShowsFunds context message := by
  obtain ⟨grant, token, found, resolved, shown⟩ := decode_eq_matched_iff.mp decoded
  obtain ⟨steps, amount, _, exactly, rfl⟩ := ofInstantiate_eq_matched_iff.mp shown
  have own : (formOf grant.instantiate context steps token amount).token = grant.token :=
    reachable.key_of_lookup resolved
  have shows := reachable.shows resolved exactly
  obtain ⟨told, key⟩ := Grant.instantiates_of_ofMessage? found
  have moved := Grant.moved_of_ofMessage? found
  rw [← own] at key moved
  exact ⟨grant.instantiate.total, grant.instantiate, moved, shows, told, rfl, key⟩

namespace ActionKind

/-- A form that a kind decodes is of that kind and shows the funds of the message. -/
theorem showsFunds_of_decode {kind : ActionKind} {action : Action} (reachable : context.Reachable)
    (matched : kind.decode message context = .ok (.matched action)) :
    action.kind = kind ∧ action.ShowsFunds context message := by
  have decodes := decodes_of_decode matched
  refine ⟨decodes.kind_eq, ?_⟩
  cases decodes with
  | spend decoded => exact Spend.showsFunds_of_decode reachable decoded
  | stake decoded => exact Stake.showsFunds_of_decode reachable decoded
  | beginVesting decoded => exact BeginVesting.showsFunds_of_decode reachable decoded
  | cancelVesting found =>
    exact Message.moved_of_foreignCall? (CancelVesting.ofMessage?_eq_some_iff.mp found)
  | registerSlash found =>
    exact Message.moved_of_foreignCall? (RegisterSlash.ofMessage?_eq_some_iff.mp found)
  | setItem found =>
    obtain ⟨dao, typed⟩ := SetItem.ofMessage?_eq_some_iff.mp found
    exact Message.moved_of_foreignCall? typed
  | removeItem found =>
    obtain ⟨dao, typed⟩ := RemoveItem.ofMessage?_eq_some_iff.mp found
    exact Message.moved_of_foreignCall? typed
  | execute decoded =>
    obtain ⟨coins, rfl, _, shown⟩ := Execute.decode_eq_matched_iff.mp decoded
    exact shown

end ActionKind

namespace Registry

/-- Decoding hides no funds: the assets that a message moves are exactly those that its action
shows. -/
theorem showsFunds_of_decode_matched {context : Context} {message : Message} {kind : ActionKind}
    {action : Action} (reachable : context.Reachable)
    (decoded : standard.decode message context = .matched kind action) :
    action.kind = kind ∧ action.ShowsFunds context message := by
  obtain ⟨_, _, decoded⟩ := decodeWith_eq_matched decoded
  exact ActionKind.showsFunds_of_decode reachable decoded

theorem showsFunds_of_matched_stake :
    (Action.stake ⟨"staking", .native "utoken", ⟨⟨1500000000000000000, by decide⟩⟩⟩).ShowsFunds
      .sample
      (.execute "staking" (valueOf Staking.Execute.stake) [⟨"utoken", ⟨1500000, by decide⟩⟩]) := by
  have decoded : standard.decode
      (.execute "staking" (valueOf Staking.Execute.stake) [⟨"utoken", ⟨1500000, by decide⟩⟩])
      .sample = .matched .stake
        (.stake ⟨"staking", .native "utoken", ⟨⟨1500000000000000000, by decide⟩⟩⟩) := rfl
  exact (showsFunds_of_decode_matched Context.reachable_sample decoded).2

end Registry

end Proposal
