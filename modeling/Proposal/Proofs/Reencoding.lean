import Mathlib.Tactic
import Proposal.Proofs.RoundTrip

/-! Messages of the chain are written in many ways. The form of a message keeps what it says, not
how it is spelled. -/
namespace Proposal

namespace Message

/-- Two calls of one contract with the same funds, which tell it the same. -/
def SameCall (α : Type) [JsonForm α] (message other : Message) : Prop :=
  ∃ call : TypedCall α, message.typedCall? = some call ∧ other.typedCall? = some call

/-- Two sends of the same contract tokens to one contract, with hooks that say the same. -/
def SameSend (α : Type) [JsonForm α] (message other : Message) : Prop :=
  ∃ token contract amount payload otherPayload, ∃ hook : α,
    message.typedCall? = some ⟨token, [], Cw20.Execute.send contract amount payload⟩ ∧
    other.typedCall? = some ⟨token, [], Cw20.Execute.send contract amount otherPayload⟩ ∧
    ofPayload? payload = some hook ∧ ofPayload? otherPayload = some hook

variable {α : Type} [JsonForm α] [LawfulForm α] {message : Message}

private theorem sameCall_execute {contract : String} {funds : List Coin} {data : α}
    (typed : message.typedCall? = some ⟨contract, funds, data⟩) :
    message.SameCall α (.execute contract (valueOf data) funds) :=
  ⟨_, typed, typedCall?_execute contract data funds⟩

private theorem sameSend_message {bound : Nat} [BoundedForm α bound] (within : bound ≤ 127)
    (whole : JsonForm.extent α = .all) {send : HookedSend α}
    (sent : HookedSend.ofMessage? message = some send) : message.SameSend α send.message := by
  obtain ⟨payload, typed, read⟩ := HookedSend.ofMessage?_eq_some_iff.mp sent
  have again := typedCall?_execute send.token
    (Cw20.Execute.send send.contract send.amount (payloadOf send.hook)) []
  have readAgain := ofPayload?_payloadOf within whole send.hook
  exact ⟨_, _, _, payload, _, send.hook, typed, again, read, readAgain⟩

end Message

/-- What a message is once its action is encoded again: the same, or one that tells the contract the
same. -/
inductive Action.Restores (message restored : Message) : Action → Prop
  | nativeSpend {form : Spend} (native : form.token.type = .native) (same : restored = message) :
      Restores message restored (.spend form)
  | cw20Spend {form : Spend} (cw20 : form.token.type = .cw20)
      (same : message.SameCall Cw20.Execute restored) : Restores message restored (.spend form)
  | nativeStake {form : Stake} (native : form.token.type = .native) (same : restored = message) :
      Restores message restored (.stake form)
  | cw20Stake {form : Stake} (cw20 : form.token.type = .cw20)
      (same : message.SameSend Staking.Hook restored) : Restores message restored (.stake form)
  | cancelVesting {form : CancelVesting} (same : restored = message) :
      Restores message restored (.cancelVesting form)
  | registerSlash {form : RegisterSlash}
      (same : message.SameCall VestingContract.Execute restored) :
      Restores message restored (.registerSlash form)
  | setItem {form : SetItem} (same : restored = message) :
      Restores message restored (.setItem form)
  | removeItem {form : RemoveItem} (same : restored = message) :
      Restores message restored (.removeItem form)
  | execute {form : Execute} (same : restored = message) :
      Restores message restored (.execute form)

variable {context : Context} {message restored : Message}

namespace Context

variable {key : TokenKey} {token : Token} {human : HumanAmount} {base : BaseAmount}

/-- The amount that is shown of a token is scaled back to the base units that it was shown for. -/
theorem Reachable.scaled_back (reachable : context.Reachable)
    (resolved : context.lookup key = .resolved token)
    (exactly : Amount.Exact human base token.decimals) {found : Token} {scaled : BaseAmount}
    (resolvedAgain : context.lookup token.key = .resolved found)
    (exactlyAgain : Amount.Exact human scaled found.decimals) :
    token.key = key ∧ found = token ∧ scaled = base := by
  have own : token.key = key := reachable.key_of_lookup resolved
  rw [own, resolved] at resolvedAgain
  cases resolvedAgain
  exact ⟨own, rfl, exactlyAgain.base_unique exactly⟩

end Context

private theorem Spend.restores {form : Spend} (reachable : context.Reachable)
    (decoded : decode message context = .ok (.matched form))
    (made : form.encode context = .ok restored) :
    (Action.spend form).Restores message restored := by
  obtain ⟨payment, token, claimed, resolved, exactly, recipient, key⟩ :=
    decode_eq_matched_iff.mp decoded
  obtain ⟨_, found, scaled, resolvedAgain, exactlyAgain, rfl⟩ := encode_eq_ok_iff.mp made
  rw [key] at resolvedAgain
  obtain ⟨own, rfl, rfl⟩ :=
    reachable.scaled_back resolved exactly resolvedAgain exactlyAgain
  obtain ⟨type, name, decimals, symbol⟩ := found
  rcases Payment.ofMessage?_eq_some_iff.mp claimed with
    ⟨coin, rfl, native, amount⟩ | ⟨contract, typed, cw20⟩
  · obtain ⟨rfl, rfl⟩ : type = .native ∧ name = coin.denom := by
      simpa [Token.key, TokenKey.native] using own.trans native
    apply Action.Restores.nativeSpend (by rw [key]; rfl)
    rw [messageOf, recipient, amount]
  · obtain ⟨rfl, rfl⟩ : type = .cw20 ∧ name = contract := by
      simpa [Token.key, TokenKey.cw20] using own.trans cw20
    apply Action.Restores.cw20Spend (by rw [key]; rfl)
    rw [messageOf, recipient]
    exact Message.sameCall_execute typed

private theorem Stake.restores {form : Stake} (reachable : context.Reachable)
    (decoded : decode message context = .ok (.matched form))
    (made : form.encode context = .ok restored) :
    (Action.stake form).Restores message restored := by
  obtain ⟨deposit, token, claimed, resolved, exactly, contract, key⟩ :=
    decode_eq_matched_iff.mp decoded
  obtain ⟨_, found, scaled, resolvedAgain, exactlyAgain, rfl⟩ := encode_eq_ok_iff.mp made
  rw [key] at resolvedAgain
  obtain ⟨own, rfl, rfl⟩ :=
    reachable.scaled_back resolved exactly resolvedAgain exactlyAgain
  obtain ⟨type, name, decimals, symbol⟩ := found
  rcases Deposit.ofMessage?_eq_some_iff.mp claimed with
    ⟨address, sent, cw20⟩ | ⟨coin, typed, native, amount⟩
  · obtain ⟨rfl, rfl⟩ : type = .cw20 ∧ name = address := by
      simpa [Token.key, TokenKey.cw20] using own.trans cw20
    apply Action.Restores.cw20Stake (by rw [key]; rfl)
    rw [messageOf, contract]
    exact Message.sameSend_message (by decide) rfl sent
  · obtain ⟨rfl, rfl⟩ : type = .native ∧ name = coin.denom := by
      simpa [Token.key, TokenKey.native] using own.trans native
    apply Action.Restores.nativeStake (by rw [key]; rfl)
    obtain ⟨body, rfl, read⟩ := Message.typedCall?_eq_some_iff.mp typed
    rw [messageOf, contract, amount, Staking.Execute.eq_valueOf read]

private theorem CancelVesting.restores {form : CancelVesting}
    (claimed : ofMessage? message = some form) (made : form.encode = .ok restored) :
    (Action.cancelVesting form).Restores message restored := by
  obtain ⟨_, rfl⟩ := encode_eq_ok_iff.mp made
  have typed := ofMessage?_eq_some_iff.mp claimed
  obtain ⟨body, rfl, read⟩ := Message.typedCall?_eq_some_iff.mp typed
  apply Action.Restores.cancelVesting
  rw [messageOf, VestingContract.Execute.eq_valueOf_cancel read]

private theorem RegisterSlash.restores {form : RegisterSlash}
    (claimed : ofMessage? message = some form) (made : form.encode context = .ok restored) :
    (Action.registerSlash form).Restores message restored := by
  obtain ⟨_, rfl⟩ := encode_eq_ok_iff.mp made
  have typed := ofMessage?_eq_some_iff.mp claimed
  exact .registerSlash (Message.sameCall_execute typed)

/-- A message to the core contract of the DAO is the one that is made of what it tells. -/
theorem DaoCore.Execute.eq_execute {told : DaoCore.Execute} {contract dao : String}
    (typed : message.typedCall? = some ⟨contract, [], told⟩)
    (own : ∃ body funds, message = .execute dao body funds) :
    .execute dao (valueOf told) [] = message := by
  obtain ⟨body, rfl, read⟩ := Message.typedCall?_eq_some_iff.mp typed
  obtain ⟨_, _, same⟩ := own
  simp only [Message.execute, Message.wasm.injEq, WasmMessage.execute.injEq] at same
  rw [DaoCore.Execute.eq_valueOf read, same.1]

private theorem SetItem.restores {form : SetItem} (claimed : ofMessage? message = some form)
    (own : ∃ body funds, message = .execute context.dao body funds)
    (made : form.encode context = .ok restored) :
    (Action.setItem form).Restores message restored := by
  obtain ⟨_, rfl⟩ := encode_eq_ok_iff.mp made
  obtain ⟨contract, typed⟩ := ofMessage?_eq_some_iff.mp claimed
  exact .setItem (DaoCore.Execute.eq_execute typed own)

private theorem RemoveItem.restores {form : RemoveItem} (claimed : ofMessage? message = some form)
    (own : ∃ body funds, message = .execute context.dao body funds)
    (made : form.encode context = .ok restored) :
    (Action.removeItem form).Restores message restored := by
  obtain ⟨_, rfl⟩ := encode_eq_ok_iff.mp made
  obtain ⟨contract, typed⟩ := ofMessage?_eq_some_iff.mp claimed
  exact .removeItem (DaoCore.Execute.eq_execute typed own)

namespace Execute

/-- A fund is shown of one coin only. -/
theorem leftUnique_shown (context : Context) : Relator.LeftUnique (Shown context) := by
  intro coin other fund shown again
  obtain ⟨name, amount⟩ := coin
  obtain ⟨otherName, otherAmount⟩ := other
  obtain ⟨denom, token, resolved, exactly⟩ := shown
  obtain ⟨otherDenom, otherToken, resolvedAgain, exactlyAgain⟩ := again
  obtain rfl : name = otherName := denom.symm.trans otherDenom
  rw [resolved] at resolvedAgain
  cases resolvedAgain
  exact congrArg (Coin.mk name) (exactly.base_unique exactlyAgain)

private theorem restores {form : Execute} (reachable : context.Reachable)
    (decoded : decode message context = .ok (.matched form))
    (made : form.encode context = .ok restored) :
    (Action.execute form).Restores message restored := by
  obtain ⟨coins, rfl, _, shown⟩ := decode_eq_matched_iff.mp decoded
  obtain ⟨_, paid, pays, rfl⟩ := encode_eq_ok_iff.mp made
  have shownAgain : List.Forall₂ (Shown context) paid form.funds :=
    (pays.imp fun _ _ pays => pays.shown reachable).flip
  have same : paid = coins := (leftUnique_shown context).forall₂ shownAgain shown
  exact .execute (by rw [same])

end Execute

/-- A form that a kind decodes and encodes again restores its message. -/
theorem ActionKind.restores_of_encode {kind : ActionKind} {action : Action}
    (reachable : context.Reachable)
    (matched : kind.decode message context = .ok (.matched action))
    (made : kind.encode action context = .ok restored) (notVesting : kind ≠ .beginVesting)
    (own : kind = .setItem ∨ kind = .removeItem →
      ∃ body funds, message = .execute context.dao body funds) :
    action.Restores message restored := by
  cases decodes_of_decode matched with
  | spend decoded => exact Spend.restores reachable decoded made
  | stake decoded => exact Stake.restores reachable decoded made
  | beginVesting _ => exact absurd rfl notVesting
  | cancelVesting found => exact CancelVesting.restores found made
  | registerSlash found => exact RegisterSlash.restores found made
  | setItem found => exact SetItem.restores found (own (.inl rfl)) made
  | removeItem found => exact RemoveItem.restores found (own (.inr rfl)) made
  | execute decoded => exact Execute.restores reachable decoded made

namespace Registry

/-- Decoding is a right inverse of encoding, up to the spelling of payloads; messages about items go
to the DAO itself. -/
theorem restores_of_encode_decoded {context : Context} {message restored : Message}
    {kind : ActionKind} {action : Action} (reachable : context.Reachable)
    (decoded : standard.decode message context = .matched kind action)
    (made : standard.encode action context = .ok restored) (notVesting : kind ≠ .beginVesting)
    (own : kind = .setItem ∨ kind = .removeItem →
      ∃ body funds, message = .execute context.dao body funds) :
    action.kind = kind ∧ action.Restores message restored := by
  obtain ⟨_, _, matched⟩ := decodeWith_eq_matched decoded
  have same : action.kind = kind := (ActionKind.decodes_of_decode matched).kind_eq
  rw [encode_standard, same] at made
  exact ⟨same, ActionKind.restores_of_encode reachable matched made notVesting own⟩

/-- A slash whose amount has zeros in front and whose time has a sign. -/
def spelledSlash : Message :=
  .execute "vesting" (.ofJson (.obj [("register_slash", .obj [("validator", .str "validator"),
    ("time", .str "+1600000000000000000"), ("amount", .str "007"),
    ("during_unbonding", .bool true)])])) []

/-- The same slash as it is written by the encoder. -/
def plainSlash : Message :=
  .execute "vesting" (valueOf (VestingContract.Execute.registerSlash "validator"
    ⟨⟨1600000000000000000, by decide⟩⟩ ⟨7, by decide⟩ true)) []

def mottoItem : Message :=
  .execute "dao" (valueOf (DaoCore.Execute.setItem "motto" "onward")) []

theorem restores_of_encode_decoded_slash_and_item :
    spelledSlash.SameCall VestingContract.Execute plainSlash ∧
      (Action.setItem ⟨"motto", "onward"⟩).Restores mottoItem mottoItem := by
  have slash : standard.decode spelledSlash .sample = .matched .registerSlash
    (.registerSlash ⟨"vesting", "validator", ⟨⟨1600000000000000000, by decide⟩⟩, ⟨7, by decide⟩,
      true⟩) := rfl
  have slashMade : standard.encode (.registerSlash ⟨"vesting", "validator",
    ⟨⟨1600000000000000000, by decide⟩⟩, ⟨7, by decide⟩, true⟩) .sample = .ok plainSlash := rfl
  have item : standard.decode mottoItem .sample =
    .matched .setItem (.setItem ⟨"motto", "onward"⟩) := rfl
  have itemMade : standard.encode (.setItem ⟨"motto", "onward"⟩) .sample = .ok mottoItem := rfl
  refine ⟨?_, (restores_of_encode_decoded Context.reachable_sample item itemMade nofun
    fun _ => ⟨_, _, rfl⟩).2⟩
  have restores :=
    (restores_of_encode_decoded Context.reachable_sample slash slashMade nofun nofun).2
  cases restores with
  | registerSlash same => exact same

end Registry

end Proposal
