import Mathlib.Tactic
import Proposal.Message.Chain
import Proposal.Proofs.Claim
import Proposal.Proofs.Contract
import Proposal.Proofs.Encoding
import Proposal.Proofs.Registry

namespace Proposal

namespace Message

variable {α : Type} [JsonForm α] {message : Message} {contract : String} {funds : List Coin}
  {data : α}

/-- A message is a call with these coins, and the contract at this address reads this data off the
bytes that the chain carries to it. -/
structure Reaches (message : Message) (contract : String) (funds : List Coin) (data : α) :
    Prop where
  built : message = .execute contract (valueOf data) funds
  delivered : ∃ payload,
    (∀ complaint, ChainMessage.ofMessage complaint message =
      .ok (.execute contract payload funds)) ∧
    ofPayload? payload = some data

/-- A token contract is told to send tokens along with a hook, and the receiver reads the hook off
the bytes passed on. -/
structure ReachesAsHook (message : Message) (send : HookedSend α) : Prop where
  sent : message.Reaches send.token []
    (Cw20.Execute.send send.contract send.amount (payloadOf send.hook))
  hooked : ofPayload? (payloadOf send.hook) = some send.hook

private theorem reaches_execute [LawfulForm α] {bound : Nat} [BoundedForm α bound]
    (within : bound ≤ 127) (whole : JsonForm.extent α = .all) :
    (execute contract (valueOf data) funds).Reaches contract funds data where
  built := rfl
  delivered := ⟨(valueOf data).payload, fun _ => rfl, ofPayload?_valueOf within whole data⟩

private theorem reachesAsHook_message [LawfulForm α] {bound : Nat} [BoundedForm α bound]
    (within : bound ≤ 127) (whole : JsonForm.extent α = .all) {send : HookedSend α} :
    send.message.ReachesAsHook send where
  sent := reaches_execute (by decide) rfl
  hooked := ofPayload?_payloadOf within whole send.hook

end Message

namespace Context

/-- An amount of a token is exactly so many base units of the token that the context knows. -/
structure Scales (context : Context) (key : TokenKey) (amount : HumanAmount) (token : Token)
    (base : BaseAmount) : Prop where
  resolved : context.lookup key = .resolved token
  exactly : Amount.Exact amount base token.decimals

/-- What a call of each kind tells which contract, and the coins that go with it. -/
inductive Instructs (context : Context) : Action → Message → Prop
  | transfer {form : Spend} {message : Message} {token : Token} {base : BaseAmount}
      (scales : context.Scales form.token form.amount token base) (type : token.type = .cw20)
      (told : message.Reaches token.name [] (Cw20.Execute.transfer form.recipient base)) :
      Instructs context (.spend form) message
  | stakeNative {form : Stake} {message : Message} {token : Token} {base : BaseAmount}
      (scales : context.Scales form.token form.amount token base) (type : token.type = .native)
      (told : message.Reaches form.contract [⟨token.name, base⟩] Staking.Execute.stake) :
      Instructs context (.stake form) message
  | stakeCw20 {form : Stake} {message : Message} {token : Token} {base : BaseAmount}
      (scales : context.Scales form.token form.amount token base) (type : token.type = .cw20)
      (told : message.ReachesAsHook ⟨token.name, form.contract, base, Staking.Hook.stake⟩) :
      Instructs context (.stake form) message
  | vestNative {form : BeginVesting} {message : Message} {factory : String} {token : Token}
      {base : BaseAmount} {instantiate : VestingContract.Instantiate}
      (known : context.vestingFactory = some factory)
      (scales : context.Scales form.token form.amount token base) (type : token.type = .native)
      (terms : form.instantiate context token base = .ok instantiate)
      (told : message.Reaches factory [⟨token.name, base⟩]
        (VestingContract.FactoryExecute.instantiateNative instantiate form.label)) :
      Instructs context (.beginVesting form) message
  | vestCw20 {form : BeginVesting} {message : Message} {factory : String} {token : Token}
      {base : BaseAmount} {instantiate : VestingContract.Instantiate}
      (known : context.vestingFactory = some factory)
      (scales : context.Scales form.token form.amount token base) (type : token.type = .cw20)
      (terms : form.instantiate context token base = .ok instantiate)
      (told : message.ReachesAsHook ⟨token.name, factory, base,
        VestingContract.FactoryHook.instantiate instantiate form.label⟩) :
      Instructs context (.beginVesting form) message
  | cancelVesting {form : CancelVesting} {message : Message}
      (told : message.Reaches form.contract [] VestingContract.Execute.cancel) :
      Instructs context (.cancelVesting form) message
  | registerSlash {form : RegisterSlash} {message : Message}
      (told : message.Reaches form.contract []
        (VestingContract.Execute.registerSlash form.validator form.time form.amount
          form.duringUnbonding)) :
      Instructs context (.registerSlash form) message
  | setItem {form : SetItem} {message : Message}
      (told : message.Reaches context.dao [] (DaoCore.Execute.setItem form.key form.value)) :
      Instructs context (.setItem form) message
  | removeItem {form : RemoveItem} {message : Message}
      (told : message.Reaches context.dao [] (DaoCore.Execute.removeItem form.key)) :
      Instructs context (.removeItem form) message

variable {context : Context} {message : Message} {token : Token} {base : BaseAmount}

private theorem Scales.instructs_spend {form : Spend}
    (scales : context.Scales form.token form.amount token base)
    (calls : (form.messageOf token base).call?.isSome) :
    context.Instructs (.spend form) (form.messageOf token base) := by
  obtain ⟨type, name, decimals, symbol⟩ := token
  cases type with
  | native => cases calls
  | cw20 => exact .transfer scales rfl (Message.reaches_execute (by decide) rfl)

private theorem Scales.instructs_stake {form : Stake}
    (scales : context.Scales form.token form.amount token base) :
    context.Instructs (.stake form) (form.messageOf token base) := by
  obtain ⟨type, name, decimals, symbol⟩ := token
  cases type with
  | native => exact .stakeNative scales rfl (Message.reaches_execute (by decide) rfl)
  | cw20 => exact .stakeCw20 scales rfl (Message.reachesAsHook_message (by decide) rfl)

private theorem Scales.instructs_beginVesting {form : BeginVesting} {factory : String}
    {instantiate : VestingContract.Instantiate}
    (scales : context.Scales form.token form.amount token base)
    (known : context.vestingFactory = some factory)
    (terms : form.instantiate context token base = .ok instantiate) :
    context.Instructs (.beginVesting form)
      (form.messageOf factory token base instantiate) := by
  obtain ⟨type, name, decimals, symbol⟩ := token
  cases type with
  | native =>
    exact .vestNative known scales rfl terms (Message.reaches_execute (by decide) rfl)
  | cw20 =>
    exact .vestCw20 known scales rfl terms (Message.reachesAsHook_message (by decide) rfl)

end Context

namespace Registry

/-- The contract that a call is for reads off the bytes what the encoder built, and so does the
receiver of a hook. -/
theorem instructs_of_encode {action : Action} {context : Context} {message : Message}
    (made : standard.encode action context = .ok message) (specific : action.kind ≠ .execute)
    (calls : message.call?.isSome) : context.Instructs action message := by
  rw [encode_standard] at made
  cases action with
  | spend form =>
    obtain ⟨_, token, base, resolved, exactly, rfl⟩ := Spend.encode_eq_ok_iff.mp made
    exact Context.Scales.instructs_spend ⟨resolved, exactly⟩ calls
  | stake form =>
    obtain ⟨_, token, base, resolved, exactly, rfl⟩ := Stake.encode_eq_ok_iff.mp made
    exact Context.Scales.instructs_stake ⟨resolved, exactly⟩
  | beginVesting form =>
    obtain ⟨_, factory, token, base, instantiate, known, resolved, exactly, terms, rfl⟩ :=
      BeginVesting.encode_eq_ok_iff.mp made
    exact Context.Scales.instructs_beginVesting ⟨resolved, exactly⟩ known terms
  | cancelVesting form =>
    obtain ⟨_, rfl⟩ := CancelVesting.encode_eq_ok_iff.mp made
    exact .cancelVesting (Message.reaches_execute (by decide) rfl)
  | registerSlash form =>
    obtain ⟨_, rfl⟩ := RegisterSlash.encode_eq_ok_iff.mp made
    exact .registerSlash (Message.reaches_execute (by decide) rfl)
  | setItem form =>
    obtain ⟨_, rfl⟩ := SetItem.encode_eq_ok_iff.mp made
    exact .setItem (Message.reaches_execute (by decide) rfl)
  | removeItem form =>
    obtain ⟨_, rfl⟩ := RemoveItem.encode_eq_ok_iff.mp made
    exact .removeItem (Message.reaches_execute (by decide) rfl)
  | execute form => exact absurd rfl specific

/-- An item whose key has quotes, a backslash and control characters, and whose value has letters of
several scripts. -/
def strangeItem : SetItem := ⟨"say \"\\\x01\x7f", "naïve\x0a日本 😀"⟩

/-- The sample context, which also knows a contract token. -/
def tokenHolder : Context := Context.sample.withToken ⟨.cw20, "token", ⟨8, by decide⟩, "TOK"⟩

/-- A stake of 2.5 contract tokens. -/
def tokenStake : Stake := ⟨"staking", .cw20 "token", ⟨⟨2500000000000000000, by decide⟩⟩⟩

theorem instructs_of_encode_item_and_stake :
    (∃ payload, (∀ complaint, ChainMessage.ofMessage complaint (strangeItem.messageOf "dao") =
        .ok (.execute "dao" payload [])) ∧
      ofPayload? payload = some (DaoCore.Execute.setItem strangeItem.key strangeItem.value)) ∧
    ∃ message payload hook,
      standard.encode (.stake tokenStake) tokenHolder = .ok message ∧
      (∀ complaint, ChainMessage.ofMessage complaint message =
        .ok (.execute "token" payload [])) ∧
      ofPayload? payload = some (Cw20.Execute.send "staking" ⟨250000000, by decide⟩ hook) ∧
      ofPayload? hook = some Staking.Hook.stake := by
  constructor
  · have made : standard.encode (.setItem strangeItem) .sample =
      .ok (strangeItem.messageOf "dao") := rfl
    cases instructs_of_encode made (by decide) rfl with
    | setItem told => exact told.delivered
  · have made : standard.encode (.stake tokenStake) tokenHolder =
      .ok (HookedSend.message
        ⟨"token", "staking", ⟨250000000, by decide⟩, Staking.Hook.stake⟩) := rfl
    cases instructs_of_encode made (by decide) rfl with
    | stakeNative scales type _ =>
      have known : tokenHolder.lookup tokenStake.token = .resolved _ := rfl
      cases known.symm.trans scales.resolved
      cases type
    | stakeCw20 scales _ told =>
      have known : tokenHolder.lookup tokenStake.token = .resolved _ := rfl
      cases known.symm.trans scales.resolved
      obtain ⟨payload, carried, read⟩ := told.sent.delivered
      have exactly : Amount.Exact tokenStake.amount ⟨250000000, by decide⟩ ⟨8, by decide⟩ :=
        ⟨by decide, by decide⟩
      cases scales.exactly.base_unique exactly
      exact ⟨_, payload, _, made, carried, read, told.hooked⟩

end Registry

namespace HookedSend

variable {α β : Type} [JsonForm α] [JsonForm β]

/-- Who looks for a hook with other alternatives finds none. -/
theorem ofMessage?_message_eq_none [LawfulForm α] [NamedForm α] [NamedForm β] {bound : Nat}
    [BoundedForm α bound] (within : bound ≤ 127) (whole : JsonForm.extent α = .all)
    (otherWhole : JsonForm.extent β = .all) (send : HookedSend α)
    (different : ∀ hook : β, NamedForm.verb hook ≠ NamedForm.verb send.hook) :
    (ofMessage? send.message : Option (HookedSend β)) = none := by
  by_contra found
  obtain ⟨other, misread⟩ := Option.ne_none_iff_exists'.mp found
  have own := Message.verb?_of_hookedSend whole (ofMessage?_message within whole send)
  have foreign := Message.verb?_of_hookedSend otherWhole misread
  exact different other.hook (Option.some.inj (foreign.symm.trans own))

/-- The message carries the written hook, reads back as the same send, and is no send with a hook of
the other kind. -/
structure Lossless (β : Type) [JsonForm β] (send : HookedSend α) : Prop where
  written : ∃ text, (toJson send.hook).contractText? = some text ∧
    send.message = .execute send.token
      (valueOf (Cw20.Execute.send send.contract send.amount (.ofText text))) []
  restored : ofMessage? send.message = some send
  foreign : (ofMessage? send.message : Option (HookedSend β)) = none

private theorem lossless [LawfulForm α] [NamedForm α] [NamedForm β] {bound : Nat}
    [BoundedForm α bound] (within : bound ≤ 127) (whole : JsonForm.extent α = .all)
    (otherWhole : JsonForm.extent β = .all) (send : HookedSend α)
    (different : ∀ hook : β, NamedForm.verb hook ≠ NamedForm.verb send.hook) :
    send.Lossless β where
  written := ⟨_, contractText?_toJson send.hook, rfl⟩
  restored := ofMessage?_message within whole send
  foreign := ofMessage?_message_eq_none within whole otherWhole send different

/-- Hooked sends to staking contracts and vesting factories come back from their messages; neither
is taken for the other. -/
theorem hooks_come_back_unmistaken (token contract : String) (amount : BaseAmount) :
    (∀ hook : Staking.Hook,
      (⟨token, contract, amount, hook⟩ : HookedSend _).Lossless VestingContract.FactoryHook) ∧
    ∀ hook : VestingContract.FactoryHook,
      (⟨token, contract, amount, hook⟩ : HookedSend _).Lossless Staking.Hook := by
  have apart : "instantiate_payroll_contract" ≠ "stake" := by decide
  constructor
  · intro hook
    exact lossless (by decide) rfl rfl _ fun _ => apart
  · intro hook
    exact lossless (by decide) rfl rfl _ fun _ => apart.symm

end HookedSend

end Proposal
