import Mathlib.Tactic
import Proposal.Proofs.Contract
import Proposal.Registry

/-! What a message tells the contract that acts on it names at most one specific kind. -/
namespace Proposal

private theorem Coin.single?_eq_some_iff {coins : List Coin} {coin : Coin} :
    single? coins = some coin ↔ coins = [coin] := by
  cases coins with
  | nil => simp [single?]
  | cons first rest =>
    cases rest with
    | nil => simp [single?]
    | cons second others => simp [single?]

namespace Message

variable {α : Type} [JsonForm α] {message : Message}

theorem typedCall?_eq_some_iff {call : TypedCall α} :
    message.typedCall? = some call ↔
      ∃ body : Value, message = .execute call.contract body call.funds ∧
        body.as? = some call.data := by
  constructor
  · intro found
    simp only [typedCall?, Option.bind_eq_bind, Option.bind_eq_some_iff, Option.pure_def,
      Option.some.injEq] at found
    obtain ⟨whole, called, data, read, rfl⟩ := found
    unfold call? at called
    split at called
    · cases called
      exact ⟨_, rfl, read⟩
    · cases called
  · rintro ⟨body, rfl, read⟩
    simp [typedCall?, execute, call?, read]

private theorem unfunded?_eq_some_iff {call : TypedCall α} :
    message.unfunded? = some call ↔ message.typedCall? = some call ∧ call.funds = [] := by
  simp only [unfunded?, Option.bind_eq_bind, Option.bind_eq_some_iff]
  constructor
  · rintro ⟨typed, found, unfunded⟩
    split at unfunded
    next empty =>
      cases unfunded
      exact ⟨found, List.isEmpty_iff.mp empty⟩
    next => cases unfunded
  · rintro ⟨found, empty⟩
    exact ⟨call, found, by simp [empty]⟩

/-- What is read off a call without funds. -/
theorem unfunded?_bind_eq_some_iff {β : Type} {read : TypedCall α → Option β} {form : β} :
    message.unfunded?.bind read = some form ↔
      ∃ contract data, message.typedCall? = some ⟨contract, [], data⟩ ∧
        read ⟨contract, [], data⟩ = some form := by
  simp only [Option.bind_eq_some_iff, unfunded?_eq_some_iff]
  constructor
  · rintro ⟨⟨contract, funds, data⟩, ⟨typed, rfl⟩, reads⟩
    exact ⟨contract, data, typed, reads⟩
  · rintro ⟨contract, data, typed, reads⟩
    exact ⟨⟨contract, [], data⟩, ⟨typed, rfl⟩, reads⟩

theorem typedCall?_execute [LawfulForm α] (contract : String) (data : α) (funds : List Coin) :
    (execute contract (valueOf data) funds).typedCall? = some ⟨contract, funds, data⟩ :=
  typedCall?_eq_some_iff.mpr ⟨valueOf data, rfl, Value.as?_valueOf data⟩

end Message

namespace HookedSend

variable {α : Type} [JsonForm α] {message : Message}

theorem ofMessage?_eq_some_iff {send : HookedSend α} :
    ofMessage? message = some send ↔
      ∃ hook, message.typedCall? =
          some ⟨send.token, [], Cw20.Execute.send send.contract send.amount hook⟩ ∧
        ofPayload? hook = some send.hook := by
  constructor
  · intro found
    obtain ⟨token, told, typed, sent⟩ := Message.unfunded?_bind_eq_some_iff.mp found
    cases told
    case send contract amount payload =>
      obtain ⟨hook, read, same⟩ := Option.bind_eq_some_iff.mp sent
      cases same
      exact ⟨payload, typed, read⟩
    all_goals cases sent
  · rintro ⟨hook, typed, read⟩
    refine Message.unfunded?_bind_eq_some_iff.mpr ⟨_, _, typed, ?_⟩
    exact Option.bind_eq_some_iff.mpr ⟨send.hook, read, rfl⟩

theorem ofMessage?_message [LawfulForm α] {bound : Nat} [BoundedForm α bound] (within : bound ≤ 127)
    (whole : JsonForm.extent α = .all) (send : HookedSend α) :
    ofMessage? send.message = some send :=
  ofMessage?_eq_some_iff.mpr
    ⟨_, Message.typedCall?_execute _ _ _, ofPayload?_payloadOf within whole send.hook⟩

end HookedSend

/-- The alternative that a value names. -/
def Value.verb? (value : Value) : Option String := value.json.choice?.map Prod.fst

private theorem Value.verb?_of_as? {α : Type} [JsonForm α] [NamedForm α] {value : Value} {data : α}
    (read : value.as? = some data) : value.verb? = some (NamedForm.verb data) := by
  obtain ⟨body, chosen⟩ := NamedForm.choice?_of_ofJson? read
  rw [verb?, chosen, Option.map_some]

private theorem Json.choice?_normal {json : Json} {name : String} {body : Option Json}
    (chosen : json.choice? = some (name, body)) :
    json.normal.choice? = some (name, body.map normal) := by
  unfold choice? at chosen
  split at chosen
  · obtain ⟨rfl, rfl⟩ : _ ∧ none = body := by simpa using chosen
    rw [normal]
    rfl
  · obtain ⟨rfl, rfl⟩ : _ ∧ some _ = body := by simpa using chosen
    rw [arranges_normal.single]
    rfl
  · cases chosen

/-- However the body of a call is read, it names the same alternative. -/
theorem Message.verb_eq_of_typedCall? {α β : Type} [JsonForm α] [NamedForm α] [JsonForm β]
    [NamedForm β] {message : Message} {call : TypedCall α} {other : TypedCall β}
    (typed : message.typedCall? = some call) (again : message.typedCall? = some other) :
    NamedForm.verb call.data = NamedForm.verb other.data := by
  obtain ⟨body, rfl, read⟩ := typedCall?_eq_some_iff.mp typed
  obtain ⟨same, told, otherRead⟩ := typedCall?_eq_some_iff.mp again
  simp only [execute, Message.wasm.injEq, WasmMessage.execute.injEq] at told
  obtain ⟨_, _, rfl⟩ := told
  exact Option.some.inj ((Value.verb?_of_as? read).symm.trans (Value.verb?_of_as? otherRead))

/-- A call that names anything but a send of contract tokens carries no hook. -/
theorem HookedSend.ofMessage?_eq_none {α β : Type} [JsonForm α] [NamedForm α] [JsonForm β]
    {message : Message} {call : Message.TypedCall α} (typed : message.typedCall? = some call)
    (notSend : NamedForm.verb call.data ≠ "send") :
    (ofMessage? message : Option (HookedSend β)) = none := by
  by_contra hooked
  obtain ⟨send, sent⟩ := Option.ne_none_iff_exists'.mp hooked
  obtain ⟨hook, again, _⟩ := ofMessage?_eq_some_iff.mp sent
  exact notSend (Message.verb_eq_of_typedCall? typed again)

namespace Message

variable {α : Type} [JsonForm α] [NamedForm α] {message : Message}

/-- What a message tells to be done: the alternative that is named by the hook of contract tokens,
or else by the body of the call. -/
def verb? (message : Message) : Option String :=
  match (HookedSend.ofMessage? message : Option (HookedSend Value)) with
  | some send => send.hook.verb?
  | none => message.call?.bind fun call => call.body.verb?

private theorem verb?_of_typedCall? {call : TypedCall α} (typed : message.typedCall? = some call)
    (notSend : NamedForm.verb call.data ≠ "send") :
    message.verb? = some (NamedForm.verb call.data) := by
  rw [verb?, HookedSend.ofMessage?_eq_none typed notSend]
  obtain ⟨body, rfl, read⟩ := typedCall?_eq_some_iff.mp typed
  exact Value.verb?_of_as? read

theorem verb?_of_hookedSend {send : HookedSend α} (whole : JsonForm.extent α = .all)
    (sent : HookedSend.ofMessage? message = some send) :
    message.verb? = some (NamedForm.verb send.hook) := by
  obtain ⟨hook, typed, read⟩ := HookedSend.ofMessage?_eq_some_iff.mp sent
  simp only [ofPayload?, whole, Option.bind_eq_bind, Option.bind_eq_some_iff] at read
  obtain ⟨json, payload, read⟩ := read
  have untyped : HookedSend.ofMessage? message =
      some (⟨send.token, send.contract, send.amount, Value.ofJson json⟩ : HookedSend Value) := by
    refine HookedSend.ofMessage?_eq_some_iff.mpr ⟨hook, typed, ?_⟩
    rw [ofPayload?, show JsonForm.extent Value = .all from rfl, payload]
    rfl
  obtain ⟨body, chosen⟩ := NamedForm.choice?_of_ofJson? read
  rw [verb?, untyped]
  simp only [Value.verb?, Value.ofJson, Json.choice?_normal chosen, Option.map_some]

end Message

section Shapes

variable {message : Message}

/-- A payment is a bank transfer of one coin, or a transfer by the contract of a token. -/
theorem Spend.Payment.ofMessage?_eq_some_iff {payment : Spend.Payment} :
    ofMessage? message = some payment ↔
      (∃ coin, message = .bankSend payment.recipient [coin] ∧
        payment.token = .native coin.denom ∧ payment.amount = coin.amount) ∨
      ∃ contract, message.typedCall? =
          some ⟨contract, [], Cw20.Execute.transfer payment.recipient payment.amount⟩ ∧
        payment.token = .cw20 contract := by
  obtain ⟨recipient, token, amount⟩ := payment
  constructor
  · intro found
    unfold ofMessage? at found
    split at found
    · simp only [Option.bind_eq_bind, Option.bind_eq_some_iff, Option.pure_def, Option.some.injEq,
        Coin.single?_eq_some_iff] at found
      obtain ⟨coin, rfl, found⟩ := found
      cases found
      exact .inl ⟨coin, rfl, rfl, rfl⟩
    · obtain ⟨contract, told, typed, found⟩ := Message.unfunded?_bind_eq_some_iff.mp found
      cases told
      case transfer => cases found; exact .inr ⟨contract, typed, rfl⟩
      all_goals cases found
  · rintro (⟨coin, rfl, rfl, rfl⟩ | ⟨contract, typed, rfl⟩)
    · rfl
    · obtain ⟨body, rfl, _⟩ := Message.typedCall?_eq_some_iff.mp typed
      exact Message.unfunded?_bind_eq_some_iff.mpr ⟨contract, _, typed, rfl⟩

/-- A deposit is contract tokens sent with a hook, or a call with one coin. -/
theorem Stake.Deposit.ofMessage?_eq_some_iff {deposit : Stake.Deposit} :
    ofMessage? message = some deposit ↔
      (∃ token, HookedSend.ofMessage? message =
          some ⟨token, deposit.contract, deposit.amount, Staking.Hook.stake⟩ ∧
        deposit.token = .cw20 token) ∨
      ∃ coin, message.typedCall? = some ⟨deposit.contract, [coin], Staking.Execute.stake⟩ ∧
        deposit.token = .native coin.denom ∧ deposit.amount = coin.amount := by
  obtain ⟨contract, token, amount⟩ := deposit
  constructor
  · intro found
    unfold ofMessage? at found
    split at found
    next send sent => cases found; exact .inl ⟨send.token, sent, rfl⟩
    next =>
      simp only [Option.bind_eq_bind, Option.bind_eq_some_iff, Option.pure_def, Option.some.injEq,
        Coin.single?_eq_some_iff] at found
      obtain ⟨⟨receiver, funds, told⟩, typed, coin, rfl, found⟩ := found
      cases found
      exact .inr ⟨coin, typed, rfl, rfl⟩
  · rintro (⟨address, sent, rfl⟩ | ⟨coin, typed, rfl, rfl⟩)
    · simp [ofMessage?, sent]
    · have unhooked : (HookedSend.ofMessage? message : Option (HookedSend Staking.Hook)) = none :=
        HookedSend.ofMessage?_eq_none typed (ForeignForm.verb_ne_send _)
      simp [ofMessage?, unhooked, typed, Coin.single?]

open VestingContract in
/-- A grant is a hooked send or a call with one coin, and its vesting is of the token and amount
that go with it. -/
theorem BeginVesting.Grant.ofMessage?_eq_some_iff {grant : BeginVesting.Grant} :
    ofMessage? message = some grant ↔
      (∃ token factory label, HookedSend.ofMessage? message =
          some ⟨token, factory, grant.instantiate.total,
            FactoryHook.instantiate grant.instantiate label⟩ ∧
        grant.instantiate.denom = .cw20 token ∧ grant.token = .cw20 token) ∨
      ∃ factory label coin, message.typedCall? =
          some ⟨factory, [coin], FactoryExecute.instantiateNative grant.instantiate label⟩ ∧
        coin.amount = grant.instantiate.total ∧ grant.instantiate.denom = .native coin.denom ∧
        grant.token = .native coin.denom := by
  obtain ⟨instantiate, key⟩ := grant
  constructor
  · intro found
    unfold ofMessage? at found
    split at found
    next send sent =>
      obtain ⟨token, factory, amount, told, label⟩ := send
      simp only [ofSend?] at found
      split at found
      next agrees =>
        cases found
        obtain ⟨denom, rfl⟩ := agrees
        exact .inl ⟨token, factory, label, sent, denom, rfl⟩
      next => cases found
    next =>
      obtain ⟨⟨factory, funds, told, label⟩, typed, found⟩ := Option.bind_eq_some_iff.mp found
      simp only [ofCall?] at found
      split at found
      next => cases found
      next denom native =>
        simp only [Option.bind_eq_bind, Option.bind_eq_some_iff, Coin.single?_eq_some_iff] at found
        obtain ⟨coin, rfl, found⟩ := found
        split at found
        next agrees =>
          cases found
          obtain ⟨rfl, amount⟩ := agrees
          exact .inr ⟨factory, label, coin, typed, amount, native, rfl⟩
        next => cases found
  · rintro (⟨token, factory, label, sent, denom, rfl⟩ |
      ⟨factory, label, coin, typed, amount, denom, rfl⟩)
    · simp only [ofMessage?, sent, ofSend?]
      simp only at denom
      simp [denom]
    · have unhooked : (HookedSend.ofMessage? message : Option (HookedSend FactoryHook)) = none :=
        HookedSend.ofMessage?_eq_none typed (ForeignForm.verb_ne_send _)
      simp only at denom
      simp [ofMessage?, unhooked, typed, ofCall?, denom, amount, Coin.single?]

theorem CancelVesting.ofMessage?_eq_some_iff {form : CancelVesting} :
    ofMessage? message = some form ↔
      message.typedCall? = some ⟨form.contract, [], VestingContract.Execute.cancel⟩ := by
  obtain ⟨contract⟩ := form
  constructor
  · intro found
    obtain ⟨receiver, told, typed, found⟩ := Message.unfunded?_bind_eq_some_iff.mp found
    cases told
    case cancel => cases found; exact typed
    all_goals cases found
  · intro typed
    exact Message.unfunded?_bind_eq_some_iff.mpr ⟨_, _, typed, rfl⟩

theorem RegisterSlash.ofMessage?_eq_some_iff {form : RegisterSlash} :
    ofMessage? message = some form ↔
      message.typedCall? = some ⟨form.contract, [], VestingContract.Execute.registerSlash
        form.validator form.time form.amount form.duringUnbonding⟩ := by
  obtain ⟨contract, validator, time, amount, duringUnbonding⟩ := form
  constructor
  · intro found
    obtain ⟨receiver, told, typed, found⟩ := Message.unfunded?_bind_eq_some_iff.mp found
    cases told
    case registerSlash => cases found; exact typed
    all_goals cases found
  · intro typed
    exact Message.unfunded?_bind_eq_some_iff.mpr ⟨_, _, typed, rfl⟩

theorem SetItem.ofMessage?_eq_some_iff {form : SetItem} :
    ofMessage? message = some form ↔
      ∃ contract, message.typedCall? =
        some ⟨contract, [], DaoCore.Execute.setItem form.key form.value⟩ := by
  obtain ⟨key, value⟩ := form
  constructor
  · intro found
    obtain ⟨receiver, told, typed, found⟩ := Message.unfunded?_bind_eq_some_iff.mp found
    cases told
    case setItem => cases found; exact ⟨receiver, typed⟩
    all_goals cases found
  · rintro ⟨contract, typed⟩
    exact Message.unfunded?_bind_eq_some_iff.mpr ⟨_, _, typed, rfl⟩

theorem RemoveItem.ofMessage?_eq_some_iff {form : RemoveItem} :
    ofMessage? message = some form ↔
      ∃ contract, message.typedCall? =
        some ⟨contract, [], DaoCore.Execute.removeItem form.key⟩ := by
  obtain ⟨key⟩ := form
  constructor
  · intro found
    obtain ⟨receiver, told, typed, found⟩ := Message.unfunded?_bind_eq_some_iff.mp found
    cases told
    case removeItem => cases found; exact ⟨receiver, typed⟩
    all_goals cases found
  · rintro ⟨contract, typed⟩
    exact Message.unfunded?_bind_eq_some_iff.mpr ⟨_, _, typed, rfl⟩

end Shapes

/-- The kind that claims messages which tell a verb. -/
def ActionKind.ofVerb? : String → Option ActionKind
  | "transfer" => some .spend
  | "stake" => some .stake
  | "instantiate_native_payroll_contract" => some .beginVesting
  | "instantiate_payroll_contract" => some .beginVesting
  | "cancel" => some .cancelVesting
  | "register_slash" => some .registerSlash
  | "set_item" => some .setItem
  | "remove_item" => some .removeItem
  | _ => none

namespace Message

/-- The only kind, general calls apart, that may claim a message. -/
def specificKind? : Message → Option ActionKind
  | .bank _ => some .spend
  | message => message.verb?.bind ActionKind.ofVerb?

variable {α : Type} [JsonForm α] [NamedForm α] {message : Message}

private theorem specificKind?_of_typedCall? {call : TypedCall α}
    (typed : message.typedCall? = some call) (notSend : NamedForm.verb call.data ≠ "send") :
    message.specificKind? = ActionKind.ofVerb? (NamedForm.verb call.data) := by
  have told := verb?_of_typedCall? typed notSend
  obtain ⟨body, rfl, _⟩ := typedCall?_eq_some_iff.mp typed
  simp only [execute] at told
  simp only [execute, specificKind?, told, Option.bind_some]

private theorem specificKind?_of_hookedSend {send : HookedSend α} (whole : JsonForm.extent α = .all)
    (sent : HookedSend.ofMessage? message = some send) :
    message.specificKind? = ActionKind.ofVerb? (NamedForm.verb send.hook) := by
  have told := verb?_of_hookedSend whole sent
  obtain ⟨hook, typed, _⟩ := HookedSend.ofMessage?_eq_some_iff.mp sent
  obtain ⟨body, rfl, _⟩ := typedCall?_eq_some_iff.mp typed
  simp only [execute] at told
  simp only [execute, specificKind?, told, Option.bind_some]

end Message

/-- What names a specific kind: a bank transfer, a call, or the hook of contract tokens. -/
inductive Message.Tells (message : Message) : ActionKind → Prop
  | bank {recipient : String} {coin : Coin} (same : message = .bankSend recipient [coin]) :
      Tells message .spend
  | call {kind : ActionKind} {α : Type} [JsonForm α] [NamedForm α] [BodiedForm α]
      {call : TypedCall α} (typed : message.typedCall? = some call)
      (notSend : NamedForm.verb call.data ≠ "send")
      (named : ActionKind.ofVerb? (NamedForm.verb call.data) = some kind) : Tells message kind
  | hook {kind : ActionKind} {α : Type} [JsonForm α] [NamedForm α] {send : HookedSend α}
      (whole : JsonForm.extent α = .all) (sent : HookedSend.ofMessage? message = some send)
      (named : ActionKind.ofVerb? (NamedForm.verb send.hook) = some kind) : Tells message kind

private theorem Message.tells_of_foreignCall? {α : Type} [JsonForm α] [NamedForm α] [BodiedForm α]
    [ForeignForm α] {message : Message} {kind : ActionKind} {call : TypedCall α}
    (typed : message.typedCall? = some call)
    (named : ActionKind.ofVerb? (NamedForm.verb call.data) = some kind) : message.Tells kind :=
  .call typed (ForeignForm.verb_ne_send call.data) named

namespace ActionKind

variable {kind : ActionKind} {message : Message}

theorem tells_of_claims (claims : kind.claims message = true) (specific : kind ≠ .execute) :
    message.Tells kind := by
  cases kind with
  | execute => exact absurd rfl specific
  | spend =>
    obtain ⟨payment, found⟩ := Option.isSome_iff_exists.mp claims
    rcases Spend.Payment.ofMessage?_eq_some_iff.mp found with ⟨coin, rfl, _⟩ | ⟨contract, typed, _⟩
    · exact .bank rfl
    · exact .call typed (by simp [NamedForm.verb, Cw20.Execute.verb]) rfl
  | stake =>
    obtain ⟨deposit, found⟩ := Option.isSome_iff_exists.mp claims
    rcases Stake.Deposit.ofMessage?_eq_some_iff.mp found with ⟨token, sent, _⟩ | ⟨coin, typed, _⟩
    · exact .hook rfl sent rfl
    · exact Message.tells_of_foreignCall? typed rfl
  | beginVesting =>
    obtain ⟨grant, found⟩ := Option.isSome_iff_exists.mp claims
    rcases BeginVesting.Grant.ofMessage?_eq_some_iff.mp found with
      ⟨token, factory, label, sent, _⟩ | ⟨factory, label, coin, typed, _⟩
    · exact .hook rfl sent rfl
    · exact Message.tells_of_foreignCall? typed rfl
  | cancelVesting =>
    obtain ⟨form, found⟩ := Option.isSome_iff_exists.mp claims
    exact Message.tells_of_foreignCall? (CancelVesting.ofMessage?_eq_some_iff.mp found) rfl
  | registerSlash =>
    obtain ⟨form, found⟩ := Option.isSome_iff_exists.mp claims
    exact Message.tells_of_foreignCall? (RegisterSlash.ofMessage?_eq_some_iff.mp found) rfl
  | setItem =>
    obtain ⟨form, found⟩ := Option.isSome_iff_exists.mp claims
    obtain ⟨contract, typed⟩ := SetItem.ofMessage?_eq_some_iff.mp found
    exact Message.tells_of_foreignCall? typed rfl
  | removeItem =>
    obtain ⟨form, found⟩ := Option.isSome_iff_exists.mp claims
    obtain ⟨contract, typed⟩ := RemoveItem.ofMessage?_eq_some_iff.mp found
    exact Message.tells_of_foreignCall? typed rfl

theorem specificKind?_of_claims (claims : kind.claims message = true)
    (specific : kind ≠ .execute) : message.specificKind? = some kind := by
  cases tells_of_claims claims specific with
  | bank same => rw [same]; rfl
  | call typed notSend named =>
    exact (Message.specificKind?_of_typedCall? typed notSend).trans named
  | hook whole sent named => exact (Message.specificKind?_of_hookedSend whole sent).trans named

end ActionKind

end Proposal
