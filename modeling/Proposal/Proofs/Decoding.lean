import Mathlib.Tactic
import Proposal.Proofs.Claim
import Proposal.Proofs.Context

namespace Proposal

variable {context : Context} {message : Message}

private theorem Match.map_eq_matched_iff {α β : Type} {wrap : α → β} {found : Match α}
    {action : β} :
    found.map wrap = .matched action ↔ ∃ form, found = .matched form ∧ wrap form = action := by
  cases found <;> simp [Match.map]

private theorem ActionKind.matchOf_eq_matched_iff {α : Type} {found : Option α} {form : α} :
    matchOf found = .matched form ↔ found = some form := by
  cases found <;> simp [matchOf]

/-- A form with an amount of a token is decoded if the token is resolved, and shows exactly the base
units of the message. -/
theorem Context.withTokenOf_toHuman_eq_matched_iff {α : Type} {key : TokenKey} {base : BaseAmount}
    {formOf : Token → HumanAmount → α} {form : α} :
    (context.withTokenOf key fun token => do
      let amount ← Amount.toHuman base token.decimals
      return .matched (formOf token amount)) = .ok (.matched form) ↔
      ∃ token amount, context.lookup key = .resolved token ∧
        Amount.Exact amount base token.decimals ∧ formOf token amount = form := by
  simp only [Context.withTokenOf_eq_matched, bind_eq_ok_iff, Amount.toHuman_eq_ok_iff, pure,
    Except.pure, Except.ok.injEq, Match.matched.injEq, exists_and_left]

namespace Spend

variable {form : Spend}

theorem decode_eq_matched_iff :
    decode message context = .ok (.matched form) ↔
      ∃ payment token, Payment.ofMessage? message = some payment ∧
        context.lookup payment.token = .resolved token ∧
        Amount.Exact form.amount payment.amount token.decimals ∧
        form.recipient = payment.recipient ∧ form.token = token.key := by
  unfold decode
  cases found : Payment.ofMessage? message with
  | none => simp
  | some payment =>
    simp only [Context.withTokenOf_toHuman_eq_matched_iff, Option.some.injEq, exists_and_left,
      exists_eq_left']
    constructor
    · rintro ⟨token, resolved, amount, exactly, rfl⟩
      exact ⟨token, resolved, exactly, rfl, rfl⟩
    · rintro ⟨token, resolved, exactly, recipient, key⟩
      exact ⟨token, resolved, form.amount, exactly, by rw [← recipient, ← key]⟩

end Spend

namespace Stake

variable {form : Stake}

theorem decode_eq_matched_iff :
    decode message context = .ok (.matched form) ↔
      ∃ deposit token, Deposit.ofMessage? message = some deposit ∧
        context.lookup deposit.token = .resolved token ∧
        Amount.Exact form.amount deposit.amount token.decimals ∧
        form.contract = deposit.contract ∧ form.token = token.key := by
  unfold decode
  cases found : Deposit.ofMessage? message with
  | none => simp
  | some deposit =>
    simp only [Context.withTokenOf_toHuman_eq_matched_iff, Option.some.injEq, exists_and_left,
      exists_eq_left']
    constructor
    · rintro ⟨token, resolved, amount, exactly, rfl⟩
      exact ⟨token, resolved, exactly, rfl, rfl⟩
    · rintro ⟨token, resolved, exactly, contract, key⟩
      exact ⟨token, resolved, form.amount, exactly, by rw [← contract, ← key]⟩

end Stake

namespace BeginVesting

open VestingContract

variable {form : BeginVesting}

/-- The form that an instantiate message is shown as. -/
def formOf (instantiate : Instantiate) (context : Context) (steps : List VestingStep)
    (token : Token) (amount : HumanAmount) : BeginVesting where
  recipient := instantiate.recipient
  title := instantiate.title
  description := instantiate.description
  owner := instantiate.owner
  token := token.key
  amount := amount
  startTime := instantiate.startTime.getD context.now
  steps := steps

theorem ofInstantiate_eq_matched_iff {instantiate : Instantiate} {token : Token} :
    ofInstantiate instantiate token context = .ok (.matched form) ↔
      ∃ steps amount,
        instantiate.schedule.steps? instantiate.total instantiate.vestingSeconds = some steps ∧
        Amount.Exact amount instantiate.total token.decimals ∧
        formOf instantiate context steps token amount = form := by
  unfold ofInstantiate
  split
  next none => simp [none]
  next steps some =>
    simp only [bind_eq_ok_iff, Amount.toHuman_eq_ok_iff, pure, Except.pure, Except.ok.injEq,
      Match.matched.injEq, some, Option.some.injEq, exists_and_left, exists_eq_left']
    rfl

theorem decode_eq_matched_iff :
    decode message context = .ok (.matched form) ↔
      ∃ grant token, Grant.ofMessage? message = some grant ∧
        context.lookup grant.token = .resolved token ∧
        ofInstantiate grant.instantiate token context = .ok (.matched form) := by
  unfold decode
  cases found : Grant.ofMessage? message with
  | none => simp
  | some grant => simp [Context.withTokenOf_eq_matched]

end BeginVesting

namespace Execute

variable {form : Execute} {coins : List Coin} {funds : List Fund}

/-- The context shows the coin as the fund: the same denom, and exactly the same amount. -/
def Shown (context : Context) (coin : Coin) (fund : Fund) : Prop :=
  fund.denom = coin.denom ∧ context.Shows (.native coin.denom) fund.amount coin.amount

private theorem decodeFunds_eq_matched_iff :
    decodeFunds context coins = .ok (.matched funds) ↔
      List.Forall₂ (Shown context) coins funds := by
  induction coins generalizing funds with
  | nil => simp [decodeFunds, eq_comm]
  | cons coin rest ih =>
    simp only [decodeFunds, Context.withTokenOf_eq_matched, bind_eq_ok_iff,
      Amount.toHuman_eq_ok_iff, pure, Except.pure, Except.ok.injEq, Match.map_eq_matched_iff,
      List.forall₂_cons_left_iff]
    constructor
    · rintro ⟨token, resolved, amount, exactly, more, decoded, others, rfl, rfl⟩
      exact ⟨⟨coin.denom, amount⟩, others, ⟨rfl, token, resolved, exactly⟩, ih.mp decoded, rfl⟩
    · rintro ⟨⟨denom, amount⟩, others, ⟨rfl, token, resolved, exactly⟩, shown, rfl⟩
      exact ⟨token, resolved, amount, exactly, _, ih.mpr shown, others, rfl, rfl⟩

theorem call?_eq_some_iff {call : Message.Call} :
    call? message = some call ↔
      message = .execute call.contract call.body call.funds ∧ call.body.isObject = true := by
  rw [call?, Option.filter_eq_some_iff]
  apply and_congr_left
  intro _
  constructor
  · intro found
    unfold Message.call? at found
    split at found
    · cases found
      rfl
    · cases found
  · rintro rfl
    rfl

theorem decode_eq_matched_iff :
    decode message context = .ok (.matched form) ↔
      ∃ coins, message = .execute form.contract form.message coins ∧
        form.message.isObject = true ∧ List.Forall₂ (Shown context) coins form.funds := by
  obtain ⟨contract, body, funds⟩ := form
  unfold decode
  cases found : call? message with
  | none =>
    refine iff_of_false nofun ?_
    rintro ⟨coins, rfl, object, _⟩
    have claimed : call? (.execute contract body coins) = some ⟨contract, coins, body⟩ :=
      call?_eq_some_iff.mpr ⟨rfl, object⟩
    rw [found] at claimed
    cases claimed
  | some call =>
    obtain ⟨rfl, object⟩ := call?_eq_some_iff.mp found
    simp only [bind_eq_ok_iff, pure, Except.pure, Except.ok.injEq, Match.map_eq_matched_iff]
    constructor
    · rintro ⟨_, decoded, shown, rfl, same⟩
      cases same
      exact ⟨call.funds, rfl, object, decodeFunds_eq_matched_iff.mp decoded⟩
    · rintro ⟨coins, same, _, shown⟩
      simp only [Message.execute, Message.wasm.injEq, WasmMessage.execute.injEq] at same
      obtain ⟨rfl, rfl, rfl⟩ := same
      exact ⟨_, decodeFunds_eq_matched_iff.mpr shown, funds, rfl, rfl⟩

end Execute

namespace ActionKind

variable {kind : ActionKind} {action : Action}

/-- The form of each kind that a message is decoded to: read off the message alone, or with the
tokens of the context. -/
inductive Decodes (message : Message) (context : Context) : ActionKind → Action → Prop
  | spend {form : Spend} (decoded : Spend.decode message context = .ok (.matched form)) :
      Decodes message context .spend (.spend form)
  | stake {form : Stake} (decoded : Stake.decode message context = .ok (.matched form)) :
      Decodes message context .stake (.stake form)
  | beginVesting {form : BeginVesting}
      (decoded : BeginVesting.decode message context = .ok (.matched form)) :
      Decodes message context .beginVesting (.beginVesting form)
  | cancelVesting {form : CancelVesting} (found : CancelVesting.ofMessage? message = some form) :
      Decodes message context .cancelVesting (.cancelVesting form)
  | registerSlash {form : RegisterSlash} (found : RegisterSlash.ofMessage? message = some form) :
      Decodes message context .registerSlash (.registerSlash form)
  | setItem {form : SetItem} (found : SetItem.ofMessage? message = some form) :
      Decodes message context .setItem (.setItem form)
  | removeItem {form : RemoveItem} (found : RemoveItem.ofMessage? message = some form) :
      Decodes message context .removeItem (.removeItem form)
  | execute {form : Execute} (decoded : Execute.decode message context = .ok (.matched form)) :
      Decodes message context .execute (.execute form)

theorem Decodes.kind_eq (decodes : Decodes message context kind action) : action.kind = kind := by
  cases decodes <;> rfl

/-- A kind that puts its own forms into actions. -/
theorem exists_form_of_map {α : Type} {wrap : α → Action} {decoded : Result (Match α)}
    (matched : decoded.map (·.map wrap) = .ok (.matched action)) :
    ∃ form, decoded = .ok (.matched form) ∧ wrap form = action := by
  obtain ⟨found, same, wrapped⟩ := map_eq_ok_iff.mp matched
  obtain ⟨form, rfl, own⟩ := Match.map_eq_matched_iff.mp wrapped
  exact ⟨form, same, own⟩

private theorem exists_form_of_matchOf {α : Type} {wrap : α → Action} {found : Option α}
    (matched : (.ok ((matchOf found).map wrap) : Result (Match Action)) = .ok (.matched action)) :
    ∃ form, found = some form ∧ wrap form = action := by
  obtain ⟨form, same, own⟩ := Match.map_eq_matched_iff.mp (Except.ok.inj matched)
  exact ⟨form, matchOf_eq_matched_iff.mp same, own⟩

theorem decodes_of_decode (matched : kind.decode message context = .ok (.matched action)) :
    Decodes message context kind action := by
  cases kind with
  | spend =>
    obtain ⟨form, decoded, rfl⟩ := exists_form_of_map matched
    exact .spend decoded
  | stake =>
    obtain ⟨form, decoded, rfl⟩ := exists_form_of_map matched
    exact .stake decoded
  | beginVesting =>
    obtain ⟨form, decoded, rfl⟩ := exists_form_of_map matched
    exact .beginVesting decoded
  | cancelVesting =>
    obtain ⟨form, found, rfl⟩ := exists_form_of_matchOf matched
    exact .cancelVesting found
  | registerSlash =>
    obtain ⟨form, found, rfl⟩ := exists_form_of_matchOf matched
    exact .registerSlash found
  | setItem =>
    obtain ⟨form, found, rfl⟩ := exists_form_of_matchOf matched
    exact .setItem found
  | removeItem =>
    obtain ⟨form, found, rfl⟩ := exists_form_of_matchOf matched
    exact .removeItem found
  | execute =>
    obtain ⟨form, decoded, rfl⟩ := exists_form_of_map matched
    exact .execute decoded

end ActionKind

end Proposal
