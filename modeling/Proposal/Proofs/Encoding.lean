import Mathlib.Tactic
import Proposal.Action
import Proposal.Proofs.Field
import Proposal.Proofs.Vesting

namespace Proposal

variable {context : Context} {message : Message}

namespace Context

variable {key : TokenKey} {amount : HumanAmount} {checked : Result (List FieldError)}
  {messageOf : Token → BaseAmount → Message}

/-- An encoder that moves an amount makes its message of the token and of exactly that amount. -/
theorem encode_eq_ok_iff (admits : checked = .ok [] → context.Admits key amount) :
    (do
      Field.ensureNone (← checked)
      let (token, base) ← context.baseAmount key amount
      return messageOf token base : Result Message) = .ok message ↔
      checked = .ok [] ∧ ∃ token base, context.lookup key = .resolved token ∧
        Amount.Exact amount base token.decimals ∧ messageOf token base = message := by
  rw [Field.ensureNone_bind_eq_ok_iff]
  apply and_congr_right
  intro good
  rw [bind_eq_ok_iff]
  constructor
  · rintro ⟨⟨token, base⟩, scaled, made⟩
    obtain ⟨found, exactly⟩ := (admits good).baseAmount_eq_ok_iff.mp scaled
    cases made
    exact ⟨token, base, found, exactly, rfl⟩
  · rintro ⟨token, base, found, exactly, rfl⟩
    exact ⟨(token, base), (admits good).baseAmount_eq_ok_iff.mpr ⟨found, exactly⟩, rfl⟩

theorem encode_total (admits : context.Admits key amount) (good : checked = .ok []) :
    let encoded : Result Message := do
      Field.ensureNone (← checked)
      let (token, base) ← context.baseAmount key amount
      return messageOf token base
    (∃ message, encoded = .ok message) ∨
      ∃ error, encoded = .error error ∧ context.token key = .error error := by
  intro encoded
  rcases admits.baseAmount_total with ⟨scaled, same⟩ | ⟨error, same, lacking⟩
  · exact .inl ⟨messageOf scaled.1 scaled.2, by simp only [encoded, good, same]; rfl⟩
  · exact .inr ⟨error, by simp only [encoded, good, same]; rfl, lacking⟩

end Context

namespace Spend

variable {form : Spend}

/-- The payment of so many base units of a token. -/
def messageOf (form : Spend) (token : Token) (base : BaseAmount) : Message :=
  match token.type with
  | .native => .bankSend form.recipient [⟨token.name, base⟩]
  | .cw20 => .execute token.name (valueOf (Cw20.Execute.transfer form.recipient base)) []

theorem validate_eq_nil_iff :
    form.validate context = .ok [] ↔ Field.checkAddress "recipient" form.recipient = [] ∧
      context.Admits form.token form.amount :=
  Field.checked_eq_nil_iff

theorem admits_of_validate (good : form.validate context = .ok []) :
    context.Admits form.token form.amount :=
  (validate_eq_nil_iff.mp good).2

theorem encode_eq : form.encode context = (do
    Field.ensureNone (← form.validate context)
    let (token, base) ← context.baseAmount form.token form.amount
    return form.messageOf token base) := by
  unfold encode messageOf
  congr! with errors _ scaled
  obtain ⟨⟨type, name, decimals, symbol⟩, base⟩ := scaled
  cases type <;> rfl

theorem encode_eq_ok_iff :
    form.encode context = .ok message ↔ form.validate context = .ok [] ∧
      ∃ token base, context.lookup form.token = .resolved token ∧
        Amount.Exact form.amount base token.decimals ∧ form.messageOf token base = message := by
  rw [encode_eq]
  exact Context.encode_eq_ok_iff admits_of_validate

theorem encode_total (good : form.validate context = .ok []) :
    (∃ message, form.encode context = .ok message) ∨
      ∃ error, form.encode context = .error error ∧ context.token form.token = .error error := by
  rw [encode_eq]
  exact Context.encode_total (admits_of_validate good) good

end Spend

namespace Stake

variable {form : Stake}

/-- The stake of so many base units of a token. -/
def messageOf (form : Stake) (token : Token) (base : BaseAmount) : Message :=
  match token.type with
  | .native => .execute form.contract (valueOf Staking.Execute.stake) [⟨token.name, base⟩]
  | .cw20 => HookedSend.message ⟨token.name, form.contract, base, Staking.Hook.stake⟩

theorem validate_eq_nil_iff :
    form.validate context = .ok [] ↔ Field.checkAddress "staking_contract" form.contract = [] ∧
      context.Admits form.token form.amount :=
  Field.checked_eq_nil_iff

theorem admits_of_validate (good : form.validate context = .ok []) :
    context.Admits form.token form.amount :=
  (validate_eq_nil_iff.mp good).2

theorem encode_eq : form.encode context = (do
    Field.ensureNone (← form.validate context)
    let (token, base) ← context.baseAmount form.token form.amount
    return form.messageOf token base) := by
  unfold encode messageOf
  congr! with errors _ scaled
  obtain ⟨⟨type, name, decimals, symbol⟩, base⟩ := scaled
  cases type <;> rfl

theorem encode_eq_ok_iff :
    form.encode context = .ok message ↔ form.validate context = .ok [] ∧
      ∃ token base, context.lookup form.token = .resolved token ∧
        Amount.Exact form.amount base token.decimals ∧ form.messageOf token base = message := by
  rw [encode_eq]
  exact Context.encode_eq_ok_iff admits_of_validate

theorem encode_total (good : form.validate context = .ok []) :
    (∃ message, form.encode context = .ok message) ∨
      ∃ error, form.encode context = .error error ∧ context.token form.token = .error error := by
  rw [encode_eq]
  exact Context.encode_total (admits_of_validate good) good

end Stake

namespace CancelVesting

variable {form : CancelVesting}

def messageOf (form : CancelVesting) : Message :=
  .execute form.contract (valueOf VestingContract.Execute.cancel) []

theorem encode_eq_ok_iff :
    form.encode = .ok message ↔ form.validate = [] ∧ form.messageOf = message :=
  Field.ensureNone_return_eq_ok_iff

end CancelVesting

namespace RegisterSlash

variable {form : RegisterSlash}

def messageOf (form : RegisterSlash) : Message :=
  .execute form.contract
    (valueOf
      (VestingContract.Execute.registerSlash form.validator form.time form.amount
        form.duringUnbonding)) []

theorem encode_eq_ok_iff :
    form.encode context = .ok message ↔ form.validate context = [] ∧ form.messageOf = message :=
  Field.ensureNone_return_eq_ok_iff

end RegisterSlash

namespace SetItem

variable {form : SetItem}

def messageOf (form : SetItem) (dao : String) : Message :=
  .execute dao (valueOf (DaoCore.Execute.setItem form.key form.value)) []

theorem encode_eq_ok_iff :
    form.encode context = .ok message ↔
      form.validate = [] ∧ form.messageOf context.dao = message :=
  Field.ensureNone_return_eq_ok_iff

end SetItem

namespace RemoveItem

variable {form : RemoveItem}

def messageOf (form : RemoveItem) (dao : String) : Message :=
  .execute dao (valueOf (DaoCore.Execute.removeItem form.key)) []

theorem encode_eq_ok_iff :
    form.encode context = .ok message ↔
      form.validate = [] ∧ form.messageOf context.dao = message :=
  Field.ensureNone_return_eq_ok_iff

end RemoveItem

namespace Execute

variable {form : Execute} {funds : List Fund}

/-- Coins are what a context makes of funds: each is the same token and exactly the same amount. -/
def Pays (context : Context) (fund : Fund) (coin : Coin) : Prop :=
  ∃ token, context.lookup (.native fund.denom) = .resolved token ∧ token.name = coin.denom ∧
    Amount.Exact fund.amount coin.amount token.decimals

private theorem checkFunds_eq_nil_iff {position : Nat} :
    checkFunds context position funds = .ok [] ↔
      ∀ fund ∈ funds, context.Admits (.native fund.denom) fund.amount := by
  induction funds generalizing position with
  | nil => simp [checkFunds]
  | cons fund rest ih =>
    rw [checkFunds, bind_eq_ok_iff, List.forall_mem_cons, ← ih, ← Field.checkAmount_eq_nil_iff]
    simp only [bind_eq_ok_iff]
    constructor
    · rintro ⟨errors, checked, others, restChecked, same⟩
      obtain ⟨rfl, rfl⟩ := List.append_eq_nil_iff.mp (Except.ok.inj same)
      exact ⟨checked, restChecked⟩
    · rintro ⟨checked, restChecked⟩
      exact ⟨[], checked, [], restChecked, rfl⟩

theorem validate_eq_nil_iff :
    form.validate context = .ok [] ↔ Field.checkAddress "contract_address" form.contract = [] ∧
      checkMessage form.message = [] ∧
      (∀ fund ∈ form.funds, context.Admits (.native fund.denom) fund.amount) ∧
      repeated [] (form.funds.map Fund.denom) = [] := by
  rw [validate, bind_eq_ok_iff, ← checkFunds_eq_nil_iff]
  simp only [pure, Except.pure, Except.ok.injEq, List.append_eq_nil_iff, List.map_eq_nil_iff]
  constructor
  · rintro ⟨errors, checked, ⟨⟨address, told⟩, rfl⟩, once⟩
    exact ⟨address, told, checked, once⟩
  · rintro ⟨address, told, checked, once⟩
    exact ⟨[], checked, ⟨⟨address, told⟩, rfl⟩, once⟩

theorem admits_of_validate (good : form.validate context = .ok []) :
    ∀ fund ∈ form.funds, context.Admits (.native fund.denom) fund.amount :=
  (validate_eq_nil_iff.mp good).2.2.1

private theorem coin_eq_ok_iff {fund : Fund} {coin : Coin}
    (admits : context.Admits (.native fund.denom) fund.amount) :
    Execute.coin context fund = .ok coin ↔ Pays context fund coin := by
  rw [Execute.coin, bind_eq_ok_iff]
  constructor
  · rintro ⟨⟨token, base⟩, scaled, made⟩
    obtain ⟨found, exactly⟩ := admits.baseAmount_eq_ok_iff.mp scaled
    cases made
    exact ⟨token, found, rfl, exactly⟩
  · rintro ⟨token, found, name, exactly⟩
    refine ⟨(token, coin.amount), admits.baseAmount_eq_ok_iff.mpr ⟨found, exactly⟩, ?_⟩
    simp only [name]
    rfl

private theorem mapM_coin_eq_ok_iff {coins : List Coin}
    (admits : ∀ fund ∈ funds, context.Admits (.native fund.denom) fund.amount) :
    funds.mapM (Execute.coin context) = .ok coins ↔ List.Forall₂ (Pays context) funds coins := by
  induction funds generalizing coins with
  | nil => simp [pure, Except.pure, eq_comm]
  | cons fund rest ih =>
    obtain ⟨first, others⟩ := List.forall_mem_cons.mp admits
    rw [List.mapM_cons, List.forall₂_cons_left_iff]
    simp only [bind_eq_ok_iff, coin_eq_ok_iff first, ih others]
    constructor
    · rintro ⟨coin, pays, rest, more, same⟩
      cases same
      exact ⟨coin, rest, pays, more, rfl⟩
    · rintro ⟨coin, rest, pays, more, rfl⟩
      exact ⟨coin, pays, rest, more, rfl⟩

private theorem mapM_coin_total
    (admits : ∀ fund ∈ funds, context.Admits (.native fund.denom) fund.amount) :
    (∃ coins, funds.mapM (Execute.coin context) = .ok coins) ∨
      ∃ fund ∈ funds, ∃ error, funds.mapM (Execute.coin context) = .error error ∧
        context.token (.native fund.denom) = .error error := by
  induction funds with
  | nil => exact .inl ⟨[], rfl⟩
  | cons fund rest ih =>
    obtain ⟨first, others⟩ := List.forall_mem_cons.mp admits
    simp only [List.mapM_cons]
    rcases first.baseAmount_total with ⟨scaled, same⟩ | ⟨error, same, lacking⟩
    · have made : Execute.coin context fund = .ok ⟨scaled.1.name, scaled.2⟩ := by
        rw [Execute.coin, same]
        rfl
      rcases ih others with ⟨coins, more⟩ | ⟨other, member, error, failed, lacking⟩
      · exact .inl ⟨_ :: coins, by rw [made, more]; rfl⟩
      · refine .inr ⟨other, List.mem_cons_of_mem fund member, error, ?_, lacking⟩
        rw [made, failed]
        rfl
    · have failed : Execute.coin context fund = .error error := by
        rw [Execute.coin, same]
        rfl
      exact .inr ⟨fund, List.mem_cons_self, error, by rw [failed]; rfl, lacking⟩

theorem encode_eq_ok_iff :
    form.encode context = .ok message ↔ form.validate context = .ok [] ∧
      ∃ coins, List.Forall₂ (Pays context) form.funds coins ∧
        .execute form.contract form.message coins = message := by
  rw [encode, Field.ensureNone_bind_eq_ok_iff]
  apply and_congr_right
  intro good
  simp only [bind_eq_ok_iff, mapM_coin_eq_ok_iff (admits_of_validate good), pure, Except.pure,
    Except.ok.injEq]

theorem encode_total (good : form.validate context = .ok []) :
    (∃ message, form.encode context = .ok message) ∨
      ∃ fund ∈ form.funds, ∃ error, form.encode context = .error error ∧
        context.token (.native fund.denom) = .error error := by
  rw [encode, good]
  rcases mapM_coin_total (admits_of_validate good) with
    ⟨coins, made⟩ | ⟨fund, member, error, failed, lacking⟩
  · exact .inl ⟨.execute form.contract form.message coins, by rw [made]; rfl⟩
  · exact .inr ⟨fund, member, error, by rw [failed]; rfl, lacking⟩

end Execute

namespace BeginVesting

open VestingContract

variable {form : BeginVesting}

/-- The call that makes a vesting contract and moves its total. -/
def messageOf (form : BeginVesting) (factory : String) (token : Token) (base : BaseAmount)
    (instantiate : Instantiate) : Message :=
  match token.type with
  | .native =>
    .execute factory (valueOf (FactoryExecute.instantiateNative instantiate form.label))
      [⟨token.name, base⟩]
  | .cw20 =>
    HookedSend.message
      ⟨token.name, factory, base, FactoryHook.instantiate instantiate form.label⟩

/-- The problems of the fields that are texts. -/
def textErrors (form : BeginVesting) : List FieldError :=
  Field.checkAddress "recipient" form.recipient ++ Field.checkPresent "title" form.title ++
    match form.owner with
    | some owner => Field.checkAddress "owner" owner
    | none => []

theorem validate_eq_nil_iff :
    form.validate context = .ok [] ↔ form.textErrors = [] ∧
      context.Admits form.token form.amount ∧ form.checkSteps context = .ok [] := by
  simp only [validate, bind_eq_ok_iff]
  constructor
  · rintro ⟨errors, checked, others, stepsChecked, same⟩
    obtain ⟨above, rfl⟩ := List.append_eq_nil_iff.mp (Except.ok.inj same)
    obtain ⟨texts, rfl⟩ := List.append_eq_nil_iff.mp above
    exact ⟨texts, Field.checkAmount_eq_nil_iff.mp checked, stepsChecked⟩
  · rintro ⟨texts, admits, stepsChecked⟩
    refine ⟨[], Field.checkAmount_eq_nil_iff.mpr admits, [], stepsChecked, ?_⟩
    rw [List.append_nil, List.append_nil]
    exact congrArg Except.ok texts

theorem admits_of_validate (good : form.validate context = .ok []) :
    context.Admits form.token form.amount :=
  (validate_eq_nil_iff.mp good).2.1

theorem checkSteps_of_validate (good : form.validate context = .ok []) :
    form.checkSteps context = .ok [] :=
  (validate_eq_nil_iff.mp good).2.2

/-- The check of the steps lets through a countable schedule of all of the total, on whole base
units where that is known. -/
theorem checkSteps_eq_nil (good : form.checkSteps context = .ok []) :
    form.steps ≠ [] ∧ Vesting.percentSum form.steps = hundredPercent.atomics.val ∧
      Vesting.secondsSum form.steps < Nat.pow 2 64 ∧
      ∀ total, form.total? context = some total →
        Vesting.offsetsAreExact total form.steps = .ok true := by
  unfold checkSteps at good
  split at good
  next => cases good
  next notEmpty =>
    obtain ⟨validity, added, more⟩ := bind_eq_ok_iff.mp good
    cases counted : Vesting.durationSeconds form.steps with
    | error error =>
      -- Whatever is said of the shares, the length is reported behind it.
      simp only [counted, pure_bind] at more
      split at more
      · split at more
        · cases more
        · obtain ⟨exactly, _, more⟩ := bind_eq_ok_iff.mp more
          cases exactly <;> cases more
      · cases more
    | ok duration =>
      have inTime := Vesting.durationSeconds_eq_ok_iff.mp counted ▸ duration.val_lt
      simp only [counted, pure_bind, List.append_nil] at more
      split at more
      next valid =>
        have whole := Vesting.validity_isValid_iff.mp ⟨validity, added, valid⟩
        refine ⟨by simpa using notEmpty, whole, inTime, fun total known => ?_⟩
        rw [known] at more
        obtain ⟨exactly, checked, more⟩ := bind_eq_ok_iff.mp more
        cases exactly with
        | false => cases more
        | true => exact checked
      next => cases more

private theorem checkSchedule_of_validate (good : form.validate context = .ok []) :
    form.checkSchedule = .ok () := by
  obtain ⟨notEmpty, whole, _⟩ := checkSteps_eq_nil (checkSteps_of_validate good)
  obtain ⟨validity, added, valid⟩ := Vesting.validity_isValid_iff.mpr whole
  rw [checkSchedule, if_neg (by simpa using notEmpty), added]
  exact if_pos valid

private theorem ofSteps_eq_ok {total : BaseAmount} {steps : List VestingStep}
    (whole : Vesting.percentSum steps = hundredPercent.atomics.val)
    (inTime : Vesting.secondsSum steps < Nat.pow 2 64) :
    ∃ schedule, Schedule.ofSteps total steps = .ok schedule := by
  unfold Schedule.ofSteps
  split
  · exact ⟨.saturatingLinear, rfl⟩
  · have offsets : ∃ offsets, Vesting.offsets total steps = .ok offsets := by
      apply Vesting.offsetsFrom_eq_ok
      · rwa [Unsigned.val_zero, Nat.zero_add]
      · rw [Decimal.val_zero, Nat.zero_add, whole]
    obtain ⟨offsets, made⟩ := offsets
    exact ⟨_, bind_eq_ok_iff.mpr ⟨offsets, made, rfl⟩⟩

/-- A form without problems gives the factory something to make, whatever its token and total. -/
theorem instantiate_eq_ok (good : form.validate context = .ok []) (token : Token)
    (total : BaseAmount) :
    ∃ instantiate, form.instantiate context token total = .ok instantiate := by
  obtain ⟨_, whole, inTime, _⟩ := checkSteps_eq_nil (checkSteps_of_validate good)
  obtain ⟨schedule, made⟩ : ∃ schedule, Schedule.ofSteps total form.steps = .ok schedule :=
    ofSteps_eq_ok whole inTime
  have counted : Vesting.durationSeconds form.steps = .ok ⟨_, inTime⟩ :=
    Vesting.durationSeconds_eq_ok_iff.mpr rfl
  exact ⟨_, bind_eq_ok_iff.mpr ⟨schedule, made, bind_eq_ok_iff.mpr ⟨_, counted, rfl⟩⟩⟩

theorem encode_eq : form.encode context = (do
    form.checkSchedule
    Field.ensureNone (← form.validate context)
    let factory ← orError .factoryNotResolved context.vestingFactory
    let (token, total) ← context.baseAmount form.token form.amount
    let instantiate ← form.instantiate context token total
    return form.messageOf factory token total instantiate) := by
  unfold encode messageOf
  congr! with _ errors factory scaled
  obtain ⟨⟨type, name, decimals, symbol⟩, base⟩ := scaled
  cases type <;> rfl

theorem encode_eq_ok_iff :
    form.encode context = .ok message ↔ form.validate context = .ok [] ∧
      ∃ factory token base instantiate, context.vestingFactory = some factory ∧
        context.lookup form.token = .resolved token ∧
        Amount.Exact form.amount base token.decimals ∧
        form.instantiate context token base = .ok instantiate ∧
        form.messageOf factory token base instantiate = message := by
  rw [encode_eq]
  constructor
  · intro made
    obtain ⟨_, _, made⟩ := bind_eq_ok_iff.mp made
    obtain ⟨good, made⟩ := Field.ensureNone_bind_eq_ok_iff.mp made
    obtain ⟨factory, found, made⟩ := bind_eq_ok_iff.mp made
    obtain ⟨⟨token, base⟩, scaled, made⟩ := bind_eq_ok_iff.mp made
    obtain ⟨instantiate, told, made⟩ := bind_eq_ok_iff.mp made
    obtain ⟨resolved, exactly⟩ := (admits_of_validate good).baseAmount_eq_ok_iff.mp scaled
    exact ⟨good, factory, token, base, instantiate, orError_eq_ok_iff.mp found, resolved, exactly,
      told, Except.ok.inj made⟩
  · rintro ⟨good, factory, token, base, instantiate, found, resolved, exactly, told, rfl⟩
    refine bind_eq_ok_iff.mpr ⟨.unit, checkSchedule_of_validate good, ?_⟩
    refine Field.ensureNone_bind_eq_ok_iff.mpr ⟨good, ?_⟩
    refine bind_eq_ok_iff.mpr ⟨factory, orError_eq_ok_iff.mpr found, ?_⟩
    have scaled := (admits_of_validate good).baseAmount_eq_ok_iff.mpr ⟨resolved, exactly⟩
    exact bind_eq_ok_iff.mpr ⟨(token, base), scaled, bind_eq_ok_iff.mpr ⟨instantiate, told, rfl⟩⟩

theorem encode_total (good : form.validate context = .ok []) :
    (∃ message, form.encode context = .ok message) ∨
      ∃ error, form.encode context = .error error ∧
        (context.token form.token = .error error ∨
          context.vestingFactory = none ∧ error = .factoryNotResolved) := by
  cases found : context.vestingFactory with
  | none =>
    refine .inr ⟨.factoryNotResolved, ?_, .inr ⟨rfl, rfl⟩⟩
    rw [encode_eq, checkSchedule_of_validate good, good, found]
    rfl
  | some factory =>
    rcases (admits_of_validate good).baseAmount_total with
      ⟨⟨token, base⟩, same⟩ | ⟨error, same, lacking⟩
    · obtain ⟨instantiate, told⟩ := instantiate_eq_ok good token base
      obtain ⟨resolved, exactly⟩ := (admits_of_validate good).baseAmount_eq_ok_iff.mp same
      exact .inl ⟨form.messageOf factory token base instantiate, encode_eq_ok_iff.mpr
        ⟨good, factory, token, base, instantiate, found, resolved, exactly, told, rfl⟩⟩
    · refine .inr ⟨error, ?_, .inl lacking⟩
      rw [encode_eq, checkSchedule_of_validate good, good, found, same]
      rfl

end BeginVesting

end Proposal
