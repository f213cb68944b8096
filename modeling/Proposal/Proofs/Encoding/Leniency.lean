import Mathlib.Tactic
import Proposal.Proofs.Admission

/-! A context can refuse to encode an action, but it cannot alter the message. -/
namespace Proposal

variable {left right : Context} {action : Action} {message : Message} {key : TokenKey}
  {amount : HumanAmount}

namespace Context

/-- The contexts agree on everything that the message of an action is made of. -/
structure Agrees (left right : Context) (action : Action) : Prop where
  dao : right.dao = left.dao
  vestingFactory : right.vestingFactory = left.vestingFactory
  unbonding : right.config.unbondingSeconds = left.config.unbondingSeconds
  tokens : ∀ key ∈ action.tokens, right.lookup key = left.lookup key

/-- The right context has at least as much of a token. A balance that is not known is no limit. -/
def Affords (left right : Context) (key : TokenKey) : Prop :=
  ∀ after, right.balance? key = some after →
    ∃ before, left.balance? key = some before ∧ before ≤ after

/-- The right context is not earlier, and has at least as much of every token of the action. -/
structure Eases (left right : Context) (action : Action) : Prop where
  now : left.now ≤ right.now
  balances : ∀ key ∈ action.tokens, left.Affords right key

private theorem baseAmount_congr (same : right.lookup key = left.lookup key)
    (amount : HumanAmount) :
    right.baseAmount key amount = left.baseAmount key amount := by
  rw [baseAmount, baseAmount, token, token, same]

/-- A larger balance admits every amount that a smaller one does. -/
theorem Admits.ease (admits : left.Admits key amount) (agrees : left.Agrees right action)
    (eases : left.Eases right action) (named : key ∈ action.tokens) :
    right.Admits key amount := by
  refine ⟨admits.1, fun token resolved => ?_⟩
  obtain ⟨base, exactly, within⟩ := admits.2 token (agrees.tokens key named ▸ resolved)
  refine ⟨base, exactly, fun after known less => ?_⟩
  obtain ⟨before, earlier, grown⟩ := eases.balances key named after known
  exact within before earlier (Nat.lt_of_le_of_lt grown less)

end Context

private theorem Spend.encode_congr {form : Spend}
    (same : right.lookup form.token = left.lookup form.token)
    (goodLeft : form.validate left = .ok []) (goodRight : form.validate right = .ok []) :
    form.encode right = form.encode left := by
  rw [encode_eq, encode_eq, goodLeft, goodRight, Context.baseAmount_congr same]

private theorem Stake.encode_congr {form : Stake}
    (same : right.lookup form.token = left.lookup form.token)
    (goodLeft : form.validate left = .ok []) (goodRight : form.validate right = .ok []) :
    form.encode right = form.encode left := by
  rw [encode_eq, encode_eq, goodLeft, goodRight, Context.baseAmount_congr same]

namespace BeginVesting

variable {form : BeginVesting}

/-- Of a context the check of the steps reads the token alone, to know the total. -/
theorem checkSteps_congr (same : right.lookup form.token = left.lookup form.token) :
    form.checkSteps right = form.checkSteps left := by
  have total : form.total? right = form.total? left := by rw [total?, total?, same]
  rw [checkSteps, checkSteps, total]

private theorem instantiate_congr
    (same : right.config.unbondingSeconds = left.config.unbondingSeconds) (token : Token)
    (total : BaseAmount) :
    form.instantiate right token total = form.instantiate left token total := by
  rw [instantiate, instantiate, same]

private theorem encode_congr (agrees : left.Agrees right (.beginVesting form))
    (goodLeft : form.validate left = .ok []) (goodRight : form.validate right = .ok []) :
    form.encode right = form.encode left := by
  have same : right.lookup form.token = left.lookup form.token :=
    agrees.tokens _ List.mem_cons_self
  rw [encode_eq, encode_eq, goodLeft, goodRight, agrees.vestingFactory,
    Context.baseAmount_congr same]
  simp only [instantiate_congr agrees.unbonding]

end BeginVesting

namespace RegisterSlash

variable {form : RegisterSlash}

/-- What was in the past at the earlier time is in the past at the later one. -/
theorem validate_ease (later : left.now ≤ right.now) (good : form.validate left = []) :
    form.validate right = [] := by
  obtain ⟨fields, past⟩ := List.append_eq_nil_iff.mp good
  refine List.append_eq_nil_iff.mpr ⟨fields, if_neg fun future => ?_⟩
  have alreadyFuture : left.now < form.time := Nat.lt_of_le_of_lt later future
  rw [if_pos alreadyFuture] at past
  cases past

private theorem encode_congr (goodLeft : form.validate left = [])
    (goodRight : form.validate right = []) :
    form.encode right = form.encode left := by
  rw [encode, encode, goodLeft, goodRight]

end RegisterSlash

private theorem SetItem.encode_congr {form : SetItem} (same : right.dao = left.dao) :
    form.encode right = form.encode left := by
  rw [encode, encode, same]

private theorem RemoveItem.encode_congr {form : RemoveItem} (same : right.dao = left.dao) :
    form.encode right = form.encode left := by
  rw [encode, encode, same]

namespace Execute

private theorem mapM_coin_congr {funds : List Fund}
    (same : ∀ fund ∈ funds, right.lookup (.native fund.denom) = left.lookup (.native fund.denom)) :
    funds.mapM (coin right) = funds.mapM (coin left) := by
  induction funds with
  | nil => rfl
  | cons fund rest ih =>
    obtain ⟨first, others⟩ := List.forall_mem_cons.mp same
    have coins : coin right fund = coin left fund := by
      rw [coin, coin, Context.baseAmount_congr first]
    rw [List.mapM_cons, List.mapM_cons, coins, ih others]

private theorem encode_congr {form : Execute} (agrees : left.Agrees right (.execute form))
    (goodLeft : form.validate left = .ok []) (goodRight : form.validate right = .ok []) :
    form.encode right = form.encode left := by
  have coins := mapM_coin_congr fun fund member =>
    agrees.tokens (.native fund.denom) (List.mem_map_of_mem member)
  rw [encode, encode, goodLeft, goodRight, coins]

end Execute

namespace ActionKind

/-- A check that finds nothing finds nothing in a later context with more to spend. -/
theorem validate_ease (agrees : left.Agrees right action) (eases : left.Eases right action)
    (good : action.kind.validate action left = .ok []) :
    action.kind.validate action right = .ok [] := by
  cases action with
  | spend form =>
    obtain ⟨address, admits⟩ := Spend.validate_eq_nil_iff.mp good
    exact Spend.validate_eq_nil_iff.mpr
      ⟨address, admits.ease agrees eases List.mem_cons_self⟩
  | stake form =>
    obtain ⟨address, admits⟩ := Stake.validate_eq_nil_iff.mp good
    exact Stake.validate_eq_nil_iff.mpr
      ⟨address, admits.ease agrees eases List.mem_cons_self⟩
  | beginVesting form =>
    obtain ⟨texts, admits, steps⟩ := BeginVesting.validate_eq_nil_iff.mp good
    have same : form.checkSteps right = form.checkSteps left :=
      BeginVesting.checkSteps_congr (agrees.tokens _ List.mem_cons_self)
    exact BeginVesting.validate_eq_nil_iff.mpr
      ⟨texts, admits.ease agrees eases List.mem_cons_self, same.trans steps⟩
  | cancelVesting form => exact good
  | registerSlash form =>
    exact congrArg Except.ok (RegisterSlash.validate_ease eases.now (Except.ok.inj good))
  | setItem form => exact good
  | removeItem form => exact good
  | execute form =>
    obtain ⟨address, told, admits, once⟩ := Execute.validate_eq_nil_iff.mp good
    have eased (fund : Fund) (member : fund ∈ form.funds) :
        right.Admits (.native fund.denom) fund.amount :=
      (admits fund member).ease agrees eases (List.mem_map_of_mem member)
    exact Execute.validate_eq_nil_iff.mpr ⟨address, told, eased, once⟩

/-- Once two contexts have let an action through, they make the same of it. -/
private theorem encode_congr (agrees : left.Agrees right action)
    (goodLeft : action.kind.validate action left = .ok [])
    (goodRight : action.kind.validate action right = .ok []) :
    action.kind.encode action right = action.kind.encode action left := by
  cases action with
  | spend form =>
    exact Spend.encode_congr (agrees.tokens _ List.mem_cons_self) goodLeft goodRight
  | stake form =>
    exact Stake.encode_congr (agrees.tokens _ List.mem_cons_self) goodLeft goodRight
  | beginVesting form => exact BeginVesting.encode_congr agrees goodLeft goodRight
  | cancelVesting form => rfl
  | registerSlash form =>
    exact RegisterSlash.encode_congr (Except.ok.inj goodLeft) (Except.ok.inj goodRight)
  | setItem form => exact SetItem.encode_congr agrees.dao
  | removeItem form => exact RemoveItem.encode_congr agrees.dao
  | execute form => exact Execute.encode_congr agrees goodLeft goodRight

end ActionKind

namespace Registry

/-- Contexts that agree on what a message is made of make the same one, if any; the more lenient
refuses nothing more. -/
theorem encode_same_or_refused (registry : Registry) {action : Action} {left right : Context}
    (agrees : left.Agrees right action) :
    (∀ message other, registry.encode action left = .ok message →
      registry.encode action right = .ok other → other = message) ∧
    (left.Eases right action → ∀ message, registry.encode action left = .ok message →
      registry.encode action right = .ok message) := by
  refine ⟨fun message other onLeft onRight => ?_, fun eases message onLeft => ?_⟩
  · obtain ⟨_, madeLeft⟩ := encode_eq_ok_iff.mp onLeft
    obtain ⟨_, madeRight⟩ := encode_eq_ok_iff.mp onRight
    have same := ActionKind.encode_congr agrees (ActionKind.validate_of_encode madeLeft)
      (ActionKind.validate_of_encode madeRight)
    rw [madeLeft, madeRight] at same
    exact Except.ok.inj same
  · obtain ⟨inUse, made⟩ := encode_eq_ok_iff.mp onLeft
    have good := ActionKind.validate_of_encode made
    have eased := ActionKind.validate_ease agrees eases good
    refine encode_eq_ok_iff.mpr ⟨inUse, ?_⟩
    rw [ActionKind.encode_congr agrees good eased, made]

/-- A grant of four tokens, which unlocks a quarter after three months and the rest after nine. -/
def quarters : BeginVesting where
  recipient := "carol"
  title := "Quarters"
  description := none
  owner := some "dao"
  token := .native "utoken"
  amount := ⟨⟨4000000000000000000, by decide⟩⟩
  startTime := Context.sample.now
  steps :=
    [⟨⟨⟨25000000000000000000, by decide⟩⟩, ⟨⟨3, by decide⟩, .months⟩⟩,
      ⟨⟨⟨75000000000000000000, by decide⟩⟩, ⟨⟨9, by decide⟩, .months⟩⟩]

/-- A treasury that holds just the four tokens. -/
def enough : Context := Context.sample.withBalances [⟨.native "utoken", ⟨4000000, by decide⟩⟩]

/-- The same treasury on another day, with one token more and one that nobody asked for. -/
def plenty : Context :=
  { enough.withBalances
      [⟨.native "utoken", ⟨4000000, by decide⟩⟩, ⟨.cw20 "token", ⟨37, by decide⟩⟩,
        ⟨.native "utoken", ⟨1000000, by decide⟩⟩] with
    config := { Context.sampleConfig with chainId := "fork" }
    now := ⟨⟨1700000000000000001, by decide⟩⟩ }

theorem encode_same_or_refused_quarters :
    ∃ message, standard.encode (.beginVesting quarters) enough = .ok message ∧
      standard.encode (.beginVesting quarters) plenty = .ok message := by
  obtain ⟨message, made⟩ :
    ∃ message, standard.encode (.beginVesting quarters) enough = .ok message := ⟨_, rfl⟩
  have agrees : enough.Agrees plenty (.beginVesting quarters) := ⟨rfl, rfl, rfl, fun _ _ => rfl⟩
  have eases : enough.Eases plenty (.beginVesting quarters) := by
    refine ⟨by decide, fun key named after known => ?_⟩
    obtain rfl := List.mem_singleton.mp named
    have holds : plenty.balance? quarters.token = some ⟨5000000, by decide⟩ := by decide
    obtain rfl := Option.some.inj (holds.symm.trans known)
    exact ⟨⟨4000000, by decide⟩, by decide, by decide⟩
  exact ⟨message, made, (encode_same_or_refused standard agrees).2 eases message made⟩

end Registry

end Proposal
