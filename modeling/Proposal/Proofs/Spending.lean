import Mathlib.Tactic
import Proposal.Proofs.Amount.Rounding
import Proposal.Proofs.Encoding
import Proposal.Proofs.Funds

namespace Proposal

namespace Balances

/-- What the listed assets come to of one token. Assets that are no tokens do not count. -/
def listed (assets : List Asset) (key : TokenKey) : ℕ :=
  ((assets.filter fun asset => asset.kind.token? = some key).map fun asset => asset.amount.val).sum

private theorem listed_cons (asset : Asset) (rest : List Asset) (key : TokenKey) :
    listed (asset :: rest) key =
      (if asset.kind.token? = some key then asset.amount.val else 0) + listed rest key := by
  by_cases same : asset.kind.token? = some key <;> simp [listed, same]

private theorem get_insert (balances : Balances) (key other : TokenKey) (amount : BaseAmount) :
    get (balances.insert key amount) other =
      if other = key then amount else balances.get other := by
  rw [get, SortedMap.get?_insert]
  split <;> rfl

private theorem val_get_addAsset (balances : Balances) (asset : Asset) (key : TokenKey) :
    ((balances.addAsset asset).get key).val = min (Nat.pow 2 128 - 1)
      ((balances.get key).val + if asset.kind.token? = some key then asset.amount.val else 0) := by
  have fits : (balances.get key).val ≤ Nat.pow 2 128 - 1 := Nat.le_sub_one_of_lt (get ..).val_lt
  unfold addAsset
  split
  next none => rw [none, if_neg nofun, Nat.add_zero, Nat.min_eq_right fits]
  next own found =>
    rw [get_insert, found]
    by_cases same : key = own
    · rw [if_pos same, if_pos (congrArg some same.symm), Unsigned.val_saturatingAdd, same]
    · rw [if_neg same, if_neg fun equal => same (Option.some.inj equal).symm, Nat.add_zero,
        Nat.min_eq_right fits]

/-- Once a sum has reached the largest amount, it stays there. -/
theorem val_get_foldl (balances : Balances) (assets : List Asset) (key : TokenKey) :
    ((assets.foldl addAsset balances).get key).val =
      min (Nat.pow 2 128 - 1) ((balances.get key).val + listed assets key) := by
  induction assets generalizing balances with
  | nil => exact (Nat.min_eq_right (Nat.le_sub_one_of_lt (balances.get key).val_lt)).symm
  | cons asset rest ih =>
    rw [List.foldl_cons, ih, val_get_addAsset, listed_cons]
    omega

private theorem val_get_ofAssets (assets : List Asset) (key : TokenKey) :
    ((ofAssets assets).get key).val = min (Nat.pow 2 128 - 1) (listed assets key) := by
  have nothing : get .empty key = .zero := by rw [get, SortedMap.get?_empty, Option.getD_none]
  rw [ofAssets, val_get_foldl, nothing, Unsigned.val_zero, Nat.zero_add]

end Balances

variable {context : Context} {message : Message} {key : TokenKey} {amount : HumanAmount}
  {base : BaseAmount} {token : Token}

namespace Context

/-- So many base units may be spent for an amount: its exact value, not zero, and within the assets
of a treasury. -/
structure Releases (context : Context) (key : TokenKey) (amount : HumanAmount)
    (base : BaseAmount) : Prop where
  exactly : ∃ token, context.lookup key = .resolved token ∧
    (base.val : ℚ) = amount.rational * 10 ^ token.decimals.val
  positive : 0 < base.val
  bounded : base.val < 2 ^ 128
  covered : ∀ assets, context = context.withBalances assets →
    base.val ≤ min (2 ^ 128 - 1) (Balances.listed assets key)

private theorem Admits.releases (admits : context.Admits key amount)
    (found : context.lookup key = .resolved token)
    (exactly : Amount.Exact amount base token.decimals) : context.Releases key amount base := by
  obtain ⟨known, again, within⟩ := admits.2 token found
  obtain rfl := exactly.base_unique again
  refine ⟨⟨token, found, exactly.rational_eq⟩, ?_, base.val_lt, fun assets same => ?_⟩
  · exact Nat.pos_of_ne_zero (exactly.isZero_eq.mp admits.1)
  · have balance : context.balance? key = some (Balances.get (.ofAssets assets) key) := by
      rw [same]
      rfl
    exact Balances.val_get_ofAssets assets key ▸ Nat.not_lt.mp (within _ balance)

/-- A message moves an amount of a token and nothing else. -/
def SpendsOnly (context : Context) (message : Message) (key : TokenKey) (amount : HumanAmount) :
    Prop :=
  ∃ base, message.moved = [⟨key, base⟩] ∧ context.Releases key amount base

private theorem Admits.spendsOnly (admits : context.Admits key amount)
    (wellKeyed : context.tokens.WellKeyed) (found : context.lookup key = .resolved token)
    (exactly : Amount.Exact amount base token.decimals)
    (moved : message.moved = [⟨token.key, base⟩]) : context.SpendsOnly message key amount :=
  ⟨base, wellKeyed.key_of_lookup found ▸ moved, admits.releases found exactly⟩

end Context

/-- The message of an action spends exactly what its form says, or for a general call one coin for
each fund. -/
def Action.Spends (context : Context) (message : Message) : Action → Prop
  | .spend form => context.SpendsOnly message form.token form.amount
  | .stake form => context.SpendsOnly message form.token form.amount
  | .beginVesting form => context.SpendsOnly message form.token form.amount
  | .execute form =>
    List.Forall₂ (fun fund coin => coin.denom = fund.denom ∧
      context.Releases (.native fund.denom) fund.amount coin.amount) form.funds message.coins ∧
      (message.coins.map Coin.denom).Nodup
  | .cancelVesting _ => message.moved = []
  | .registerSlash _ => message.moved = []
  | .setItem _ => message.moved = []
  | .removeItem _ => message.moved = []

namespace Spend

variable {form : Spend}

theorem moved_messageOf (form : Spend) (token : Token) (base : BaseAmount) :
    (form.messageOf token base).moved = [⟨token.key, base⟩] := by
  obtain ⟨type, name, decimals, symbol⟩ := token
  cases type with
  | native => rfl
  | cw20 =>
    rw [messageOf, Message.moved, Message.contractTokens, Message.typedCall?_execute]
    rfl

private theorem spends_of_encode (wellKeyed : context.tokens.WellKeyed)
    (made : form.encode context = .ok message) : (Action.spend form).Spends context message := by
  obtain ⟨good, token, base, found, exactly, rfl⟩ := encode_eq_ok_iff.mp made
  exact (admits_of_validate good).spendsOnly wellKeyed found exactly
    (moved_messageOf form token base)

end Spend

namespace Stake

variable {form : Stake}

theorem moved_messageOf (form : Stake) (token : Token) (base : BaseAmount) :
    (form.messageOf token base).moved = [⟨token.key, base⟩] := by
  obtain ⟨type, name, decimals, symbol⟩ := token
  cases type with
  | native => exact Message.moved_of_foreignCall? (Message.typedCall?_execute _ _ _)
  | cw20 => exact Message.moved_of_hookedSend (HookedSend.ofMessage?_message (by decide) rfl _)

private theorem spends_of_encode (wellKeyed : context.tokens.WellKeyed)
    (made : form.encode context = .ok message) : (Action.stake form).Spends context message := by
  obtain ⟨good, token, base, found, exactly, rfl⟩ := encode_eq_ok_iff.mp made
  exact (admits_of_validate good).spendsOnly wellKeyed found exactly
    (moved_messageOf form token base)

end Stake

namespace BeginVesting

variable {form : BeginVesting}

theorem moved_messageOf (form : BeginVesting) (factory : String) (token : Token)
    (base : BaseAmount) (instantiate : VestingContract.Instantiate) :
    (form.messageOf factory token base instantiate).moved = [⟨token.key, base⟩] := by
  obtain ⟨type, name, decimals, symbol⟩ := token
  cases type with
  | native => exact Message.moved_of_foreignCall? (Message.typedCall?_execute _ _ _)
  | cw20 => exact Message.moved_of_hookedSend (HookedSend.ofMessage?_message (by decide) rfl _)

private theorem spends_of_encode (wellKeyed : context.tokens.WellKeyed)
    (made : form.encode context = .ok message) :
    (Action.beginVesting form).Spends context message := by
  obtain ⟨good, factory, token, base, instantiate, _, found, exactly, _, rfl⟩ :=
    encode_eq_ok_iff.mp made
  exact (admits_of_validate good).spendsOnly wellKeyed found exactly
    (moved_messageOf form factory token base instantiate)

end BeginVesting

namespace Execute

variable {form : Execute}

/-- If no name comes a second time, the names differ from one another and from those seen before. -/
theorem nodup_of_repeated {seen names : List String} (distinct : seen.Nodup)
    (none : repeated seen names = []) : (names.reverse ++ seen).Nodup := by
  induction names generalizing seen with
  | nil => exact distinct
  | cons name rest ih =>
    rw [repeated] at none
    split at none
    next => cases none
    next notOnce =>
      have fresh : name ∉ seen := fun member =>
        notOnce (List.count_eq_one_of_mem distinct member)
      rw [List.reverse_cons, List.append_assoc]
      exact ih (List.nodup_cons.mpr ⟨fresh, distinct⟩) none

private theorem nodup_of_validate (good : form.validate context = .ok []) :
    (form.funds.map Fund.denom).Nodup := by
  obtain ⟨_, _, _, once⟩ := validate_eq_nil_iff.mp good
  simpa using nodup_of_repeated List.nodup_nil once

private theorem spends_of_encode (wellKeyed : context.tokens.WellKeyed)
    (made : form.encode context = .ok message) : (Action.execute form).Spends context message := by
  obtain ⟨good, coins, pays, rfl⟩ := encode_eq_ok_iff.mp made
  have spends : List.Forall₂ (fun fund coin => coin.denom = fund.denom ∧
      context.Releases (.native fund.denom) fund.amount coin.amount) form.funds coins := by
    refine ((List.forall₂_and_left _ _).mpr ⟨admits_of_validate good, pays⟩).imp ?_
    rintro fund coin ⟨admits, token, found, name, exactly⟩
    have own := congrArg TokenKey.name (wellKeyed.key_of_lookup found)
    exact ⟨name ▸ own, admits.releases found exactly⟩
  have denoms : coins.map Coin.denom = form.funds.map Fund.denom := by
    rw [← List.forall₂_eq_eq_eq, List.forall₂_map_left_iff, List.forall₂_map_right_iff]
    exact (spends.imp fun _ _ spend => spend.1).flip
  exact ⟨spends, denoms ▸ nodup_of_validate good⟩

end Execute

private theorem ActionKind.spends_of_encode {action : Action} (wellKeyed : context.tokens.WellKeyed)
    (made : action.kind.encode action context = .ok message) : action.Spends context message := by
  cases action with
  | spend form => exact Spend.spends_of_encode wellKeyed made
  | stake form => exact Stake.spends_of_encode wellKeyed made
  | beginVesting form => exact BeginVesting.spends_of_encode wellKeyed made
  | execute form => exact Execute.spends_of_encode wellKeyed made
  | cancelVesting form =>
    obtain ⟨_, rfl⟩ := CancelVesting.encode_eq_ok_iff.mp made
    exact Message.moved_of_foreignCall? (Message.typedCall?_execute _ _ _)
  | registerSlash form =>
    obtain ⟨_, rfl⟩ := RegisterSlash.encode_eq_ok_iff.mp made
    exact Message.moved_of_foreignCall? (Message.typedCall?_execute _ _ _)
  | setItem form =>
    obtain ⟨_, rfl⟩ := SetItem.encode_eq_ok_iff.mp made
    exact Message.moved_of_foreignCall? (Message.typedCall?_execute _ _ _)
  | removeItem form =>
    obtain ⟨_, rfl⟩ := RemoveItem.encode_eq_ok_iff.mp made
    exact Message.moved_of_foreignCall? (Message.typedCall?_execute _ _ _)

namespace Registry

/-- Encoding never rounds and never overspends. -/
theorem encode_spends_exactly (registry : Registry) {action : Action} {context : Context}
    {message : Message} (reachable : context.tokens.Reachable)
    (made : registry.encode action context = .ok message) : action.Spends context message :=
  ActionKind.spends_of_encode reachable.wellKeyed (encode_eq_ok_iff.mp made).2

/-- Three quarters of a contract token with two decimals. -/
def pension : Spend := ⟨"carol", .cw20 "token", ⟨⟨750000000000000000, by decide⟩⟩⟩

/-- Just as much, in two parts among assets of other kinds and the same name. -/
def pensionAssets : List Asset :=
  [⟨.cw20 "token", ⟨33, by decide⟩⟩, ⟨.cw1155 "token" "7", ⟨400, by decide⟩⟩,
    ⟨.native "token", ⟨500, by decide⟩⟩, ⟨.cw20 "token", ⟨42, by decide⟩⟩]

def pensionFund : Context :=
  (Context.sample.withToken ⟨.cw20, "token", ⟨2, by decide⟩, "CW"⟩).withBalances pensionAssets

/-- All of the token is spent, and one base unit more is refused. -/
theorem encode_spends_exactly_pension :
    (∃ message base, standard.encode (.spend pension) pensionFund = .ok message ∧
      (Action.spend pension).Spends pensionFund message ∧
      message.moved = [⟨.cw20 "token", base⟩] ∧ base.val = 75 ∧
      base.val = Balances.listed pensionAssets (.cw20 "token")) ∧
    ∀ message, standard.encode
      (.spend { pension with amount := ⟨⟨760000000000000000, by decide⟩⟩ }) pensionFund ≠
        .ok message := by
  have reachable : pensionFund.tokens.Reachable := .insert (.insert .empty _) _
  have listed : Balances.listed pensionAssets (.cw20 "token") = 75 := rfl
  have value : ∀ {amount base}, pensionFund.Releases (.cw20 "token") amount base →
      base.val * 10 ^ 16 = amount.atomics.val := by
    intro amount base releases
    obtain ⟨token, found, exactly⟩ := releases.exactly
    cases found
    have one : (Decimal.one : ℚ) = 10 ^ 16 * 10 ^ 2 := by
      norm_num [Decimal.one, decimalPlaces]
    have scaled : (base.val : ℚ) * 10 ^ 16 = amount.atomics.val := by
      rw [exactly, Decimal.rational, one]
      field_simp
    exact_mod_cast scaled
  constructor
  · obtain ⟨message, made⟩ :
      ∃ message, standard.encode (.spend pension) pensionFund = .ok message := ⟨_, rfl⟩
    obtain ⟨base, moved, releases⟩ := encode_spends_exactly standard reachable made
    have units : base.val = 75 :=
      Nat.eq_of_mul_eq_mul_right (by decide : 0 < 10 ^ 16) (value releases)
    exact ⟨message, base, made, ⟨base, moved, releases⟩, moved, units, units.trans listed.symm⟩
  · intro message made
    obtain ⟨base, _, releases⟩ := encode_spends_exactly standard reachable made
    have units : base.val = 76 :=
      Nat.eq_of_mul_eq_mul_right (by decide : 0 < 10 ^ 16) (value releases)
    have covered : base.val ≤ Balances.listed pensionAssets (.cw20 "token") :=
      (releases.covered pensionAssets rfl).trans (Nat.min_le_right _ _)
    omega

end Registry

end Proposal
