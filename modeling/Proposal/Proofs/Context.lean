import Mathlib.Tactic
import Proposal.Action.Basic
import Proposal.Proofs.Amount

namespace Proposal

namespace TokenCache

variable {cache : TokenCache} {key : TokenKey} {token : Token}
  {property : TokenKey → Token → Prop}

/-- Each resolved token has a property, given the key that it is kept under. -/
def Holds (cache : TokenCache) (property : TokenKey → Token → Prop) : Prop :=
  ∀ key token, cache.state? key = some (.resolved token) → property key token

/-- Metadata is kept under the key of its token. -/
def WellKeyed (cache : TokenCache) : Prop :=
  ∀ key token, cache.state? key = some (.resolved token) → token.key = key

theorem holds_empty : empty.Holds property := by
  intro key token found
  cases found

theorem Holds.set (holds : cache.Holds property) {state : TokenState}
    (new : ∀ token, state = .resolved token → property key token) :
    (cache.set key state).Holds property := by
  intro other token found
  rw [state?_set] at found
  split at found
  next same => exact same ▸ new token (Option.some.inj found)
  next => exact holds other token found

theorem Holds.insert (holds : cache.Holds property) (own : property token.key token) :
    (cache.insert token).Holds property := by
  apply holds.set
  intro other same
  cases same
  exact own

theorem Holds.insertAll {natives : List NativeToken} (holds : cache.Holds property)
    (own : ∀ native ∈ natives, property native.token.key native.token) :
    (natives.foldl (fun cache native => cache.insert native.token) cache).Holds property := by
  induction natives generalizing cache with
  | nil => exact holds
  | cons native rest ih =>
    obtain ⟨first, others⟩ := List.forall_mem_cons.mp own
    exact ih (holds.insert first) others

theorem Holds.markFailed (holds : cache.Holds property) (key : TokenKey) (reason : String) :
    (cache.markFailed key reason).Holds property := by
  apply holds.set
  intro token same
  cases same

theorem Holds.markLoading (holds : cache.Holds property) (key : TokenKey) :
    (cache.markLoading key).Holds property := by
  rw [TokenCache.markLoading]
  split
  · exact holds
  · apply holds.set
    intro token same
    cases same

theorem lookup_eq_resolved_iff :
    cache.lookup key = .resolved token ↔ cache.state? key = some (.resolved token) := by
  unfold lookup
  split <;> simp_all

/-- The metadata that a cache finds is that of the token it was asked for. -/
theorem WellKeyed.key_of_lookup (wellKeyed : cache.WellKeyed)
    (found : cache.lookup key = .resolved token) : token.key = key :=
  wellKeyed key token (lookup_eq_resolved_iff.mp found)

/-- The caches that there can be: the operations on caches are the only way to a cache. -/
inductive Reachable : TokenCache → Prop
  | empty : Reachable empty
  | insert {cache : TokenCache} (before : Reachable cache) (token : Token) :
      Reachable (cache.insert token)
  | markLoading {cache : TokenCache} (before : Reachable cache) (key : TokenKey) :
      Reachable (cache.markLoading key)
  | markFailed {cache : TokenCache} (before : Reachable cache) (key : TokenKey)
      (reason : String) : Reachable (cache.markFailed key reason)

theorem Reachable.wellKeyed (reachable : cache.Reachable) : cache.WellKeyed := by
  change cache.Holds fun key token => token.key = key
  induction reachable with
  | empty => exact holds_empty
  | insert _ token wellKeyed => exact wellKeyed.insert rfl
  | markLoading _ key wellKeyed => exact wellKeyed.markLoading key
  | markFailed _ key reason wellKeyed => exact wellKeyed.markFailed key reason

end TokenCache

namespace Context

variable {context : Context} {key : TokenKey} {querier : Querier}
  {property : TokenKey → Token → Prop}

/-- The contexts that the operations on contexts lead to. A querier may answer anything. -/
inductive Reachable : Context → Prop
  | new {config : ChainConfig} {dao : String} {now : Timestamp} {context : Context}
      (made : Context.new config dao now = .ok context) : Reachable context
  | withVestingFactory {context : Context} (before : Reachable context) (factory : String) :
      Reachable (context.withVestingFactory factory)
  | withToken {context : Context} (before : Reachable context) (token : Token) :
      Reachable (context.withToken token)
  | withBalances {context : Context} (before : Reachable context) (assets : List Asset) :
      Reachable (context.withBalances assets)
  | markLoading {context : Context} (before : Reachable context) (key : TokenKey) :
      Reachable (context.markLoading key)
  | markFailed {context : Context} (before : Reachable context) (key : TokenKey)
      (reason : String) : Reachable (context.markFailed key reason)
  | resolveTokens {context : Context} (before : Reachable context) (querier : Querier)
      (keys : List TokenKey) : Reachable (context.resolveTokens querier keys)
  | resolveVestingFactory {context : Context} (before : Reachable context) (querier : Querier) :
      Reachable (context.resolveVestingFactory querier).1

theorem new_tokens {config : ChainConfig} {dao : String} {now : Timestamp}
    (made : Context.new config dao now = .ok context) :
    context.tokens =
      config.nativeTokens.foldl (fun cache native => cache.insert native.token) .empty := by
  obtain ⟨_, _, same⟩ := bind_eq_ok_iff.mp made
  cases same
  rfl

/-- A property of all tokens that a querier answers with is kept when tokens are asked for. -/
theorem holds_resolveToken
    (answers : ∀ key token, querier.token key = .ok token → property token.key token)
    (holds : context.tokens.Holds property) (key : TokenKey) :
    (context.resolveToken querier key).tokens.Holds property := by
  have started := holds.markLoading key
  unfold resolveToken
  split
  · exact holds
  · simp only
    split
    next token answered => exact started.insert (answers key token answered)
    next error _ => exact started.markFailed key error.message

theorem holds_resolveTokens
    (answers : ∀ key token, querier.token key = .ok token → property token.key token)
    (holds : context.tokens.Holds property) (keys : List TokenKey) :
    (context.resolveTokens querier keys).tokens.Holds property := by
  induction keys generalizing context with
  | nil => exact holds
  | cons key rest ih => exact ih (holds_resolveToken answers holds key)

private theorem resolveVestingFactory_tokens (context : Context) (querier : Querier) :
    (context.resolveVestingFactory querier).1.tokens = context.tokens := by
  unfold resolveVestingFactory
  split <;> rfl

theorem Reachable.wellKeyed (reachable : context.Reachable) : context.tokens.WellKeyed := by
  change context.tokens.Holds fun key token => token.key = key
  induction reachable with
  | new made =>
    rw [new_tokens made]
    exact TokenCache.holds_empty.insertAll fun _ _ => rfl
  | withVestingFactory _ factory wellKeyed => exact wellKeyed
  | withToken _ token wellKeyed => exact wellKeyed.insert rfl
  | withBalances _ assets wellKeyed => exact wellKeyed
  | markLoading _ key wellKeyed => exact wellKeyed.markLoading key
  | markFailed _ key reason wellKeyed => exact wellKeyed.markFailed key reason
  | resolveTokens _ querier keys wellKeyed =>
    exact holds_resolveTokens (fun _ _ _ => rfl) wellKeyed keys
  | resolveVestingFactory _ querier wellKeyed =>
    rw [resolveVestingFactory_tokens]
    exact wellKeyed

theorem lookup_withToken (context : Context) (token : Token) (key : TokenKey) :
    (context.withToken token).lookup key =
      if key = token.key then .resolved token else context.lookup key := by
  simp only [lookup, withToken, TokenCache.lookup, TokenCache.insert, TokenCache.state?_set]
  by_cases own : key = token.key
  · rw [if_pos own, if_pos own]
  · rw [if_neg own, if_neg own]

/-- The metadata that a context finds is that of the token it was asked for. -/
theorem Reachable.key_of_lookup (reachable : context.Reachable) {token : Token}
    (found : context.lookup key = .resolved token) : token.key = key :=
  reachable.wellKeyed.key_of_lookup found

/-- A chain with one native token. -/
def sampleConfig : ChainConfig :=
  ⟨"chain", [⟨"utoken", "TOKEN", ⟨6, by decide⟩⟩], ⟨86400, by decide⟩⟩

/-- The context of a DAO on that chain, with a vesting factory. -/
def sample : Context where
  config := sampleConfig
  dao := "dao"
  now := ⟨⟨1700000000000000000, by decide⟩⟩
  vestingFactory := some "factory"
  tokens := TokenCache.empty.insert ⟨.native, "utoken", ⟨6, by decide⟩, "TOKEN"⟩
  balances := none

theorem reachable_sample : sample.Reachable := by
  have made : Context.new sampleConfig sample.dao sample.now =
    .ok { sample with vestingFactory := none } := rfl
  exact .withVestingFactory (.new made) "factory"

theorem token_eq_ok_iff {token : Token} :
    context.token key = .ok token ↔ context.lookup key = .resolved token := by
  unfold Context.token
  split <;> simp_all

theorem baseAmount_eq_ok_iff {amount : HumanAmount} {token : Token} {base : BaseAmount} :
    context.baseAmount key amount = .ok (token, base) ↔
      context.lookup key = .resolved token ∧ Amount.toBase amount token.decimals = .ok base := by
  rw [← token_eq_ok_iff, baseAmount, bind_eq_ok_iff]
  constructor
  · rintro ⟨found, resolved, scaled⟩
    obtain ⟨_, scaled, same⟩ := bind_eq_ok_iff.mp scaled
    cases same
    exact ⟨resolved, scaled⟩
  · rintro ⟨resolved, scaled⟩
    exact ⟨token, resolved, bind_eq_ok_iff.mpr ⟨base, scaled, rfl⟩⟩

/-- The context shows so many base units of a token as a human amount. -/
def Shows (context : Context) (key : TokenKey) (human : HumanAmount) (base : BaseAmount) : Prop :=
  ∃ token, context.lookup key = .resolved token ∧ Amount.Exact human base token.decimals

theorem withTokenOf_eq_matched {α : Type} {decode : Token → Result (Match α)} {form : α} :
    context.withTokenOf key decode = .ok (.matched form) ↔
      ∃ token, context.lookup key = .resolved token ∧ decode token = .ok (.matched form) := by
  unfold withTokenOf
  split <;> simp_all

end Context

end Proposal
