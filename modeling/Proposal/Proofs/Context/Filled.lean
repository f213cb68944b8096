import Mathlib.Tactic
import Proposal.Proofs.Config
import Proposal.Proofs.Resolution

namespace Proposal

namespace Connection

variable {connection : Connection} {config : ChainConfig} {key : TokenKey} {token : Token}

/-- A chain may answer anything; what is made of it has a precision that amounts can be given in. -/
theorem decimals_of_token (checked : config.check = .ok ())
    (answered : connection.token config key = .ok token) :
    token.decimals.val ≤ Amount.maxDecimals := by
  obtain ⟨type, name⟩ := key
  cases type with
  | native =>
    obtain ⟨native, known, rfl⟩ := map_eq_ok_iff.mp answered
    have listed := List.mem_of_find?_eq_some (orError_eq_ok_iff.mp known)
    exact ((ChainConfig.check_eq_ok_iff.mp checked).natives native listed).precise
  | cw20 =>
    obtain ⟨info, _, rest⟩ := bind_eq_ok_iff.mp answered
    obtain ⟨_, within, same⟩ := bind_eq_ok_iff.mp rest
    cases same
    by_contra beyond
    rw [Amount.checkDecimals_eq_error beyond] at within
    cases within

end Connection

namespace Context

variable {context : Context} {querier : Querier}

/-- The contexts filled from the chain of their config, by connections that may answer differently
each time. -/
inductive Filled : Context → Prop
  | new {config : ChainConfig} {dao : String} {now : Timestamp} {context : Context}
      (made : Context.new config dao now = .ok context) : Filled context
  | resolveTokens {context : Context} (before : Filled context) {connection : Connection}
      {querier : Querier} (made : connection.querier context.config = .ok querier)
      (keys : List TokenKey) : Filled (context.resolveTokens querier keys)
  | markLoading {context : Context} (before : Filled context) (key : TokenKey) :
      Filled (context.markLoading key)
  | markFailed {context : Context} (before : Filled context) (key : TokenKey) (reason : String) :
      Filled (context.markFailed key reason)
  | changed {context changed : Context} (before : Filled context)
      (config : changed.config = context.config) (tokens : changed.tokens = context.tokens) :
      Filled changed

/-- What is kept while a context is filled. -/
structure Sound (context : Context) : Prop where
  checked : context.config.check = .ok ()
  resolved : context.tokens.Holds fun key token =>
    token.key = key ∧ token.decimals.val ≤ Amount.maxDecimals

private theorem sound_new {config : ChainConfig} {dao : String} {now : Timestamp}
    (made : Context.new config dao now = .ok context) : context.Sound := by
  have tokens := new_tokens made
  obtain ⟨_, checked, same⟩ := bind_eq_ok_iff.mp made
  have config : context.config = config := by
    cases same
    rfl
  refine ⟨config ▸ checked, ?_⟩
  rw [tokens]
  refine TokenCache.holds_empty.insertAll ?_
  intro native listed
  exact ⟨rfl, ((ChainConfig.check_eq_ok_iff.mp checked).natives native listed).precise⟩

theorem Sound.resolveTokens (sound : context.Sound) {connection : Connection}
    (made : connection.querier context.config = .ok querier) (keys : List TokenKey) :
    (context.resolveTokens querier keys).Sound := by
  refine ⟨?_, holds_resolveTokens ?_ sound.resolved keys⟩
  · rw [resolveTokens_eq]
    exact sound.checked
  · intro key token answered
    unfold Connection.querier at made
    split at made
    · cases made
      exact ⟨rfl, Connection.decimals_of_token sound.checked answered⟩
    · cases made

theorem Filled.sound (filled : context.Filled) : context.Sound := by
  induction filled with
  | new made => exact sound_new made
  | resolveTokens _ made keys sound => exact sound.resolveTokens made keys
  | markLoading _ key sound => exact ⟨sound.checked, sound.resolved.markLoading key⟩
  | markFailed _ key reason sound => exact ⟨sound.checked, sound.resolved.markFailed key reason⟩
  | changed _ config tokens sound => exact ⟨config ▸ sound.checked, tokens ▸ sound.resolved⟩

end Context

end Proposal
