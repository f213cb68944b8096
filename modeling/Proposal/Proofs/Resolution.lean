import Mathlib.Tactic
import Proposal.Proofs.Registry
import Proposal.Proofs.Requirement

namespace Proposal

namespace Connection

variable {connection : Connection} {config : ChainConfig} {key : TokenKey} {token : Token}

private theorem nativeToken_key {denom : String} (found : nativeToken config denom = .ok token) :
    token.key = .native denom := by
  obtain ⟨native, known, rfl⟩ := map_eq_ok_iff.mp found
  have same := List.find?_some (orError_eq_ok_iff.mp known)
  exact congrArg TokenKey.native (of_decide_eq_true same)

private theorem key_of_token (answered : connection.token config key = .ok token) :
    token.key = key := by
  obtain ⟨type, name⟩ := key
  cases type with
  | native => exact nativeToken_key answered
  | cw20 =>
    obtain ⟨info, _, checked⟩ := bind_eq_ok_iff.mp answered
    obtain ⟨_, _, same⟩ := bind_eq_ok_iff.mp checked
    cases same
    rfl

end Connection

private theorem Offline.key_of_token {chain : Offline} {key : TokenKey} {token : Token}
    (answered : chain.token key = .ok token) : token.key = key := by
  unfold Offline.token at answered
  split at answered
  next given found =>
    cases answered
    simpa using List.find?_some found
  next =>
    obtain ⟨type, name⟩ := key
    cases type with
    | native => exact Connection.nativeToken_key answered
    | cw20 => cases answered

namespace Querier

variable {querier : Querier} {key : TokenKey} {token : Token}

/-- The queriers that there are: of what was given beforehand, and of a connection to a chain. -/
inductive OfChain : Querier → Prop
  | offline (chain : Offline) : OfChain chain.querier
  | connected {connection : Connection} {config : ChainConfig} {querier : Querier}
      (made : connection.querier config = .ok querier) : OfChain querier

/-- The token that a querier answers with is the one that it was asked for. -/
theorem OfChain.key_of_token (known : querier.OfChain) (answered : querier.token key = .ok token) :
    token.key = key := by
  cases known with
  | offline chain => exact Offline.key_of_token answered
  | connected made =>
    unfold Connection.querier at made
    split at made
    · cases made
      exact Connection.key_of_token answered
    · cases made

/-- The state of a token once the querier was asked for it. -/
def outcome (querier : Querier) (key : TokenKey) : TokenState :=
  match querier.token key with
  | .ok token => .resolved token
  | .error error => .failed error.message

end Querier

namespace TokenCache

variable {cache other : TokenCache} {key : TokenKey}

private theorem isResolved_congr (same : cache.state? key = other.state? key) :
    cache.isResolved key = other.isResolved key := by
  rw [isResolved, isResolved, same]

private theorem isResolved_eq_true_iff :
    cache.isResolved key = true ↔ ∃ token, cache.state? key = some (.resolved token) := by
  unfold isResolved
  split <;> simp_all

theorem isResolved_eq_false_iff :
    cache.isResolved key = false ↔ ∀ token, cache.state? key ≠ some (.resolved token) := by
  rw [← Bool.not_eq_true, isResolved_eq_true_iff, not_exists]

private theorem state?_markLoading (lacking : cache.isResolved key = false) (other : TokenKey) :
    (cache.markLoading key).state? other =
      if other = key then some .loading else cache.state? other := by
  rw [markLoading, if_neg (by simp [lacking]), state?_set]

end TokenCache

namespace Context

variable {querier : Querier} {context : Context} {key : TokenKey}

private theorem state?_resolveToken (known : querier.OfChain) (context : Context)
    (asked key : TokenKey) :
    (context.resolveToken querier asked).tokens.state? key =
      if key = asked ∧ context.tokens.isResolved asked = false then some (querier.outcome asked)
      else context.tokens.state? key := by
  unfold resolveToken
  cases resolved : context.tokens.isResolved asked with
  | true => simp
  | false =>
    rw [if_neg Bool.false_ne_true]
    have loading := TokenCache.state?_markLoading resolved key
    cases answered : querier.token asked with
    | ok token =>
      have outcome : querier.outcome asked = .resolved token := by rw [Querier.outcome, answered]
      simp only [withToken, markLoading, TokenCache.insert, TokenCache.state?_set,
        known.key_of_token answered, loading, outcome, and_true]
      split <;> rfl
    | error error =>
      have outcome : querier.outcome asked = .failed error.message := by
        rw [Querier.outcome, answered]
      simp only [markFailed, markLoading, TokenCache.markFailed, TokenCache.state?_set, loading,
        outcome, and_true]
      split <;> rfl

/-- The tokens that were asked for and not resolved yet are as the querier answered; all others are
as they were. -/
theorem state?_resolveTokens (known : querier.OfChain) (context : Context) (keys : List TokenKey)
    (key : TokenKey) :
    (context.resolveTokens querier keys).tokens.state? key =
      if key ∈ keys ∧ context.tokens.isResolved key = false then some (querier.outcome key)
      else context.tokens.state? key := by
  induction keys generalizing context with
  | nil => simp [resolveTokens]
  | cons asked rest ih =>
    have step := state?_resolveToken known context asked key
    change ((context.resolveToken querier asked).resolveTokens querier rest).tokens.state? key = _
    rw [ih, step]
    by_cases fresh : key = asked ∧ context.tokens.isResolved asked = false
    · -- Whatever the rest asks, the answer for this token is the same.
      obtain ⟨rfl, lacking⟩ := fresh
      simp [lacking]
    · rw [if_neg fresh] at step ⊢
      rw [TokenCache.isResolved_congr step]
      have member : key ∈ asked :: rest ∧ context.tokens.isResolved key = false ↔
          key ∈ rest ∧ context.tokens.isResolved key = false := by
        rw [List.mem_cons]
        constructor
        · rintro ⟨rfl | later, lacking⟩
          · exact absurd ⟨rfl, lacking⟩ fresh
          · exact ⟨later, lacking⟩
        · rintro ⟨later, lacking⟩
          exact ⟨.inr later, lacking⟩
      simp only [member]

private theorem resolveToken_eq (querier : Querier) (context : Context) (key : TokenKey) :
    context.resolveToken querier key =
      { context with tokens := (context.resolveToken querier key).tokens } := by
  unfold resolveToken
  split
  · rfl
  · simp only
    split <;> rfl

/-- Asking for tokens changes nothing but what is known of tokens. -/
theorem resolveTokens_eq (querier : Querier) (context : Context) (keys : List TokenKey) :
    context.resolveTokens querier keys =
      { context with tokens := (context.resolveTokens querier keys).tokens } := by
  induction keys generalizing context with
  | nil => rfl
  | cons key rest ih =>
    change (context.resolveToken querier key).resolveTokens querier rest =
      { context with
        tokens := ((context.resolveToken querier key).resolveTokens querier rest).tokens }
    rw [ih, resolveToken_eq]

/-- A token that was asked for is resolved, or it failed as the querier says. -/
theorem lookup_resolveTokens (known : querier.OfChain) (context : Context) {keys : List TokenKey}
    (asked : key ∈ keys) :
    (∃ token, (context.resolveTokens querier keys).lookup key = .resolved token) ∨
      ∃ error, querier.token key = .error error ∧
        (context.resolveTokens querier keys).lookup key = .failed error.message := by
  have state := state?_resolveTokens known context keys key
  cases resolved : context.tokens.isResolved key with
  | true =>
    obtain ⟨token, before⟩ := TokenCache.isResolved_eq_true_iff.mp resolved
    rw [if_neg (by simp [resolved]), before] at state
    exact .inl ⟨token, TokenCache.lookup_eq_resolved_iff.mpr state⟩
  | false =>
    rw [if_pos ⟨asked, resolved⟩, Querier.outcome] at state
    cases answered : querier.token key with
    | ok token =>
      rw [answered] at state
      exact .inl ⟨token, TokenCache.lookup_eq_resolved_iff.mpr state⟩
    | error error =>
      rw [answered] at state
      exact .inr ⟨error, rfl, by rw [lookup, TokenCache.lookup, state]⟩

end Context

namespace Registry

variable {registry : Registry} {messages : List Message} {context : Context} {key : TokenKey}

private theorem mem_distinct {seen keys : List TokenKey} :
    key ∈ distinct seen keys ↔ key ∈ keys ∧ key ∉ seen := by
  induction keys generalizing seen with
  | nil => simp [distinct]
  | cons head rest ih =>
    unfold distinct
    by_cases known : head ∈ seen
    · rw [if_pos known, ih, List.mem_cons]
      constructor
      · rintro ⟨later, fresh⟩
        exact ⟨.inr later, fresh⟩
      · rintro ⟨rfl | later, fresh⟩
        · exact absurd known fresh
        · exact ⟨later, fresh⟩
    · rw [if_neg known, List.mem_cons, ih, List.mem_cons, List.mem_cons, not_or]
      by_cases same : key = head
      · subst same
        simp [known]
      · simp [same]

/-- The tokens to resolve are those that some kind in use requires for a message that it claims. -/
theorem mem_requiredTokens_iff :
    key ∈ registry.requiredTokens messages ↔
      ∃ message ∈ messages, ∃ kind ∈ registry.kinds, kind.claims message = true ∧
        key ∈ kind.requiredTokens message := by
  simp [requiredTokens, mem_distinct, tokensOf, and_assoc]

theorem required_of_decode_pending {message : Message} {kind : ActionKind} {token : TokenKey}
    (member : message ∈ messages)
    (found : registry.decode message context = .pending kind token) :
    token ∈ registry.requiredTokens messages ∧ context.lookup token = .pending := by
  obtain ⟨decider, inUse, decides⟩ := decides_of_decodeWith found nofun
  cases decides with
  | pending claims decoded =>
    obtain ⟨required, lacking⟩ := ActionKind.lookup_of_decode_pending decoded
    exact ⟨mem_requiredTokens_iff.mpr ⟨message, member, kind, inUse, claims, required⟩, lacking⟩

theorem required_of_decode_unresolved {message : Message} {kind : ActionKind} {token : TokenKey}
    {reason : String} (member : message ∈ messages)
    (found : registry.decode message context = .unresolved kind token reason) :
    token ∈ registry.requiredTokens messages ∧ context.lookup token = .failed reason := by
  obtain ⟨decider, inUse, decides⟩ := decides_of_decodeWith found nofun
  cases decides with
  | unresolved claims decoded =>
    obtain ⟨required, failed⟩ := ActionKind.lookup_of_decode_failed decoded
    exact ⟨mem_requiredTokens_iff.mpr ⟨message, member, kind, inUse, claims, required⟩, failed⟩

/-- Once all required tokens were asked for, no message is pending; an unresolved one names a token
that the querier refused. -/
theorem decodeAll_of_prefetched (registry : Registry) (messages : List Message)
    (context : Context) {querier : Querier} (known : querier.OfChain) :
    ∀ decoded ∈ registry.decodeAll messages
        (context.resolveTokens querier (registry.requiredTokens messages)),
      (∀ kind token, decoded ≠ .pending kind token) ∧
      ∀ kind token reason, decoded = .unresolved kind token reason →
        token ∈ registry.requiredTokens messages ∧
          ∃ error, querier.token token = .error error ∧ error.message = reason := by
  intro decoded member
  obtain ⟨message, listed, same⟩ := List.mem_map.mp member
  constructor
  · rintro kind token rfl
    obtain ⟨required, lacking⟩ := required_of_decode_pending listed same
    rcases Context.lookup_resolveTokens known context required with
      ⟨metadata, found⟩ | ⟨error, _, found⟩
    · rw [lacking] at found
      cases found
    · rw [lacking] at found
      cases found
  · rintro kind token reason rfl
    obtain ⟨required, failed⟩ := required_of_decode_unresolved listed same
    rcases Context.lookup_resolveTokens known context required with
      ⟨metadata, found⟩ | ⟨error, answered, found⟩
    · rw [failed] at found
      cases found
    · rw [failed] at found
      cases found
      exact ⟨required, error, answered, rfl⟩

/-- What is known offline of the sample chain: its native token only. -/
def sampleChain : Offline := ⟨Context.sampleConfig, [], none⟩

/-- A transfer of an unknown contract token stays unresolved for it, also where the search for it
had begun. -/
theorem decodeAll_of_prefetched_transfer :
    let messages : List Message :=
      [.execute "token" (valueOf (Cw20.Execute.transfer "alice" ⟨5, by decide⟩)) [],
        .bankSend "alice" [⟨"utoken", ⟨5, by decide⟩⟩]]
    let context := Context.sample.markLoading (.cw20 "token")
    ∃ reason action,
      standard.decodeAll messages
          (context.resolveTokens sampleChain.querier (standard.requiredTokens messages)) =
        [.unresolved .spend (.cw20 "token") reason, .matched .spend action] ∧
      ∃ error, sampleChain.querier.token (.cw20 "token") = .error error ∧
        error.message = reason := by
  intro messages context
  have complete := decodeAll_of_prefetched standard messages context (.offline sampleChain)
  refine ⟨_, _, rfl, ?_⟩
  exact ((complete _ List.mem_cons_self).2 _ _ _ rfl).2

end Registry

end Proposal
