import Mathlib.Tactic
import Proposal.Proofs.Config
import Proposal.Proofs.Resolution.Order

/-! Caches keep the last entry for a denom, queriers find the first; no config in order lists a
denom twice. -/
namespace Proposal

namespace ChainConfig

variable {config : ChainConfig} {native : NativeToken} {denom : String}

private theorem nativeToken?_of_mem (distinct : (config.nativeTokens.map NativeToken.denom).Nodup)
    (listed : native ∈ config.nativeTokens) : config.nativeToken? native.denom = some native := by
  have present : (config.nativeToken? native.denom).isSome :=
    List.find?_isSome.mpr ⟨native, listed, by simp⟩
  obtain ⟨first, found⟩ := Option.isSome_iff_exists.mp present
  have named : first.denom = native.denom := by simpa using List.find?_some found
  have same : first = native :=
    List.inj_on_of_nodup_map distinct (List.mem_of_find?_eq_some found) listed named
  rw [found, same]

private theorem nativeToken?_of_notMem
    (unlisted : denom ∉ config.nativeTokens.map NativeToken.denom) :
    config.nativeToken? denom = none := by
  apply List.find?_eq_none.mpr
  intro native listed named
  exact unlisted (List.mem_map.mpr ⟨native, listed, of_decide_eq_true named⟩)

end ChainConfig

namespace TokenCache

variable {natives : List NativeToken} {native : NativeToken} {denom : String}

private theorem state?_insertAll_of_notMem (unlisted : denom ∉ natives.map NativeToken.denom)
    (cache : TokenCache) :
    (natives.foldl (fun cache native => cache.insert native.token) cache).state? (.native denom) =
      cache.state? (.native denom) := by
  induction natives generalizing cache with
  | nil => rfl
  | cons head rest ih =>
    rw [List.map_cons, List.mem_cons, not_or] at unlisted
    have different : TokenKey.native denom ≠ head.token.key := by
      intro same
      exact unlisted.1 (congrArg TokenKey.name same)
    rw [List.foldl_cons, ih unlisted.2, insert, state?_set, if_neg different]

private theorem state?_insertAll_of_mem (distinct : (natives.map NativeToken.denom).Nodup)
    (listed : native ∈ natives) (cache : TokenCache) :
    (natives.foldl (fun cache native => cache.insert native.token) cache).state?
      (.native native.denom) = some (.resolved native.token) := by
  induction natives generalizing cache with
  | nil => cases listed
  | cons head rest ih =>
    rw [List.map_cons, List.nodup_cons] at distinct
    rcases List.mem_cons.mp listed with rfl | later
    · -- Nothing that is inserted behind it has its denom.
      rw [List.foldl_cons, state?_insertAll_of_notMem distinct.1, insert, state?_set]
      exact if_pos rfl
    · exact ih distinct.2 later _

end TokenCache

namespace Connection

variable {connection : Connection} {config : ChainConfig} {native : NativeToken} {denom : String}

private theorem nativeToken_of_mem (distinct : (config.nativeTokens.map NativeToken.denom).Nodup)
    (listed : native ∈ config.nativeTokens) :
    nativeToken config native.denom = .ok native.token := by
  rw [nativeToken, ChainConfig.nativeToken?_of_mem distinct listed]
  rfl

private theorem nativeToken_of_notMem
    (unlisted : denom ∉ config.nativeTokens.map NativeToken.denom) :
    nativeToken config denom = .error (.unknownDenom denom) := by
  rw [nativeToken, ChainConfig.nativeToken?_of_notMem unlisted]
  rfl

end Connection

namespace Context

variable {context : Context} {config : ChainConfig} {dao : String} {now : Timestamp}
  {querier : Querier} {key : TokenKey} {token : Token}

private theorem exists_new_iff :
    (∃ context, Context.new config dao now = .ok context) ↔ config.InOrder := by
  rw [← ChainConfig.check_eq_ok_iff]
  constructor
  · rintro ⟨context, made⟩
    obtain ⟨_, checked, _⟩ := bind_eq_ok_iff.mp made
    exact checked
  · intro checked
    exact ⟨_, bind_eq_ok_iff.mpr ⟨(), checked, rfl⟩⟩

/-- What is resolved stays so, whatever is asked for and in however many calls. -/
theorem lookup_resolveAll (known : querier.OfChain)
    (resolved : context.lookup key = .resolved token) (calls : List (List TokenKey)) :
    (context.resolveAll querier calls).lookup key = .resolved token := by
  have state := TokenCache.lookup_eq_resolved_iff.mp resolved
  rw [resolveAll_eq]
  apply TokenCache.lookup_eq_resolved_iff.mpr
  rw [state?_resolveTokens_of_kept known (.inl ⟨token, state⟩), state]

/-- A context and a querier both tell of native tokens what the config lists, whatever is asked for,
and of others nothing. -/
structure OneSource (config : ChainConfig) (context : Context) (querier : Querier) : Prop where
  resolved : ∀ native ∈ config.nativeTokens,
    context.lookup (.native native.denom) =
      .resolved ⟨.native, native.denom, native.decimals, native.symbol⟩
  answered : ∀ native ∈ config.nativeTokens,
    querier.token (.native native.denom) =
      .ok ⟨.native, native.denom, native.decimals, native.symbol⟩
  kept : ∀ native ∈ config.nativeTokens, ∀ calls,
    (context.resolveAll querier calls).lookup (.native native.denom) =
      .resolved ⟨.native, native.denom, native.decimals, native.symbol⟩
  pending : ∀ denom ∉ config.nativeTokens.map NativeToken.denom,
    context.lookup (.native denom) = .pending
  refused : ∀ denom ∉ config.nativeTokens.map NativeToken.denom,
    querier.token (.native denom) = .error (.unknownDenom denom)

private theorem lookup_new_of_mem (made : Context.new config dao now = .ok context)
    {native : NativeToken} (listed : native ∈ config.nativeTokens) :
    context.lookup (.native native.denom) = .resolved native.token := by
  have inOrder := exists_new_iff.mp ⟨context, made⟩
  apply TokenCache.lookup_eq_resolved_iff.mpr
  rw [new_tokens made]
  exact TokenCache.state?_insertAll_of_mem inOrder.distinct listed .empty

private theorem lookup_new_of_notMem (made : Context.new config dao now = .ok context)
    {denom : String} (unlisted : denom ∉ config.nativeTokens.map NativeToken.denom) :
    context.lookup (.native denom) = .pending := by
  have nothing := TokenCache.state?_insertAll_of_notMem unlisted .empty
  rw [← new_tokens made] at nothing
  rw [lookup, TokenCache.lookup, nothing]
  rfl

/-- A context and any querier for the chain of its config tell of native tokens exactly what the
config lists. -/
theorem natives_have_one_source (config : ChainConfig) (dao : String) (now : Timestamp) :
    ((∃ context, Context.new config dao now = .ok context) ↔ config.InOrder) ∧
    ∀ context, Context.new config dao now = .ok context →
      ∀ connection : Connection, connection.chainId = config.chainId →
        ∃ querier, connection.querier config = .ok querier ∧ OneSource config context querier := by
  refine ⟨exists_new_iff, ?_⟩
  intro context made connection same
  have inOrder := exists_new_iff.mp ⟨context, made⟩
  have connected : connection.querier config =
      .ok ⟨connection.token config, connection.vestingFactory⟩ := if_pos same
  refine ⟨_, connected, ?_⟩
  constructor
  case resolved => exact fun native listed => lookup_new_of_mem made listed
  case answered => exact fun native listed => Connection.nativeToken_of_mem inOrder.distinct listed
  case kept =>
    intro native listed calls
    exact lookup_resolveAll (.connected connected) (lookup_new_of_mem made listed) calls
  case pending => exact fun denom unlisted => lookup_new_of_notMem made unlisted
  case refused => exact fun denom unlisted => Connection.nativeToken_of_notMem unlisted

/-- A chain with two native tokens, one that cannot be divided and one that has no symbol. -/
def hubConfig : ChainConfig :=
  ⟨"hub-4", [⟨"hub", "HUB", .zero⟩, ⟨"ahub", "", ⟨12, by decide⟩⟩], .zero⟩

/-- Asking for a token again, for one that is not listed and for a contract that is not there
changes nothing of what is known of either. -/
theorem natives_have_one_source_hub :
    ∃ context querier, Context.new hubConfig "dao" sample.now = .ok context ∧
      (Connection.ofTable "hub-4" [] fun _ _ => "").querier hubConfig = .ok querier ∧
      context.lookup (.native "hub") = .resolved ⟨.native, "hub", .zero, "HUB"⟩ ∧
      querier.token (.native "hub") = .ok ⟨.native, "hub", .zero, "HUB"⟩ ∧
      (context.resolveAll querier [[.native "ahub", .native "AHUB"], [], [.cw20 "hub"]]).lookup
        (.native "hub") = .resolved ⟨.native, "hub", .zero, "HUB"⟩ ∧
      (context.resolveAll querier [[.native "ahub", .native "AHUB"], [], [.cw20 "hub"]]).lookup
        (.native "ahub") = .resolved ⟨.native, "ahub", ⟨12, by decide⟩, ""⟩ ∧
      querier.token (.native "AHUB") = .error (.unknownDenom "AHUB") := by
  obtain ⟨succeeds, agree⟩ := natives_have_one_source hubConfig "dao" sample.now
  obtain ⟨context, made⟩ :
    ∃ context, Context.new hubConfig "dao" sample.now = .ok context := ⟨_, rfl⟩
  obtain ⟨querier, connected, source⟩ :=
    agree context made (.ofTable "hub-4" [] fun _ _ => "") rfl
  have hub : ⟨"hub", "HUB", .zero⟩ ∈ hubConfig.nativeTokens := by simp [hubConfig]
  have ahub : ⟨"ahub", "", ⟨12, by decide⟩⟩ ∈ hubConfig.nativeTokens := by simp [hubConfig]
  exact ⟨context, querier, made, connected, source.resolved _ hub, source.answered _ hub,
    source.kept _ hub _, source.kept _ ahub _, source.refused "AHUB" (by simp [hubConfig])⟩

end Context

end Proposal
