import Mathlib.Tactic
import Proposal.Proofs.Resolution

namespace Proposal

/-- A cache is known by the states of its tokens. -/
theorem TokenCache.ext_state? {left right : TokenCache}
    (same : ∀ key, left.state? key = right.state? key) : left = right := by
  obtain ⟨leftStates⟩ := left
  obtain ⟨rightStates⟩ := right
  exact congrArg TokenCache.mk (SortedMap.ext_get? same)

namespace Context

variable {querier : Querier} {context : Context} {keys : List TokenKey} {key : TokenKey}

/-- Asks for tokens in several calls. -/
def resolveAll (context : Context) (querier : Querier) (calls : List (List TokenKey)) : Context :=
  calls.foldl (fun context keys => context.resolveTokens querier keys) context

private theorem resolveTokens_append (querier : Querier) (context : Context)
    (first rest : List TokenKey) :
    context.resolveTokens querier (first ++ rest) =
      (context.resolveTokens querier first).resolveTokens querier rest :=
  List.foldl_append

/-- Several calls do what one call does for all their tokens. -/
theorem resolveAll_eq (querier : Querier) (context : Context) (calls : List (List TokenKey)) :
    context.resolveAll querier calls = context.resolveTokens querier calls.flatten := by
  induction calls generalizing context with
  | nil => rfl
  | cons keys rest ih =>
    rw [List.flatten_cons, resolveTokens_append, ← ih]
    rfl

/-- Only the set of the tokens counts. -/
theorem resolveTokens_congr (known : querier.OfChain) (context : Context)
    {left right : List TokenKey} (same : ∀ key, key ∈ left ↔ key ∈ right) :
    context.resolveTokens querier left = context.resolveTokens querier right := by
  have tokens : (context.resolveTokens querier left).tokens =
      (context.resolveTokens querier right).tokens := by
    apply TokenCache.ext_state?
    intro key
    rw [state?_resolveTokens known, state?_resolveTokens known]
    simp only [same key]
  rw [resolveTokens_eq querier context left, resolveTokens_eq querier context right, tokens]

/-- What is resolved, or not asked for, stays as it is. -/
theorem state?_resolveTokens_of_kept (known : querier.OfChain)
    (kept : (∃ token, context.tokens.state? key = some (.resolved token)) ∨ key ∉ keys) :
    (context.resolveTokens querier keys).tokens.state? key = context.tokens.state? key := by
  rw [state?_resolveTokens known, if_neg]
  rintro ⟨asked, lacking⟩
  rcases kept with ⟨token, resolved⟩ | unasked
  · exact TokenCache.isResolved_eq_false_iff.mp lacking token resolved
  · exact unasked asked

private theorem state?_resolveTokens_of_asked (known : querier.OfChain) (asked : key ∈ keys)
    (lacking : ∀ token, context.tokens.state? key ≠ some (.resolved token)) :
    (context.resolveTokens querier keys).tokens.state? key = some (querier.outcome key) := by
  rw [state?_resolveTokens known,
    if_pos ⟨asked, TokenCache.isResolved_eq_false_iff.mpr lacking⟩]

/-- No search for a token is left under way once it was asked for. -/
theorem state?_resolveTokens_ne_loading (known : querier.OfChain) (asked : key ∈ keys) :
    (context.resolveTokens querier keys).tokens.state? key ≠ some .loading := by
  intro loading
  rcases lookup_resolveTokens known context asked with ⟨token, found⟩ | ⟨error, _, found⟩
  · rw [lookup, TokenCache.lookup, loading] at found
    cases found
  · rw [lookup, TokenCache.lookup, loading] at found
    cases found

/-- Resolving tokens keeps what is resolved, answers for the rest, and depends only on the set of
tokens asked for. -/
theorem resolveTokens_order_free (known : querier.OfChain) (context : Context) :
    (∀ keys key, (∃ token, context.tokens.state? key = some (.resolved token)) ∨ key ∉ keys →
      (context.resolveTokens querier keys).tokens.state? key = context.tokens.state? key) ∧
    (∀ keys, ∀ key ∈ keys, (∀ token, context.tokens.state? key ≠ some (.resolved token)) →
      (∀ token, querier.token key = .ok token →
        (context.resolveTokens querier keys).tokens.state? key = some (.resolved token)) ∧
      ∀ error, querier.token key = .error error →
        (context.resolveTokens querier keys).tokens.state? key = some (.failed error.message)) ∧
    (∀ keys, ∀ key ∈ keys,
      (context.resolveTokens querier keys).tokens.state? key ≠ some .loading) ∧
    (∀ calls others : List (List TokenKey),
      (∀ key, key ∈ calls.flatten ↔ key ∈ others.flatten) →
        context.resolveAll querier calls = context.resolveAll querier others) ∧
    ∀ keys again : List TokenKey, again ⊆ keys →
      (context.resolveTokens querier keys).resolveTokens querier again =
        context.resolveTokens querier keys := by
  refine ⟨?_, ?_, ?_, ?_, ?_⟩
  · intro keys key kept
    exact state?_resolveTokens_of_kept known kept
  · intro keys key asked lacking
    rw [state?_resolveTokens_of_asked known asked lacking, Querier.outcome]
    constructor
    · intro token answered
      rw [answered]
    · intro error answered
      rw [answered]
  · intro keys key asked
    exact state?_resolveTokens_ne_loading known asked
  · intro calls others same
    rw [resolveAll_eq, resolveAll_eq]
    exact resolveTokens_congr known context same
  · intro keys again asked
    rw [← resolveTokens_append]
    apply resolveTokens_congr known
    intro key
    rw [List.mem_append]
    constructor
    · intro member
      rcases member with before | repeated
      · exact before
      · exact asked repeated
    · exact Or.inl

/-- A token that had timed out fails for the reason given now, and the token of the config is kept,
in any order. -/
theorem resolveTokens_order_free_timeout :
    let context := Context.sample.markFailed (.cw20 "token") "timeout"
    let resolved := context.resolveAll Registry.sampleChain.querier
      [[.cw20 "token", .native "utoken"], [.cw20 "token"]]
    resolved = context.resolveAll Registry.sampleChain.querier
      [[.native "utoken"], [], [.cw20 "token"]] ∧
    resolved.tokens.state? (.cw20 "token") =
      some (.failed "token token (pass it with --token) not found") ∧
    resolved.tokens.state? (.native "utoken") = context.tokens.state? (.native "utoken") := by
  intro context resolved
  have known : Registry.sampleChain.querier.OfChain := .offline Registry.sampleChain
  obtain ⟨keeps, learns, _, orderFree, _⟩ := resolveTokens_order_free known context
  have once : resolved = context.resolveTokens Registry.sampleChain.querier
      [.cw20 "token", .native "utoken", .cw20 "token"] := resolveAll_eq _ _ _
  refine ⟨orderFree _ _ (by simp [or_comm]), ?_, ?_⟩
  · rw [once]
    exact (learns _ (.cw20 "token") (by simp) nofun).2 (.notFound _) rfl
  · rw [once]
    exact keeps _ _ (.inl ⟨_, rfl⟩)

end Context

end Proposal
