import Mathlib.Tactic
import Proposal.Proofs.Dispatch

namespace Proposal.Registry

variable {registry left right : Registry} {kind other : ActionKind} {calls : List ActionKind}

/-- The registry after a kind was registered, or refused. -/
def afterCall (registry : Registry) (kind : ActionKind) : Registry := (registry.register kind).1

/-- The registry that calls lead to from an empty one. -/
def ofCalls (calls : List ActionKind) : Registry := calls.foldl afterCall empty

private theorem register_of_mem (present : kind ∈ registry.kinds) :
    registry.register kind = (registry, .error (.duplicateAction kind)) :=
  dif_pos present

private theorem register_eq_error_iff {error : ActionError} :
    (registry.register kind).2 = .error error ↔
      kind ∈ registry.kinds ∧ error = .duplicateAction kind := by
  by_cases present : kind ∈ registry.kinds
  · rw [register_of_mem present, Except.error.injEq, and_iff_right present, eq_comm]
  · rw [register, dif_neg present]
    exact iff_of_false nofun fun refused => present refused.1

private theorem afterCall_of_mem (present : kind ∈ registry.kinds) :
    registry.afterCall kind = registry := by
  rw [afterCall, register_of_mem present]

private theorem mem_afterCall :
    other ∈ (registry.afterCall kind).kinds ↔ other = kind ∨ other ∈ registry.kinds := by
  by_cases present : kind ∈ registry.kinds
  · rw [afterCall_of_mem present, iff_or_self]
    intro same
    exact same ▸ present
  · rw [afterCall, register, dif_neg present]
    exact mem_place

private theorem mem_foldl_afterCall :
    kind ∈ (calls.foldl afterCall registry).kinds ↔ kind ∈ calls ∨ kind ∈ registry.kinds := by
  induction calls generalizing registry with
  | nil => simp
  | cons first rest ih =>
    rw [List.foldl_cons, ih, mem_afterCall, List.mem_cons, or_assoc, or_left_comm]

private theorem mem_ofCalls : kind ∈ (ofCalls calls).kinds ↔ kind ∈ calls := by
  rw [ofCalls, mem_foldl_afterCall]
  exact or_iff_left List.not_mem_nil

/-- A registry is known by the kinds that are in use, as there is one order for them. -/
theorem ext_mem (same : ∀ kind, kind ∈ left.kinds ↔ kind ∈ right.kinds) : left = right := by
  have irreflexive : Std.Irrefl fun left right : ActionKind => left.priority < right.priority :=
    ⟨fun kind => Nat.lt_irrefl kind.priority⟩
  have antisymmetric : Std.Antisymm fun left right : ActionKind => left.priority < right.priority :=
    ⟨fun _ _ less more => absurd less (Nat.lt_asymm more)⟩
  have kinds := left.ascending.eq_of_mem_iff right.ascending same
  cases left
  cases right
  cases kinds
  rfl

/-- The kinds of a registry come in the order of their priority, however they are listed. -/
theorem kinds_eq_insertionSort (listed : ∀ kind, kind ∈ calls ↔ kind ∈ registry.kinds) :
    registry.kinds =
      calls.dedup.insertionSort fun left right => left.priority ≤ right.priority := by
  have total : Std.Total fun left right : ActionKind => left.priority ≤ right.priority :=
    ⟨fun left right => Nat.le_total left.priority right.priority⟩
  have transitive : IsTrans ActionKind fun left right => left.priority ≤ right.priority :=
    ⟨fun _ _ _ => Nat.le_trans⟩
  have distinct : registry.kinds.Nodup := by
    apply registry.ascending.imp
    intro first second less same
    exact Nat.lt_irrefl _ (same ▸ less)
  have permutes : registry.kinds.Perm calls.dedup := by
    rw [List.perm_ext_iff_of_nodup distinct (List.nodup_dedup calls)]
    intro kind
    rw [List.mem_dedup, listed]
  have sorted := registry.ascending.imp fun less => Nat.le_of_lt less
  apply (permutes.trans (List.perm_insertionSort _ _).symm).eq_of_pairwise ?_ sorted
    (List.pairwise_insertionSort _ _)
  intro first second _ _ less more
  exact ActionKind.priority_injective (Nat.le_antisymm less more)

example : standard.kinds =
    ActionKind.all.insertionSort fun left right => left.priority ≤ right.priority := by decide

/-- What a registry does depends on the set of its kinds alone; registering one again fails and
changes nothing. -/
theorem registration_order_irrelevant (calls : List ActionKind) :
    (∀ kind error, ((ofCalls calls).register kind).2 = .error error ↔
      kind ∈ calls ∧ error = .duplicateAction kind) ∧
    (∀ kind ∈ calls, ofCalls (calls ++ [kind]) = ofCalls calls) ∧
    ((ofCalls calls).kinds.Pairwise fun left right => left.priority < right.priority) ∧
    (ofCalls calls).kinds =
      (calls.dedup.insertionSort fun left right => left.priority ≤ right.priority) ∧
    (∀ others : List ActionKind, (∀ kind, kind ∈ calls ↔ kind ∈ others) →
      (∀ message context,
        (ofCalls calls).decode message context = (ofCalls others).decode message context) ∧
      (∀ action context,
        (ofCalls calls).encode action context = (ofCalls others).encode action context ∧
        (ofCalls calls).validate action context = (ofCalls others).validate action context) ∧
      ∀ messages, (ofCalls calls).requiredTokens messages =
        (ofCalls others).requiredTokens messages) ∧
    ((∀ kind, kind ∈ calls) → ofCalls calls = standard) := by
  refine ⟨?_, ?_, (ofCalls calls).ascending, ?_, ?_, ?_⟩
  · intro kind error
    rw [register_eq_error_iff, mem_ofCalls]
  · intro kind repeated
    rw [ofCalls, List.foldl_concat]
    exact afterCall_of_mem (mem_ofCalls.mpr repeated)
  · apply kinds_eq_insertionSort
    intro kind
    rw [mem_ofCalls]
  · intro others same
    have equal : ofCalls calls = ofCalls others := by
      apply ext_mem
      intro kind
      rw [mem_ofCalls, mem_ofCalls, same]
    rw [equal]
    exact ⟨fun _ _ => rfl, fun _ _ => ⟨rfl, rfl⟩, fun _ => rfl⟩
  · intro every
    apply ext_mem
    intro kind
    exact iff_of_true (mem_ofCalls.mpr (every kind)) (mem_standard kind)

/-- Three kinds in any order, two of them registered twice. A fourth call for one of them is
refused. -/
theorem registration_order_irrelevant_stake :
    let general := ofCalls [.execute, .spend, .execute, .stake]
    let specific := ofCalls [.stake, .spend, .spend, .execute]
    (general.register .spend).2 = .error (.duplicateAction .spend) ∧
      general.kinds = [.stake, .spend, .execute] ∧
      general.decode strangeStake .sample = specific.decode strangeStake .sample ∧
      ofCalls ActionKind.all.reverse = standard := by
  obtain ⟨refuses, _, _, order, same, _⟩ :=
    registration_order_irrelevant [.execute, .spend, .execute, .stake]
  obtain ⟨_, _, _, _, _, full⟩ := registration_order_irrelevant ActionKind.all.reverse
  refine ⟨(refuses _ _).mpr ⟨by simp, rfl⟩, order, ?_, full ?_⟩
  · exact (same _ (by grind)).1 _ _
  · intro kind
    exact List.mem_reverse.mpr kind.mem_all

end Proposal.Registry
