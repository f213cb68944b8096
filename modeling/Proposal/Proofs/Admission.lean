import Mathlib.Tactic
import Proposal.Proofs.Encoding
import Proposal.Proofs.Registry

namespace Proposal

/-- The tokens that an action names. -/
def Action.tokens : Action → List TokenKey
  | .spend form => [form.token]
  | .stake form => [form.token]
  | .beginVesting form => [form.token]
  | .execute form => form.funds.map fun fund => .native fund.denom
  | _ => []

namespace Context

variable {context : Context} {action : Action} {error : ActionError}

/-- Every token that the action names is resolved, and the factory is known if it is needed. -/
structure Equips (context : Context) (action : Action) : Prop where
  tokens : ∀ key ∈ action.tokens, ∃ token, context.lookup key = .resolved token
  factory : action.kind = .beginVesting → context.vestingFactory.isSome

/-- The errors that say what a context does not have for an action. -/
inductive Lacks (context : Context) (action : Action) : ActionError → Prop
  | pending {key : TokenKey} (named : key ∈ action.tokens)
      (found : context.lookup key = .pending) : Lacks context action (.tokenNotResolved key)
  | failed {key : TokenKey} {reason : String} (named : key ∈ action.tokens)
      (found : context.lookup key = .failed reason) :
      Lacks context action (.tokenFailed key reason)
  | factory (vesting : action.kind = .beginVesting) (missing : context.vestingFactory = none) :
      Lacks context action .factoryNotResolved

private theorem lacks_of_token {key : TokenKey} (named : key ∈ action.tokens)
    (lacking : context.token key = .error error) : context.Lacks action error := by
  unfold Context.token at lacking
  split at lacking
  next => cases lacking
  next found => cases lacking; exact .pending named found
  next reason found => cases lacking; exact .failed named found

private theorem Equips.not_lacks (equips : context.Equips action) :
    ¬context.Lacks action error := by
  intro lacks
  cases lacks with
  | pending named found =>
    obtain ⟨token, resolved⟩ := equips.tokens _ named
    rw [found] at resolved
    cases resolved
  | failed named found =>
    obtain ⟨token, resolved⟩ := equips.tokens _ named
    rw [found] at resolved
    cases resolved
  | factory vesting missing =>
    have known := equips.factory vesting
    rw [missing] at known
    cases known

end Context

namespace ActionKind

variable {context : Context} {action : Action} {message : Message}

/-- An action without problems is encoded, or its context lacks something for it. -/
theorem encode_total (good : action.kind.validate action context = .ok []) :
    (∃ message, action.kind.encode action context = .ok message) ∨
      ∃ error, action.kind.encode action context = .error error ∧ context.Lacks action error := by
  cases action with
  | spend form =>
    refine (Spend.encode_total good).imp_right ?_
    rintro ⟨error, failed, lacking⟩
    exact ⟨error, failed, Context.lacks_of_token List.mem_cons_self lacking⟩
  | stake form =>
    refine (Stake.encode_total good).imp_right ?_
    rintro ⟨error, failed, lacking⟩
    exact ⟨error, failed, Context.lacks_of_token List.mem_cons_self lacking⟩
  | beginVesting form =>
    refine (BeginVesting.encode_total good).imp_right ?_
    rintro ⟨error, failed, lacking | ⟨missing, rfl⟩⟩
    · exact ⟨error, failed, Context.lacks_of_token List.mem_cons_self lacking⟩
    · exact ⟨_, failed, .factory rfl missing⟩
  | cancelVesting form =>
    exact .inl ⟨_, CancelVesting.encode_eq_ok_iff.mpr ⟨Except.ok.inj good, rfl⟩⟩
  | registerSlash form =>
    exact .inl ⟨_, RegisterSlash.encode_eq_ok_iff.mpr ⟨Except.ok.inj good, rfl⟩⟩
  | setItem form => exact .inl ⟨_, SetItem.encode_eq_ok_iff.mpr ⟨Except.ok.inj good, rfl⟩⟩
  | removeItem form => exact .inl ⟨_, RemoveItem.encode_eq_ok_iff.mpr ⟨Except.ok.inj good, rfl⟩⟩
  | execute form =>
    refine (Execute.encode_total good).imp_right ?_
    rintro ⟨fund, member, error, failed, lacking⟩
    exact ⟨error, failed, Context.lacks_of_token (List.mem_map_of_mem member) lacking⟩

theorem validate_of_encode (made : action.kind.encode action context = .ok message) :
    action.kind.validate action context = .ok [] := by
  cases action with
  | spend form => exact (Spend.encode_eq_ok_iff.mp made).1
  | stake form => exact (Stake.encode_eq_ok_iff.mp made).1
  | beginVesting form => exact (BeginVesting.encode_eq_ok_iff.mp made).1
  | cancelVesting form => exact congrArg Except.ok (CancelVesting.encode_eq_ok_iff.mp made).1
  | registerSlash form => exact congrArg Except.ok (RegisterSlash.encode_eq_ok_iff.mp made).1
  | setItem form => exact congrArg Except.ok (SetItem.encode_eq_ok_iff.mp made).1
  | removeItem form => exact congrArg Except.ok (RemoveItem.encode_eq_ok_iff.mp made).1
  | execute form => exact (Execute.encode_eq_ok_iff.mp made).1

private theorem equips_of_encode (made : action.kind.encode action context = .ok message) :
    context.Equips action := by
  cases action with
  | spend form =>
    obtain ⟨_, token, _, resolved, _⟩ := Spend.encode_eq_ok_iff.mp made
    exact ⟨by simpa [Action.tokens] using ⟨token, resolved⟩, nofun⟩
  | stake form =>
    obtain ⟨_, token, _, resolved, _⟩ := Stake.encode_eq_ok_iff.mp made
    exact ⟨by simpa [Action.tokens] using ⟨token, resolved⟩, nofun⟩
  | beginVesting form =>
    obtain ⟨_, factory, token, _, _, found, resolved, _⟩ := BeginVesting.encode_eq_ok_iff.mp made
    exact ⟨by simpa [Action.tokens] using ⟨token, resolved⟩, fun _ => by rw [found]; rfl⟩
  | cancelVesting form => exact ⟨by simp [Action.tokens], nofun⟩
  | registerSlash form => exact ⟨by simp [Action.tokens], nofun⟩
  | setItem form => exact ⟨by simp [Action.tokens], nofun⟩
  | removeItem form => exact ⟨by simp [Action.tokens], nofun⟩
  | execute form =>
    obtain ⟨_, coins, pays, _⟩ := Execute.encode_eq_ok_iff.mp made
    have resolved : ∀ fund ∈ form.funds,
        ∃ token, context.lookup (.native fund.denom) = .resolved token :=
      ((List.forall₂_and_left form.funds coins).mp (pays.imp fun fund coin pays =>
        ⟨pays.imp fun token found => found.1, pays⟩)).1
    exact ⟨List.forall_mem_map.mpr resolved, nofun⟩

end ActionKind

namespace Registry

/-- An action is encoded if and only if its check finds nothing and the context equips it; else what
is lacking is the error. -/
theorem encode_iff_validate (action : Action) (context : Context) :
    ((∃ message, standard.encode action context = .ok message) ↔
      standard.validate action context = .ok [] ∧
        (∀ key ∈ action.tokens, ∃ token, context.lookup key = .resolved token) ∧
        (action.kind = .beginVesting → context.vestingFactory.isSome)) ∧
      ∀ error, standard.validate action context = .ok [] →
        standard.encode action context = .error error → context.Lacks action error := by
  simp only [encode_standard, validate_standard]
  refine ⟨⟨?_, ?_⟩, fun error good failed => ?_⟩
  · rintro ⟨message, made⟩
    have equips := ActionKind.equips_of_encode made
    exact ⟨ActionKind.validate_of_encode made, equips.tokens, equips.factory⟩
  · rintro ⟨good, tokens, factory⟩
    refine (ActionKind.encode_total good).resolve_right ?_
    rintro ⟨error, _, lacks⟩
    exact Context.Equips.not_lacks ⟨tokens, factory⟩ lacks
  · rcases ActionKind.encode_total good with ⟨message, made⟩ | ⟨other, same, lacks⟩
    · rw [made] at failed
      cases failed
    · rw [failed] at same
      cases same
      exact lacks

end Registry

end Proposal
