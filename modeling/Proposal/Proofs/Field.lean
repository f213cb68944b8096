import Mathlib.Tactic
import Proposal.Action.Basic
import Proposal.Proofs.Context

namespace Proposal

variable {context : Context} {key : TokenKey} {amount : HumanAmount}

/-- Nothing is known against an amount: it is not zero and, of a resolved token, exact and within
the balance. -/
def Context.Admits (context : Context) (key : TokenKey) (amount : HumanAmount) : Prop :=
  amount.isZero = false ∧ ∀ token, context.lookup key = .resolved token →
    ∃ base, Amount.Exact amount base token.decimals ∧
      ∀ balance, context.balance? key = some balance → ¬balance < base

namespace Field

theorem checkAmount_eq_nil_iff {field : String} :
    checkAmount context field key amount = .ok [] ↔ context.Admits key amount := by
  unfold checkAmount Context.Admits
  by_cases zero : amount.isZero = true
  · simp [zero]
  · rw [if_neg zero, and_iff_right (Bool.not_eq_true _ ▸ zero)]
    cases found : context.lookup key with
    | pending => simp
    | failed reason => simp
    | resolved token =>
      simp only [TokenLookup.resolved.injEq, forall_eq', bind_eq_ok_iff]
      constructor
      · rintro ⟨fitting, fits, checked⟩
        cases fitting with
        | false => cases checked
        | true =>
          cases scaled : Amount.toBase amount token.decimals with
          | error error => rw [if_pos rfl, scaled] at checked; cases checked
          | ok base =>
            refine ⟨base, Amount.exact_of_fits fits scaled, fun balance known less => ?_⟩
            rw [if_pos rfl, scaled, known] at checked
            simp only [if_pos less] at checked
            cases checked
      · rintro ⟨base, exactly, within⟩
        refine ⟨true, exactly.fits_eq, ?_⟩
        rw [if_pos rfl, exactly.toBase_eq]
        cases known : context.balance? key with
        | none => rfl
        | some balance => simp only [if_neg (within balance known)]; rfl

/-- An amount of a token that amounts can be given of is checked, whatever it is. -/
theorem exists_checkAmount (field : String) (amount : HumanAmount)
    (precise : ∀ token, context.lookup key = .resolved token →
      token.decimals.val ≤ Amount.maxDecimals) :
    ∃ errors, checkAmount context field key amount = .ok errors := by
  unfold checkAmount
  split
  · exact ⟨_, rfl⟩
  · cases found : context.lookup key with
    | pending => exact ⟨[], rfl⟩
    | failed reason => exact ⟨[], rfl⟩
    | resolved token =>
      obtain ⟨fitting, fits⟩ : ∃ fitting, Amount.fits amount token.decimals = .ok fitting := by
        rw [Amount.fits, Amount.checkDecimals_eq_ok (precise token found)]
        exact ⟨_, rfl⟩
      simp only [fits, bind, Except.bind]
      cases fitting with
      | false => exact ⟨_, rfl⟩
      | true =>
        -- What is too large, or more than the balance, is a problem and no failure of the check.
        cases Amount.toBase amount token.decimals with
        | error error => exact ⟨_, rfl⟩
        | ok base =>
          cases context.balance? key with
          | none => exact ⟨[], rfl⟩
          | some balance => by_cases less : balance < base <;> simp [less, pure, Except.pure]

/-- A form with an amount of a token and one more field is without problems if the field is and the
amount is admitted. -/
theorem checked_eq_nil_iff {field : String} {above : List FieldError} :
    (do return above ++ (← checkAmount context field key amount)) =
      (.ok [] : Result (List FieldError)) ↔ above = [] ∧ context.Admits key amount := by
  rw [bind_eq_ok_iff]
  constructor
  · rintro ⟨errors, checked, same⟩
    obtain ⟨rfl, rfl⟩ := List.append_eq_nil_iff.mp (Except.ok.inj same)
    exact ⟨rfl, checkAmount_eq_nil_iff.mp checked⟩
  · rintro ⟨rfl, admits⟩
    exact ⟨[], checkAmount_eq_nil_iff.mpr admits, rfl⟩

private theorem ensureNone_eq_ok_iff {errors : List FieldError} {nothing : Unit} :
    ensureNone errors = .ok nothing ↔ errors = [] := by
  unfold ensureNone
  cases errors <;> simp

/-- A form is encoded if its check finds nothing. -/
theorem ensureNone_bind_eq_ok_iff {checked : Result (List FieldError)} {encoded : Result Message}
    {message : Message} :
    (do ensureNone (← checked); encoded) = .ok message ↔
      checked = .ok [] ∧ encoded = .ok message := by
  simp only [bind_eq_ok_iff, ensureNone_eq_ok_iff]
  constructor
  · rintro ⟨errors, same, _, rfl, made⟩
    exact ⟨same, made⟩
  · rintro ⟨same, made⟩
    exact ⟨[], same, .unit, rfl, made⟩

/-- A form that needs nothing of a context is encoded if its check finds nothing. -/
theorem ensureNone_return_eq_ok_iff {errors : List FieldError} {made message : Message} :
    (do ensureNone errors; return made) = (.ok message : Result Message) ↔
      errors = [] ∧ made = message := by
  rw [bind_eq_ok_iff]
  constructor
  · rintro ⟨_, checked, same⟩
    exact ⟨ensureNone_eq_ok_iff.mp checked, Except.ok.inj same⟩
  · rintro ⟨none, rfl⟩
    exact ⟨.unit, ensureNone_eq_ok_iff.mpr none, rfl⟩

end Field

namespace Context

/-- An admitted amount is scaled without rounding. -/
theorem Admits.baseAmount_eq_ok_iff (admits : context.Admits key amount) {token : Token}
    {base : BaseAmount} :
    context.baseAmount key amount = .ok (token, base) ↔
      context.lookup key = .resolved token ∧ Amount.Exact amount base token.decimals := by
  rw [Context.baseAmount_eq_ok_iff]
  apply and_congr_right
  intro found
  obtain ⟨exactBase, exactly, _⟩ := admits.2 token found
  constructor
  · intro scaled
    rw [exactly.toBase_eq] at scaled
    cases scaled
    exact exactly
  · exact Amount.Exact.toBase_eq

/-- An admitted amount is scaled, unless the token is not resolved. -/
theorem Admits.baseAmount_total (admits : context.Admits key amount) :
    (∃ scaled, context.baseAmount key amount = .ok scaled) ∨
      ∃ error, context.baseAmount key amount = .error error ∧
        context.token key = .error error := by
  cases found : context.token key with
  | ok token =>
    have resolved := token_eq_ok_iff.mp found
    obtain ⟨base, exactly, _⟩ := admits.2 token resolved
    exact .inl ⟨(token, base), admits.baseAmount_eq_ok_iff.mpr ⟨resolved, exactly⟩⟩
  | error error => exact .inr ⟨error, by rw [baseAmount, found]; rfl, rfl⟩

end Context

end Proposal
