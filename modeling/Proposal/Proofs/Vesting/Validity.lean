import Mathlib.Tactic
import Proposal.Proofs.Encoding
import Proposal.Proofs.Vesting.Accrual

namespace Proposal

namespace Vesting

variable {steps : List VestingStep}

private theorem percentage_eq_hundred_iff :
    percentage steps = 100 ↔ percentSum steps = hundredPercent.atomics.val := by
  have one : (0 : ℚ) < Decimal.one := Nat.cast_pos.mpr (by decide)
  have hundred : hundredPercent.atomics.val = 100 * Decimal.one := rfl
  rw [percentage_eq, div_eq_iff one.ne', hundred]
  exact_mod_cast Iff.rfl

/-- Shares that a percent can hold are reported on: they are added up exactly, and are valid if and
only if they are a hundred percent. -/
theorem exists_validity (fits : percentSum steps < 2 ^ 128) :
    ∃ report, validity steps = .ok report ∧ report.percentSum.rational = percentage steps ∧
      (report.isValid = true ↔ percentage steps = 100) := by
  let sum : Percent := ⟨⟨percentSum steps, fits⟩⟩
  refine ⟨⟨sum, decide (percentage steps = 100)⟩, validity_eq_ok_iff.mpr ⟨rfl, ?_⟩, ?_,
    decide_eq_true_iff⟩
  · rw [decide_eq_true_iff, percentage_eq_hundred_iff]
  · exact (percentage_eq steps).symm

private theorem validity_eq_error (large : 2 ^ 128 ≤ percentSum steps) :
    ∃ left right : Percent, validity steps = .error (.sumOverflow left.text right.text) := by
  obtain ⟨left, right, failed⟩ :
      ∃ left right : Percent, steps.foldlM (fun (sum : Percent) step => sum.plus step.percent)
        Decimal.zero = .error (.sumOverflow left.text right.text) :=
    foldlM_plus_eq_error (by simpa using large)
  exact ⟨left, right, by rw [validity, failed]; rfl⟩

end Vesting

namespace BeginVesting

variable {form : BeginVesting} {context : Context}

/-- Where the shares can be added up, shares that are not all of the total are a problem of the
steps. -/
theorem exists_checkSteps (fits : Vesting.percentSum form.steps < 2 ^ 128) (context : Context) :
    ∃ errors, form.checkSteps context = .ok errors ∧
      (Vesting.percentage form.steps ≠ 100 → ∃ error ∈ errors, error.field = "steps") := by
  unfold checkSteps
  split
  next => exact ⟨_, rfl, fun _ => ⟨_, List.mem_singleton_self _, rfl⟩⟩
  next =>
    obtain ⟨report, reported, _, valid_iff⟩ := Vesting.exists_validity fits
    simp only [reported, bind, Except.bind]
    cases valid : report.isValid with
    | false => exact ⟨_, rfl, fun _ => ⟨_, List.mem_append_left _ (List.mem_singleton_self _), rfl⟩⟩
    | true =>
      have whole : Vesting.percentage form.steps = 100 := valid_iff.mp valid
      cases form.total? context with
      | none => exact ⟨_, rfl, fun part => absurd whole part⟩
      | some total =>
        obtain ⟨exactly, checked, _⟩ := Vesting.exists_offsetsAreExact total fits
        simp only [checked]
        cases exactly <;> exact ⟨_, rfl, fun part => absurd whole part⟩

section Precise

variable (precise : ∀ token, context.lookup form.token = .resolved token →
  token.decimals.val ≤ Amount.maxDecimals)
include precise

private theorem exists_validate (fits : Vesting.percentSum form.steps < 2 ^ 128) :
    ∃ errors, form.validate context = .ok errors ∧
      (Vesting.percentage form.steps ≠ 100 → ∃ error ∈ errors, error.field = "steps") := by
  obtain ⟨amount, amountChecked⟩ := Field.exists_checkAmount "amount" form.amount precise
  obtain ⟨steps, stepsChecked, flagged⟩ := exists_checkSteps fits context
  refine ⟨_, bind_eq_ok_iff.mpr ⟨amount, amountChecked,
    bind_eq_ok_iff.mpr ⟨steps, stepsChecked, rfl⟩⟩, fun part => ?_⟩
  obtain ⟨error, member, named⟩ := flagged part
  exact ⟨error, List.mem_append_right _ member, named⟩

/-- A form is refused with the error of the report, whatever else is to be said of it. -/
theorem validate_eq_error {error : ActionError}
    (failed : Vesting.validity form.steps = .error error) :
    form.validate context = .error error := by
  obtain ⟨amount, amountChecked⟩ := Field.exists_checkAmount "amount" form.amount precise
  have notEmpty : ¬form.steps.isEmpty = true := by
    intro empty
    rw [List.isEmpty_iff.mp empty] at failed
    cases failed
  have refused : form.checkSteps context = .error error := by
    rw [checkSteps, if_neg notEmpty, failed]
    rfl
  rw [validate, amountChecked, refused]
  rfl

end Precise

/-- A schedule is reported on unless its shares overflow a percent, and a form with it is checked or
refused likewise. -/
theorem reported_unless_overflow (form : BeginVesting) (context : Context) :
    (Vesting.percentSum form.steps < 2 ^ 128 → ∃ report,
      Vesting.validity form.steps = .ok report ∧
      report.percentSum.rational = Vesting.percentage form.steps ∧
      (report.isValid = true ↔ Vesting.percentage form.steps = 100)) ∧
    (2 ^ 128 ≤ Vesting.percentSum form.steps → ∃ left right : Percent,
      Vesting.validity form.steps = .error (.sumOverflow left.text right.text)) ∧
    ((∀ token, context.lookup form.token = .resolved token →
        token.decimals.val ≤ Amount.maxDecimals) →
      (Vesting.percentSum form.steps < 2 ^ 128 → ∃ errors, form.validate context = .ok errors ∧
        (Vesting.percentage form.steps ≠ 100 → ∃ error ∈ errors, error.field = "steps")) ∧
      ∀ error, Vesting.validity form.steps = .error error →
        form.validate context = .error error) :=
  ⟨Vesting.exists_validity, Vesting.validity_eq_error, fun precise =>
    ⟨exists_validate precise, fun _ => validate_eq_error precise⟩⟩

/-- A grant of one token in two steps of so much percent each, half a year apart. -/
def twice (percent : Percent) : BeginVesting where
  recipient := "frank"
  title := "Twice"
  description := none
  owner := none
  token := .native "utoken"
  amount := ⟨⟨Decimal.one, by decide⟩⟩
  startTime := Context.sample.now
  steps := [⟨percent, ⟨⟨6, by decide⟩, .months⟩⟩, ⟨percent, ⟨⟨6, by decide⟩, .months⟩⟩]

private theorem precise_sample (token : Token)
    (resolved : Context.sample.lookup (.native "utoken") = .resolved token) :
    token.decimals.val ≤ Amount.maxDecimals := by
  have known : Context.sample.lookup (.native "utoken") =
    .resolved ⟨.native, "utoken", ⟨6, by decide⟩, "TOKEN"⟩ := rfl
  rw [known] at resolved
  cases resolved
  decide

/-- Twice all of the total is a problem of the steps. -/
theorem reported_unless_overflow_twice :
    ∃ errors, (twice hundredPercent).validate .sample = .ok errors ∧
      ∃ error ∈ errors, error.field = "steps" := by
  have part : Vesting.percentage (twice hundredPercent).steps ≠ 100 := by
    rw [Ne, Vesting.percentage_eq_hundred_iff]
    decide
  obtain ⟨_, _, checks⟩ := reported_unless_overflow (twice hundredPercent) .sample
  obtain ⟨checked, _⟩ := checks precise_sample
  obtain ⟨errors, validated, flagged⟩ := checked (by decide)
  exact ⟨errors, validated, flagged part⟩

/-- A percent of which two are more than a percent can hold. -/
def vast : Percent := ⟨⟨200000000000000000000000000000000000000, by decide⟩⟩

/-- Twice as much is neither reported on nor a problem of the steps: it is refused. -/
theorem vast_not_reported :
    (∀ token, Context.sample.lookup (twice vast).token = .resolved token →
      token.decimals.val ≤ Amount.maxDecimals) ∧
    Vesting.validity (twice vast).steps = .error (.sumOverflow vast.text vast.text) ∧
    (twice vast).validate .sample = .error (.sumOverflow vast.text vast.text) :=
  ⟨precise_sample, rfl, rfl⟩

end BeginVesting

end Proposal
