import Mathlib.Tactic
import Proposal.Proofs.Amount
import Proposal.Vesting

namespace Proposal

/-- What a unit of time is in seconds, by the number. -/
def DurationUnit.inSeconds : DurationUnit → Nat
  | .seconds => 1
  | .minutes => 60
  | .hours => 3600
  | .days => 86400
  | .weeks => 604800
  | .months => 2592000
  | .years => 31536000

private theorem DurationUnit.length_eq_inSeconds (unit : DurationUnit) :
    unit.length = unit.inSeconds := by
  cases unit <;> rfl

/-- The seconds of a step, however many they are. -/
def VestingStep.span (step : VestingStep) : Nat :=
  step.delay.value.val * step.delay.unit.inSeconds

@[simp] theorem Unsigned.val_zero {bits : Nat} : (zero : Unsigned bits).val = 0 := rfl

@[simp] theorem Decimal.val_zero {bits : Nat} : (zero : Decimal bits).atomics.val = 0 := rfl

theorem VestingStep.seconds?_eq_some_iff {step : VestingStep} {count : Count} :
    step.delay.seconds? = some count ↔ count.val = step.span := by
  rw [span, ← DurationUnit.length_eq_inSeconds]
  exact Unsigned.ofNat?_eq_some_iff

theorem VestingStep.seconds?_eq_none_iff {step : VestingStep} :
    step.delay.seconds? = none ↔ Nat.pow 2 64 ≤ step.span := by
  rw [span, ← DurationUnit.length_eq_inSeconds]
  exact Unsigned.ofNat?_eq_none_iff

private theorem VestingStep.seconds_eq_ok_iff {step : VestingStep} {count : Count} :
    step.seconds = .ok count ↔ count.val = step.span :=
  orError_eq_ok_iff.trans seconds?_eq_some_iff

namespace Decimal

variable {bits : Nat} {left right sum product : Decimal bits}

private theorem ofAtomics?_eq_some_iff {atomics : Nat} {number : Decimal bits} :
    ofAtomics? bits atomics = some number ↔ number.atomics.val = atomics := by
  rw [ofAtomics?, Option.map_eq_some_iff]
  constructor
  · rintro ⟨found, fits, rfl⟩
    exact Unsigned.ofNat?_eq_some_iff.mp fits
  · intro same
    exact ⟨number.atomics, Unsigned.ofNat?_eq_some_iff.mpr same, rfl⟩

theorem plus_eq_ok_iff :
    left.plus right = .ok sum ↔ sum.atomics.val = left.atomics.val + right.atomics.val :=
  orError_eq_ok_iff.trans ofAtomics?_eq_some_iff

private theorem plus_eq_error (large : Nat.pow 2 bits ≤ left.atomics.val + right.atomics.val) :
    left.plus right = .error (.sumOverflow left.text right.text) := by
  have none : left.atomics.add? right.atomics = none := Unsigned.ofNat?_eq_none_iff.mpr large
  rw [plus, add?, none]
  rfl

theorem times_eq_ok_iff :
    left.times right = .ok product ↔
      product.atomics.val = left.atomics.val * right.atomics.val / one :=
  orError_eq_ok_iff.trans ofAtomics?_eq_some_iff

theorem ofRatio?_eq_some_iff {numerator denominator : Nat} {quotient : Decimal bits}
    (nonzero : denominator ≠ 0) :
    ofRatio? bits numerator denominator = some quotient ↔
      quotient.atomics.val = numerator * one / denominator := by
  rw [ofRatio?, if_neg nonzero]
  exact ofAtomics?_eq_some_iff

end Decimal

namespace Vesting

variable {total : BaseAmount} {seconds : Count} {percent : Percent} {step : VestingStep}
  {steps rest : List VestingStep}

/-- The shares of all steps together, in steps of a percent. -/
def percentSum (steps : List VestingStep) : Nat :=
  (steps.map fun step => step.percent.atomics.val).sum

/-- The seconds of all steps together. -/
def secondsSum (steps : List VestingStep) : Nat := (steps.map VestingStep.span).sum

theorem percentSum_cons :
    percentSum (step :: rest) = step.percent.atomics.val + percentSum rest := by
  simp [percentSum]

theorem secondsSum_cons : secondsSum (step :: rest) = step.span + secondsSum rest := by
  simp [secondsSum]

private theorem foldlM_plus_eq_ok_iff {sum : Percent} :
    steps.foldlM (fun (sum : Percent) step => sum.plus step.percent) percent = .ok sum ↔
      sum.atomics.val = percent.atomics.val + percentSum steps := by
  induction steps generalizing percent with
  | nil =>
    rw [List.foldlM_nil]
    refine ⟨?_, fun same => congrArg Except.ok (Decimal.ext same.symm)⟩
    rintro ⟨⟩
    rfl
  | cons step rest ih =>
    rw [List.foldlM_cons, bind_eq_ok_iff, percentSum_cons, ← Nat.add_assoc]
    constructor
    · rintro ⟨reached, added, later⟩
      rw [ih.mp later, Decimal.plus_eq_ok_iff.mp added]
    · intro same
      have bound : percent.atomics.val + step.percent.atomics.val < Nat.pow 2 128 := by
        have := sum.atomics.val_lt
        omega
      exact ⟨⟨⟨_, bound⟩⟩, Decimal.plus_eq_ok_iff.mpr rfl, ih.mpr same⟩

/-- Shares that come to more than a percent can hold are refused, at the first sum that is too
large. -/
theorem foldlM_plus_eq_error (large : Nat.pow 2 128 ≤ percent.atomics.val + percentSum steps) :
    ∃ left right : Percent,
      steps.foldlM (fun (sum : Percent) step => sum.plus step.percent) percent =
        .error (.sumOverflow left.text right.text) := by
  induction steps generalizing percent with
  | nil => exact absurd percent.atomics.val_lt (Nat.not_lt.mpr (by simpa [percentSum] using large))
  | cons step rest ih =>
    rw [percentSum_cons, ← Nat.add_assoc] at large
    rw [List.foldlM_cons]
    by_cases fits : percent.atomics.val + step.percent.atomics.val < Nat.pow 2 128
    · let reached : Percent := ⟨⟨percent.atomics.val + step.percent.atomics.val, fits⟩⟩
      have added : percent.plus step.percent = .ok reached := Decimal.plus_eq_ok_iff.mpr rfl
      obtain ⟨left, right, failed⟩ := ih (show Nat.pow 2 128 ≤ reached.atomics.val + _ from large)
      exact ⟨left, right, by rw [added]; exact failed⟩
    · refine ⟨percent, step.percent, ?_⟩
      rw [Decimal.plus_eq_error (Nat.not_lt.mp fits)]
      rfl

/-- The report on a schedule adds its shares up, and says whether they are all of the total. -/
theorem validity_eq_ok_iff {report : VestingValidity} :
    validity steps = .ok report ↔ report.percentSum.atomics.val = percentSum steps ∧
      (report.isValid = true ↔ percentSum steps = hundredPercent.atomics.val) := by
  obtain ⟨reported, isValid⟩ := report
  have whole_iff : reported.atomics.val = percentSum steps →
      ((reported == hundredPercent) = true ↔ percentSum steps = hundredPercent.atomics.val) := by
    intro added
    rw [beq_iff_eq, ← added]
    exact ⟨fun same => by rw [same], Decimal.ext⟩
  simp only [validity, bind_eq_ok_iff, foldlM_plus_eq_ok_iff, Decimal.val_zero, Nat.zero_add]
  constructor
  · rintro ⟨sum, added, same⟩
    cases same
    exact ⟨added, whole_iff added⟩
  · rintro ⟨added, valid_iff⟩
    have same : (reported == hundredPercent) = isValid :=
      Bool.eq_iff_iff.mpr ((whole_iff added).trans valid_iff.symm)
    exact ⟨reported, added, by rw [same]; rfl⟩

/-- A schedule is valid if its shares come to all of the total. -/
theorem validity_isValid_iff :
    (∃ validity, Vesting.validity steps = .ok validity ∧ validity.isValid = true) ↔
      percentSum steps = hundredPercent.atomics.val := by
  constructor
  · rintro ⟨report, reported, valid⟩
    exact (validity_eq_ok_iff.mp reported).2.mp valid
  · intro whole
    exact ⟨⟨hundredPercent, true⟩, validity_eq_ok_iff.mpr ⟨whole.symm, iff_of_true rfl whole⟩, rfl⟩

private theorem addSeconds_eq_ok_iff {later : Count} :
    (∃ span, step.seconds = .ok span ∧ orError .timeOverflow (seconds.add? span) = .ok later) ↔
      later.val = seconds.val + step.span := by
  constructor
  · rintro ⟨span, counted, added⟩
    rw [Unsigned.ofNat?_eq_some_iff.mp (orError_eq_ok_iff.mp added),
      VestingStep.seconds_eq_ok_iff.mp counted]
  · intro same
    have bound : step.span < Nat.pow 2 64 := by
      have := later.val_lt
      omega
    exact ⟨⟨_, bound⟩, VestingStep.seconds_eq_ok_iff.mpr rfl,
      orError_eq_ok_iff.mpr (Unsigned.ofNat?_eq_some_iff.mpr same)⟩

/-- The length of a schedule is the sum of its steps, if that can be counted. -/
theorem durationSeconds_eq_ok_iff {duration : Count} :
    durationSeconds steps = .ok duration ↔ duration.val = secondsSum steps := by
  suffices reached : ∀ seconds : Count,
      steps.foldlM (fun (total : Count) (step : VestingStep) => do
        orError .timeOverflow (total.add? (← step.seconds))) seconds = .ok duration ↔
        duration.val = seconds.val + secondsSum steps by
    have whole := reached .zero
    rw [Unsigned.val_zero, Nat.zero_add] at whole
    exact whole
  induction steps with
  | nil =>
    intro seconds
    rw [List.foldlM_nil]
    refine ⟨?_, fun same => congrArg Except.ok (Unsigned.ext same.symm)⟩
    rintro ⟨⟩
    rfl
  | cons step rest ih =>
    intro seconds
    rw [List.foldlM_cons, bind_eq_ok_iff, secondsSum_cons, ← Nat.add_assoc]
    simp only [bind_eq_ok_iff, addSeconds_eq_ok_iff, ih]
    constructor
    · rintro ⟨later, added, counted⟩
      rw [counted, added]
    · intro same
      have bound : seconds.val + step.span < Nat.pow 2 64 := by
        have := duration.val_lt
        omega
      exact ⟨⟨_, bound⟩, rfl, same⟩

private theorem shareOf_eq_ok_iff {amount : BaseAmount} :
    shareOf total percent = .ok amount ↔
      amount.val = total.val * percent.atomics.val / hundredPercent.atomics.val :=
  orError_eq_ok_iff.trans Unsigned.ofNat?_eq_some_iff

/-- What one step adds to the offsets. -/
theorem offsetsFrom_cons_eq_ok_iff {offsets : List (Count × BaseAmount)} :
    offsetsFrom total seconds percent (step :: rest) = .ok offsets ↔
      ∃ (later : Count) (reached : Percent) (amount : BaseAmount) (others : List _),
        later.val = seconds.val + step.span ∧
        reached.atomics.val = percent.atomics.val + step.percent.atomics.val ∧
        amount.val = total.val * reached.atomics.val / hundredPercent.atomics.val ∧
        offsetsFrom total later reached rest = .ok others ∧
        offsets = (later, amount) :: others := by
  simp only [offsetsFrom, bind_eq_ok_iff, Decimal.plus_eq_ok_iff, shareOf_eq_ok_iff]
  constructor
  · rintro ⟨span, counted, later, added, reached, shares, amount, share, others, more, same⟩
    cases same
    exact ⟨later, reached, amount, others, addSeconds_eq_ok_iff.mp ⟨span, counted, added⟩, shares,
      share, more, rfl⟩
  · rintro ⟨later, reached, amount, others, spans, shares, share, more, rfl⟩
    obtain ⟨span, counted, added⟩ := addSeconds_eq_ok_iff.mpr spans
    exact ⟨span, counted, later, added, reached, shares, amount, share, others, more, rfl⟩

/-- A cumulative share is at most the total. -/
theorem share_le {reached : Nat} (within : reached ≤ hundredPercent.atomics.val) :
    total.val * reached / hundredPercent.atomics.val ≤ total.val :=
  Nat.div_le_of_le_mul (by rw [Nat.mul_comm]; exact Nat.mul_le_mul_right _ within)

/-- Steps that stay within the total and the longest duration have offsets. -/
theorem offsetsFrom_eq_ok (spans : seconds.val + secondsSum steps < Nat.pow 2 64)
    (shares : percent.atomics.val + percentSum steps ≤ hundredPercent.atomics.val) :
    ∃ offsets, offsetsFrom total seconds percent steps = .ok offsets := by
  induction steps generalizing seconds percent with
  | nil => exact ⟨[], rfl⟩
  | cons step rest ih =>
    rw [secondsSum_cons, ← Nat.add_assoc] at spans
    rw [percentSum_cons, ← Nat.add_assoc] at shares
    have within : percent.atomics.val + step.percent.atomics.val ≤ hundredPercent.atomics.val :=
      Nat.le_of_add_right_le shares
    let later : Count := ⟨seconds.val + step.span, Nat.lt_of_add_right_lt spans⟩
    let reached : Percent := ⟨⟨percent.atomics.val + step.percent.atomics.val,
      within.trans_lt hundredPercent.atomics.val_lt⟩⟩
    let amount : BaseAmount := ⟨_, (share_le within).trans_lt total.val_lt⟩
    have laterSpans : later.val + secondsSum rest < Nat.pow 2 64 := spans
    have reachedShares : reached.atomics.val + percentSum rest ≤ hundredPercent.atomics.val :=
      shares
    obtain ⟨others, more⟩ := ih laterSpans reachedShares
    exact ⟨(later, amount) :: others, offsetsFrom_cons_eq_ok_iff.mpr
      ⟨later, reached, amount, others, rfl, rfl, rfl, more, rfl⟩⟩

/-- What one step asks of a schedule whose steps all end on whole base units. -/
theorem exactFrom_cons_eq_true_iff :
    exactFrom total percent (step :: rest) = .ok true ↔
      ∃ reached : Percent, reached.atomics.val = percent.atomics.val + step.percent.atomics.val ∧
        hundredPercent.atomics.val ∣ total.val * reached.atomics.val ∧
        exactFrom total reached rest = .ok true := by
  simp only [exactFrom, bind_eq_ok_iff, Decimal.plus_eq_ok_iff]
  refine exists_congr fun reached => and_congr_right fun _ => ?_
  rw [Nat.dvd_iff_mod_eq_zero]
  split
  next whole => exact (and_iff_right whole).symm
  next part => exact iff_of_false nofun fun exactly => part exactly.1

/-- The check answers wherever the shares can be added up, and finds exact those that end on whole
base units throughout. -/
theorem exists_exactFrom (start : hundredPercent.atomics.val ∣ total.val * percent.atomics.val)
    (bounded : percent.atomics.val + percentSum steps < Nat.pow 2 128) :
    ∃ exactly, exactFrom total percent steps = .ok exactly ∧
      (exactly = true ↔ ∀ count, hundredPercent.atomics.val ∣
        total.val * (percent.atomics.val + percentSum (steps.take count))) := by
  induction steps generalizing percent with
  | nil => exact ⟨true, rfl, by simpa [percentSum] using start⟩
  | cons step rest ih =>
    rw [percentSum_cons, ← Nat.add_assoc] at bounded
    let reached : Percent := ⟨⟨percent.atomics.val + step.percent.atomics.val,
      Nat.lt_of_add_right_lt bounded⟩⟩
    have next : exactFrom total percent (step :: rest) =
        if hundredPercent.atomics.val ∣ total.val * reached.atomics.val then
          exactFrom total reached rest else .ok false := by
      have added : percent.plus step.percent = .ok reached := Decimal.plus_eq_ok_iff.mpr rfl
      simp only [exactFrom, added, Nat.dvd_iff_mod_eq_zero]
      rfl
    have later : ∀ count, percent.atomics.val + percentSum ((step :: rest).take (count + 1)) =
        reached.atomics.val + percentSum (rest.take count) := by
      intro count
      rw [List.take_succ_cons, percentSum_cons, Nat.add_assoc]
    by_cases whole : hundredPercent.atomics.val ∣ total.val * reached.atomics.val
    · obtain ⟨exactly, checked, exactly_iff⟩ := ih whole bounded
      refine ⟨exactly, ?_, exactly_iff.trans ⟨fun all count => ?_, fun all count => ?_⟩⟩
      · rw [next, if_pos whole, checked]
      · cases count with
        | zero => simpa [percentSum] using start
        | succ count => exact later count ▸ all count
      · exact later count ▸ all (count + 1)
    · refine ⟨false, by rw [next, if_neg whole], iff_of_false Bool.false_ne_true ?_⟩
      refine fun all => whole ?_
      simpa [percentSum, reached] using all 1

theorem exists_offsetsAreExact (total : BaseAmount) (bounded : percentSum steps < Nat.pow 2 128) :
    ∃ exactly, offsetsAreExact total steps = .ok exactly ∧
      (exactly = true ↔
        ∀ count, hundredPercent.atomics.val ∣ total.val * percentSum (steps.take count)) := by
  have start : hundredPercent.atomics.val ∣ total.val * (Decimal.zero : Percent).atomics.val :=
    dvd_zero _
  obtain ⟨exactly, checked, exactly_iff⟩ := exists_exactFrom start (by simpa using bounded)
  simp only [Decimal.val_zero, Nat.zero_add] at exactly_iff
  exact ⟨exactly, checked, exactly_iff⟩

end Vesting

end Proposal
