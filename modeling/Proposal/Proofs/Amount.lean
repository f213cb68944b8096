import Mathlib.Tactic
import Proposal.Amount

namespace Proposal

theorem orError_eq_ok_iff {α : Type} {error : ActionError} {found : Option α} {value : α} :
    orError error found = .ok value ↔ found = some value := by
  cases found <;> simp [orError]

theorem orError_eq_error_iff {α : Type} {error other : ActionError} {found : Option α} :
    orError error found = .error other ↔ found = none ∧ error = other := by
  cases found <;> simp [orError]

theorem orError_bind {α β : Type} (error : ActionError) (found : Option α) (next : α → Option β) :
    (orError error found >>= fun value => orError error (next value)) =
      orError error (found.bind next) := by
  cases found <;> rfl

theorem bind_eq_ok_iff {α β : Type} {first : Result α} {next : α → Result β} {result : β} :
    first >>= next = .ok result ↔ ∃ value, first = .ok value ∧ next value = .ok result := by
  cases first <;> simp [bind, Except.bind]

theorem map_eq_ok_iff {α β : Type} {first : Result α} {wrap : α → β} {result : β} :
    first.map wrap = .ok result ↔ ∃ value, first = .ok value ∧ wrap value = result := by
  cases first <;> simp [Except.map]

theorem mapM_eq_ok_iff {α β : Type} {step : α → Result β} {items : List α} {results : List β} :
    items.mapM step = .ok results ↔
      List.Forall₂ (fun item result => step item = .ok result) items results := by
  induction items generalizing results with
  | nil => simp [pure, Except.pure, eq_comm]
  | cons item rest ih =>
    simp only [List.mapM_cons, bind_eq_ok_iff, pure, Except.pure, Except.ok.injEq, ih,
      List.forall₂_cons_left_iff]
    constructor
    · rintro ⟨result, made, results, others, rfl⟩
      exact ⟨result, results, made, others, rfl⟩
    · rintro ⟨result, results, made, others, rfl⟩
      exact ⟨result, made, results, others, rfl⟩

theorem mapM_orError_eq_error {α β : Type} {error : ActionError} {read : α → Option β}
    {items : List α} (missing : ∃ item ∈ items, read item = none) :
    (items.mapM fun item => orError error (read item)) = .error error := by
  induction items with
  | nil =>
    obtain ⟨item, member, _⟩ := missing
    cases member
  | cons first rest ih =>
    rw [List.mapM_cons]
    cases found : read first with
    | none => rfl
    | some value =>
      obtain ⟨item, member, none⟩ := missing
      rcases List.mem_cons.mp member with rfl | later
      · rw [found] at none
        cases none
      · rw [ih ⟨item, later, none⟩]
        rfl

namespace Unsigned

variable {bits : Nat} {left right result : Unsigned bits}

theorem plus_eq_ok_iff : left.plus right = .ok result ↔ result.val = left.val + right.val :=
  orError_eq_ok_iff.trans ofNat?_eq_some_iff

theorem times_eq_ok_iff : left.times right = .ok result ↔ result.val = left.val * right.val :=
  orError_eq_ok_iff.trans ofNat?_eq_some_iff

end Unsigned

namespace Amount

variable {human : HumanAmount} {base : BaseAmount} {decimals : Places}

/-- The human amount is exactly so many base units of a token that an amount can be given of. -/
def Exact (human : HumanAmount) (base : BaseAmount) (decimals : Places) : Prop :=
  decimals.val ≤ maxDecimals ∧
    human.atomics.val * Nat.pow 10 decimals.val = base.val * Decimal.one

theorem stepsPerBase_pos (decimals : Places) : 0 < stepsPerBase decimals :=
  Nat.pow_pos (by decide)

theorem stepsPerBase_mul (within : decimals.val ≤ maxDecimals) :
    stepsPerBase decimals * Nat.pow 10 decimals.val = Decimal.one := by
  simp only [stepsPerBase, Decimal.one, Nat.pow_eq]
  rw [← pow_add, Nat.sub_add_cancel within]
  rfl

theorem exact_iff :
    Exact human base decimals ↔
      decimals.val ≤ maxDecimals ∧ human.atomics.val = base.val * stepsPerBase decimals := by
  apply and_congr_right
  intro within
  rw [← stepsPerBase_mul within, ← Nat.mul_assoc]
  exact Nat.mul_left_inj (Nat.pow_pos (by decide)).ne'

theorem checkDecimals_eq_ok (within : decimals.val ≤ maxDecimals) :
    checkDecimals decimals = .ok () :=
  if_neg (Nat.not_lt.mpr within)

theorem checkDecimals_eq_error (beyond : ¬decimals.val ≤ maxDecimals) :
    checkDecimals decimals = .error (.tooPrecise decimals) :=
  if_pos (Nat.lt_of_not_le beyond)

theorem stepsPerBase_le (decimals : Places) : stepsPerBase decimals ≤ Decimal.one :=
  Nat.pow_le_pow_right (by decide) (Nat.sub_le _ _)

/-- The whole number nearest to a quotient, a half goes up. -/
def nearest (numerator steps : Nat) : Nat :=
  if steps ≤ 2 * (numerator % steps) then numerator / steps + 1 else numerator / steps

theorem nearest_add (quotient : Nat) {remainder steps : Nat} (less : remainder < steps) :
    nearest (quotient * steps + remainder) steps =
      if steps ≤ 2 * remainder then quotient + 1 else quotient := by
  have positive := Nat.zero_lt_of_lt less
  rw [nearest, Nat.mul_comm quotient, Nat.mul_add_mod, Nat.mod_eq_of_lt less,
    Nat.mul_add_div positive, Nat.div_eq_of_lt less]
  rfl

theorem nearest_mul (quotient : Nat) {steps : Nat} (positive : 0 < steps) :
    nearest (quotient * steps) steps = quotient :=
  (nearest_add quotient positive).trans (if_neg (Nat.not_le.mpr positive))

/-- Rounding never leaves the numbers of 256 bits: only the result may be too large. -/
theorem toBase_eq_nearest (within : decimals.val ≤ maxDecimals) :
    toBase human decimals = orError (.invalidAmount human.text .tooLarge)
      (Unsigned.ofNat? 128 (nearest human.atomics.val (stepsPerBase decimals))) := by
  have positive := stepsPerBase_pos decimals
  have less := Nat.mod_lt human.atomics.val positive
  have twiceFits : human.atomics.val % stepsPerBase decimals * 2 < Nat.pow 2 256 :=
    Nat.lt_of_lt_of_le (Nat.mul_lt_mul_of_pos_right less two_pos)
      (Nat.le_trans (Nat.mul_le_mul_right 2 (stepsPerBase_le decimals)) (by decide))
  have twice : (human.atomics.mod (stepsPerBase decimals)).times ⟨2, by decide⟩ =
    .ok ⟨_, twiceFits⟩ := Unsigned.times_eq_ok_iff.mpr rfl
  rw [toBase, checkDecimals_eq_ok within]
  simp only [twice, nearest, Nat.mul_comm 2, bind, Except.bind]
  by_cases up : stepsPerBase decimals ≤ human.atomics.val % stepsPerBase decimals * 2
  · -- A remainder that rounds up is not zero, so there is room above the quotient.
    have room : human.atomics.val / stepsPerBase decimals + 1 ≤ human.atomics.val := by
      have parts := Nat.div_add_mod human.atomics.val (stepsPerBase decimals)
      have smaller := Nat.le_mul_of_pos_left (human.atomics.val / stepsPerBase decimals) positive
      omega
    have next : (human.atomics.div (stepsPerBase decimals)).plus ⟨1, by decide⟩ =
        .ok ⟨_, Nat.lt_of_le_of_lt room human.atomics.val_lt⟩ :=
      Unsigned.plus_eq_ok_iff.mpr rfl
    rw [if_pos up, if_pos up, next]
  · rw [if_neg up, if_neg up]
    rfl

/-- The human amount that is shown for base units is exact. -/
theorem toHuman_eq_ok_iff : toHuman base decimals = .ok human ↔ Exact human base decimals := by
  rw [exact_iff]
  by_cases within : decimals.val ≤ maxDecimals
  · rw [toHuman, checkDecimals_eq_ok within]
    constructor
    · rintro ⟨⟩
      exact ⟨within, rfl⟩
    · rintro ⟨_, same⟩
      exact congrArg Except.ok (Decimal.ext same.symm)
  · rw [toHuman, checkDecimals_eq_error within]
    exact iff_of_false nofun fun exactly => within exactly.1

/-- An exact amount is not rounded. -/
theorem Exact.toBase_eq (exactly : Exact human base decimals) :
    toBase human decimals = .ok base := by
  obtain ⟨within, same⟩ := exact_iff.mp exactly
  rw [toBase_eq_nearest within, same, nearest_mul _ (stepsPerBase_pos decimals)]
  exact orError_eq_ok_iff.mpr (Unsigned.ofNat?_val base)

/-- A human amount comes to one number of base units at most. -/
theorem Exact.base_unique {other : BaseAmount} (exactly : Exact human base decimals)
    (again : Exact human other decimals) : base = other :=
  Except.ok.inj (exactly.toBase_eq.symm.trans again.toBase_eq)

theorem Exact.fits_eq (exactly : Exact human base decimals) : fits human decimals = .ok true := by
  obtain ⟨within, same⟩ := exact_iff.mp exactly
  rw [fits, checkDecimals_eq_ok within, same, Nat.mul_mod_left]
  rfl

/-- An amount that fits a token is exactly the base units that it comes to. -/
theorem exact_of_fits (fitting : fits human decimals = .ok true)
    (scaled : toBase human decimals = .ok base) : Exact human base decimals := by
  by_cases within : decimals.val ≤ maxDecimals
  · rw [exact_iff]
    refine ⟨within, ?_⟩
    rw [fits, checkDecimals_eq_ok within] at fitting
    have divides : stepsPerBase decimals ∣ human.atomics.val :=
      Nat.dvd_of_mod_eq_zero (by simpa [bind, Except.bind, pure, Except.pure] using fitting)
    obtain ⟨quotient, same⟩ := divides
    rw [Nat.mul_comm] at same
    rw [toBase_eq_nearest within, same, nearest_mul _ (stepsPerBase_pos decimals)] at scaled
    rw [same, Unsigned.ofNat?_eq_some_iff.mp (orError_eq_ok_iff.mp scaled)]
  · rw [fits, checkDecimals_eq_error within] at fitting
    cases fitting

theorem Exact.isZero_eq (exactly : Exact human base decimals) :
    human.isZero = false ↔ base.val ≠ 0 := by
  obtain ⟨_, same⟩ := exact_iff.mp exactly
  have positive := stepsPerBase_pos decimals
  rw [Decimal.isZero, same, beq_eq_false_iff_ne, Nat.mul_ne_zero_iff]
  exact and_iff_left positive.ne'

end Amount

end Proposal
