import Mathlib.Tactic
import Proposal.Unsigned

namespace Proposal.Numeral

variable {digit first : Char} {run rest : List Char}

/-- A run of the ten digits, which may be empty. -/
def IsDigits (run : List Char) : Prop := ∀ digit ∈ run, digit.isDigit = true

instance (run : List Char) : Decidable (IsDigits run) :=
  decidable_of_iff (run.all Char.isDigit = true) List.all_eq_true

theorem isDigits_append {front back : List Char} :
    IsDigits (front ++ back) ↔ IsDigits front ∧ IsDigits back :=
  List.forall_mem_append

theorem isDigits_write (number : Nat) : IsDigits (write number) :=
  fun _ member => isDigit_of_mem_write member

theorem value_append (front back : List Char) :
    value (front ++ back) = value front * 10 ^ back.length + value back := by
  rw [value, Nat.ofDigitChars_append, Nat.ofDigitChars_eq_ofDigitChars_zero, Nat.mul_comm]
  rfl

theorem value_append_zeros (run : List Char) (count : Nat) :
    value (run ++ List.replicate count '0') = value run * 10 ^ count := by
  rw [value, Nat.ofDigitChars_append, Nat.ofDigitChars_replicate_zero, Nat.mul_comm]
  rfl

private theorem value_cons (first : Char) (rest : List Char) :
    value (first :: rest) = (first.toNat - 48) * 10 ^ rest.length + value rest := by
  rw [← List.singleton_append, value_append]
  simp [value, Nat.ofDigitChars_cons]

theorem toNat_of_isDigit (isDigit : digit.isDigit = true) :
    48 ≤ digit.toNat ∧ digit.toNat ≤ 57 := by
  simpa [Char.isDigit, UInt32.le_iff_toNat_le] using isDigit

theorem value_lt (digits : IsDigits run) : value run < 10 ^ run.length := by
  induction run with
  | nil => exact Nat.one_pos
  | cons first rest ih =>
    obtain ⟨isDigit, others⟩ := List.forall_mem_cons.mp digits
    have small := ih others
    have atMostNine : first.toNat - 48 ≤ 9 := by
      have := toNat_of_isDigit isDigit
      omega
    have leading := Nat.mul_le_mul_right (10 ^ rest.length) atMostNine
    rw [value_cons, List.length_cons, pow_succ]
    omega

/-- A run is at least half of its range if its first digit is a five or more. -/
theorem half_le_value_iff (digits : IsDigits (first :: rest)) :
    10 ^ (first :: rest).length ≤ 2 * value (first :: rest) ↔ '5' ≤ first := by
  obtain ⟨isDigit, others⟩ := List.forall_mem_cons.mp digits
  have small := value_lt others
  have code := toNat_of_isDigit isDigit
  have five : '5' ≤ first ↔ 5 ≤ first.toNat - 48 := by
    rw [Char.le_def, UInt32.le_iff_toNat_le]
    change 53 ≤ first.toNat ↔ _
    omega
  rw [five, value_cons, List.length_cons, pow_succ]
  constructor
  · intro half
    by_contra low
    have leading := Nat.mul_le_mul_right (10 ^ rest.length) (Nat.le_of_lt_succ (not_le.mp low))
    omega
  · intro high
    have leading := Nat.mul_le_mul_right (10 ^ rest.length) high
    omega

end Proposal.Numeral
