import Mathlib.Tactic
import Proposal.Proofs.Amount.Spelling

namespace Proposal

private theorem Numeral.value_replicate_zeros_append (count : Nat) (run : List Char) :
    value (List.replicate count '0' ++ run) = value run := by
  rw [value_append, ← List.nil_append (List.replicate count '0'), value_append_zeros]
  simp [value]

namespace Decimal

open Numeral (IsDigits)

variable {bits atomics : Nat}

/-- What is stripped from the end of a run are zeros. -/
theorem exists_zeros (run : List Char) :
    ∃ count, (run.reverse.dropWhile (· == '0')).reverse ++ List.replicate count '0' = run := by
  have zeros : run.reverse.takeWhile (· == '0') =
      List.replicate (run.reverse.takeWhile (· == '0')).length '0' := by
    refine List.eq_replicate_of_mem fun digit member => ?_
    exact beq_iff_eq.mp (List.all_eq_true.mp List.all_takeWhile digit member)
  refine ⟨(run.reverse.takeWhile (· == '0')).length, ?_⟩
  rw [← List.reverse_replicate, ← zeros, ← List.reverse_append, List.takeWhile_append_dropWhile,
    List.reverse_reverse]

/-- The digits after the point are the eighteen of the fraction, up to zeros at the end. -/
theorem exists_writeFraction_append (atomics : Nat) :
    ∃ count, writeFraction atomics ++ List.replicate count '0' =
      List.replicate (decimalPlaces - (Numeral.write atomics).length) '0' ++
        Numeral.write atomics :=
  exists_zeros _

private theorem isDigits_writeFraction (atomics : Nat) : IsDigits (writeFraction atomics) := by
  obtain ⟨count, padded⟩ := exists_writeFraction_append atomics
  have digits : IsDigits (writeFraction atomics ++ List.replicate count '0') := by
    rw [padded, Numeral.isDigits_append]
    refine ⟨fun digit member => ?_, Numeral.isDigits_write atomics⟩
    rw [List.eq_of_mem_replicate member]
    rfl
  exact (Numeral.isDigits_append.mp digits).1

private theorem value_writeFraction_div (less : atomics < one) :
    (Numeral.value (writeFraction atomics) : ℚ) / 10 ^ (writeFraction atomics).length =
      atomics / one := by
  obtain ⟨count, padded⟩ := exists_writeFraction_append atomics
  have value : Numeral.value (writeFraction atomics) * 10 ^ count = atomics := by
    rw [← Numeral.value_append_zeros, padded, Numeral.value_replicate_zeros_append,
      Numeral.value_write]
  have places : (writeFraction atomics).length + count = decimalPlaces := by
    have short : (Numeral.write atomics).length ≤ decimalPlaces :=
      (Nat.length_toDigits_le_iff (by decide) (by decide)).mpr less
    have lengths := congrArg List.length padded
    simp only [List.length_append, List.length_replicate] at lengths
    omega
  have scale : one = 10 ^ (writeFraction atomics).length * 10 ^ count := by
    rw [← pow_add, places]
    rfl
  have zeros : (10 : ℚ) ^ count ≠ 0 := by positivity
  calc (Numeral.value (writeFraction atomics) : ℚ) / 10 ^ (writeFraction atomics).length
    _ = (Numeral.value (writeFraction atomics) * 10 ^ count) /
        (10 ^ (writeFraction atomics).length * 10 ^ count) := (mul_div_mul_right _ _ zeros).symm
    _ = ((Numeral.value (writeFraction atomics) * 10 ^ count : ℕ) : ℚ) / one := by
      rw [scale]
      push_cast
      rfl
    _ = atomics / one := by rw [value]

private theorem writeFraction_ne_nil (less : atomics < one) (positive : atomics ≠ 0) :
    writeFraction atomics ≠ [] := by
  intro empty
  have quotient : (atomics : ℚ) / one = 0 := by
    rw [← value_writeFraction_div less, empty]
    simp [Numeral.value]
  rcases div_eq_zero_iff.mp quotient with zero | zero
  · exact positive (Nat.cast_eq_zero.mp zero)
  · exact absurd (Nat.cast_eq_zero.mp zero) (by decide)

/-- The text of a decimal number is a numeral of its value. -/
theorem denotes_write (number : Decimal bits) : Amount.Denotes number.write number.rational := by
  have whole := Numeral.isDigits_write (number.atomics.val / one)
  have notEmpty := Numeral.write_ne_nil (number.atomics.val / one)
  have less : number.atomics.val % one < one := Nat.mod_lt _ (by decide)
  rw [write, rational, Amount.div_eq_quotient_add number.atomics.val (by decide)]
  split
  next none =>
    have denotes := Amount.Denotes.whole notEmpty whole
    rw [Numeral.value_write] at denotes
    simpa only [none, Nat.cast_zero, zero_div, add_zero] using denotes
  next some =>
    have denotes := Amount.Denotes.both notEmpty whole (writeFraction_ne_nil less some)
      (isDigits_writeFraction _)
    rwa [Numeral.value_write, value_writeFraction_div less] at denotes

end Decimal

namespace Amount

/-- The text of a human amount spells its value. -/
theorem spells_text (amount : HumanAmount) : Spells amount.text amount.rational := by
  have split : amount.text.toList = [] ++ ([] ++ amount.write) ++ [] := by
    rw [Decimal.text, String.toList_ofList]
    simp
  exact ⟨split, List.forall_mem_nil _, List.forall_mem_nil _, .inl rfl, amount.denotes_write⟩

/-- A human amount is scaled to the base units that its text is read as, or refused with the same
error. -/
theorem parse_text_eq_toBase (amount : HumanAmount) (decimals : Places) :
    parse amount.text decimals = toBase amount decimals ∧ 0 < stepsPerBase decimals ∧
      ∀ error, toBase amount decimals = .error error →
        error = .tooPrecise decimals ∨ error = .invalidAmount amount.text .tooLarge := by
  refine ⟨?_, stepsPerBase_pos decimals, fun error failed => ?_⟩
  · by_cases within : decimals.val ≤ maxDecimals
    · rw [parse_of_spells within (spells_text amount), toBase_eq_unitsOf within]
    · rw [parse, toBase, checkDecimals_eq_error within]
      rfl
  · by_cases within : decimals.val ≤ maxDecimals
    · rw [toBase_eq_unitsOf within] at failed
      exact .inr (orError_eq_error_iff.mp failed).2.symm
    · rw [toBase, checkDecimals_eq_error within] at failed
      exact .inl (Except.error.inj failed).symm

end Amount

end Proposal
