import Proposal.Unsigned

/-! Decimal numbers with eighteen places, held as whole steps of 10^-18, and their text without
trailing zeros. -/
namespace Proposal

/-- A number of steps of 10^-18 below `2 ^ bits`. -/
structure Decimal (bits : Nat) where
  atomics : Unsigned bits
  deriving DecidableEq, Repr, Inhabited

/-- The places after the point that a decimal number keeps. -/
def decimalPlaces : Nat := 18

/-- A share of a whole in percent. -/
abbrev Percent := Decimal 128

/-- An amount of a token as people write it. -/
abbrev HumanAmount := Decimal 256

namespace Decimal

variable {bits : Nat}

/-- The steps in one. -/
def one : Nat := Nat.pow 10 decimalPlaces

@[ext] theorem ext {left right : Decimal bits} (same : left.atomics.val = right.atomics.val) :
    left = right := by
  cases left; cases right; exact congrArg Decimal.mk (Unsigned.ext same)

def zero : Decimal bits := ⟨Unsigned.zero⟩

def isZero (number : Decimal bits) : Bool := number.atomics.val == 0

def ofAtomics? (bits atomics : Nat) : Option (Decimal bits) :=
  (Unsigned.ofNat? bits atomics).map Decimal.mk

def add? (left right : Decimal bits) : Option (Decimal bits) :=
  (left.atomics.add? right.atomics).map Decimal.mk

def sub? (left right : Decimal bits) : Option (Decimal bits) :=
  (left.atomics.sub? right.atomics).map Decimal.mk

/-- The product, cut off after the last place. -/
def mul? (left right : Decimal bits) : Option (Decimal bits) :=
  ofAtomics? bits (left.atomics.val * right.atomics.val / one)

/-- A hundredth of the number, cut off after the last place. -/
def hundredth (number : Decimal bits) : Decimal bits :=
  ⟨⟨number.atomics.val / 100,
    Nat.lt_of_le_of_lt (Nat.div_le_self _ _) number.atomics.val_lt⟩⟩

/-- The quotient of two whole numbers, cut off after the last place. -/
def ofRatio? (bits numerator denominator : Nat) : Option (Decimal bits) :=
  if denominator = 0 then none else ofAtomics? bits (numerator * one / denominator)

/-- The digits after the point of a number of steps less than one, without trailing zeros. -/
def writeFraction (atomics : Nat) : List Char :=
  let digits := Numeral.write atomics
  let padded := List.replicate (decimalPlaces - digits.length) '0' ++ digits
  (padded.reverse.dropWhile (· == '0')).reverse

def write (number : Decimal bits) : List Char :=
  let whole := number.atomics.val / one
  let fraction := number.atomics.val % one
  if fraction = 0 then Numeral.write whole
  else Numeral.write whole ++ '.' :: writeFraction fraction

def text (number : Decimal bits) : String := String.ofList number.write

/-- The steps of a fraction part: a numeral of at most eighteen characters after the point, where
a plus sign in front takes up a place. -/
def readFraction? (text : List Char) : Option Nat :=
  if text.length ≤ decimalPlaces then
    (Numeral.readSigned? text).map (· * Nat.pow 10 (decimalPlaces - text.length))
  else none

/-- Reads `W` or `W.F`, where both parts are numerals with at most one plus sign in front. -/
def read? (bits : Nat) (text : List Char) : Option (Decimal bits) := do
  let whole ← Numeral.readSigned? (text.takeWhile (· != '.'))
  match text.dropWhile (· != '.') with
  | [] => ofAtomics? bits (whole * one)
  | _ :: fraction => ofAtomics? bits (whole * one + (← readFraction? fraction))

end Decimal

/-- All of a whole. -/
def hundredPercent : Percent := ⟨⟨100 * Decimal.one, by decide⟩⟩

end Proposal
