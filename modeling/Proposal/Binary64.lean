/-! Finite floating-point numbers of 64 bits. Arithmetic is exact on natural numbers and rounds
once; a tie goes to the even significand. -/
namespace Proposal

/-- The magnitude `significand * 2 ^ (exponent - 1074)`, represented once: below 2 ^ 52 only with
the least exponent. -/
structure Magnitude where
  significand : Nat
  exponent : Nat
  significand_lt : significand < Nat.pow 2 53
  exponent_le : exponent ≤ 2045
  normal : Nat.pow 2 52 ≤ significand ∨ exponent = 0
  deriving DecidableEq

namespace Magnitude

def zero : Magnitude := ⟨0, 0, by decide, by decide, .inr rfl⟩

instance : Inhabited Magnitude := ⟨zero⟩

def ofParts? (significand exponent : Nat) : Option Magnitude :=
  if fits : significand < Nat.pow 2 53 ∧ exponent ≤ 2045 ∧
      (Nat.pow 2 52 ≤ significand ∨ exponent = 0) then
    some ⟨significand, exponent, fits.1, fits.2.1, fits.2.2⟩
  else none

/-- The natural number nearest to a quotient; a tie goes to the even one. -/
def roundEven (numerator denominator : Nat) : Nat :=
  let quotient := numerator / denominator
  let twice := 2 * (numerator % denominator)
  if denominator < twice ∨ (denominator = twice ∧ quotient % 2 = 1) then quotient + 1
  else quotient

/-- The magnitude nearest to a quotient, or none past the largest one. The logarithms give an
exponent that is right or one too small. -/
def nearest? (numerator denominator : Nat) : Option Magnitude :=
  if numerator = 0 then some zero
  else
    let guess := numerator.log2 + 1021 - denominator.log2
    let scaled := numerator * Nat.pow 2 1074
    let exponent :=
      if scaled / (denominator * Nat.pow 2 guess) < Nat.pow 2 53 then guess else guess + 1
    let significand := roundEven scaled (denominator * Nat.pow 2 exponent)
    if significand = Nat.pow 2 53 then ofParts? (Nat.pow 2 52) (exponent + 1)
    else ofParts? significand exponent

def mul? (left right : Magnitude) : Option Magnitude :=
  nearest? (left.significand * right.significand * Nat.pow 2 (left.exponent + right.exponent))
    (Nat.pow 2 2148)

def div? (left right : Magnitude) : Option Magnitude :=
  nearest? (left.significand * Nat.pow 2 left.exponent)
    (right.significand * Nat.pow 2 right.exponent)

/-- The magnitude nearest to a power of ten. -/
def powerOfTen? (power : Nat) : Option Magnitude := nearest? (Nat.pow 10 power) 1

end Magnitude

/-- A finite number; zero has a sign too. -/
structure Binary64 where
  negative : Bool
  magnitude : Magnitude
  deriving DecidableEq

namespace Binary64

instance : Inhabited Binary64 := ⟨⟨false, .zero⟩⟩

def isZero (number : Binary64) : Bool := number.magnitude.significand == 0

end Binary64

end Proposal
