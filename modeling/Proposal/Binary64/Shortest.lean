import Proposal.Binary64
import Proposal.Unsigned

/-! The shortest decimal that reads back as a floating-point number. Candidates are its two
neighbours on each decimal grid. -/
namespace Proposal

/-- The choice between two decimals of the same distance: the one with an even last digit, or the
larger one. -/
inductive Tie
  | toEven
  | up
  deriving DecidableEq, Repr

/-- The positive number `digits * 10 ^ exponent`. -/
structure Digits where
  digits : Nat
  exponent : Int
  deriving DecidableEq, Repr

namespace Magnitude

/-- A quarter of the gap above a magnitude; numbers within two of these quarters read back as the
magnitude. -/
def quarter (number : Magnitude) : Nat × Nat :=
  if 1076 ≤ number.exponent then (Nat.pow 2 (number.exponent - 1076), 1)
  else (1, Nat.pow 2 (1076 - number.exponent))

/-- A power of ten as a quotient. -/
def tenPower (exponent : Int) : Nat × Nat :=
  if 0 ≤ exponent then (Nat.pow 10 exponent.toNat, 1) else (1, Nat.pow 10 (-exponent).toNat)

/-- Compares `count * 10 ^ exponent` with a number of quarters. -/
def compareQuarters (number : Magnitude) (count : Nat) (exponent : Int) (quarters : Nat) :
    Ordering :=
  let power := tenPower exponent
  let quarter := number.quarter
  compare (count * power.1 * quarter.2) (quarters * quarter.1 * power.2)

/-- The quarters below the magnitude that still read back as it: the gap below the least
significand of an exponent is half the one above. -/
def quartersBelow (number : Magnitude) : Nat :=
  if number.significand = Nat.pow 2 52 ∧ 0 < number.exponent then 1 else 2

/-- Whether a point of the decimal grid reads back as the magnitude. The ends of the interval do
when the significand is even. -/
def readsBack (number : Magnitude) (count : Nat) (exponent : Int) : Bool :=
  let even := number.significand % 2 == 0
  let below := number.compareQuarters count exponent
    (4 * number.significand - number.quartersBelow)
  let above := number.compareQuarters count exponent (4 * number.significand + 2)
  (below == .gt || (even && below == .eq)) && (above == .lt || (even && above == .eq))

/-- The exponent of the first decimal digit of a magnitude that is not zero. -/
def leadingExponent (number : Magnitude) : Int :=
  let quarter := number.quarter
  let numerator := 4 * number.significand * quarter.1
  let guess : Int := (Numeral.write numerator).length - (Numeral.write quarter.2).length
  if number.compareQuarters 1 guess (4 * number.significand) == .gt then guess - 1 else guess

/-- The neighbours of a magnitude on the grid of `10 ^ exponent` that read back as it, the nearer
one first. -/
def neighbours (number : Magnitude) (tie : Tie) (exponent : Int) : List Nat :=
  let power := tenPower exponent
  let quarter := number.quarter
  let numerator := 4 * number.significand * quarter.1 * power.2
  let denominator := quarter.2 * power.1
  let floor := numerator / denominator
  let twice := 2 * (numerator % denominator)
  let candidates :=
    if twice < denominator ∨ (twice = denominator ∧ tie = .toEven ∧ floor % 2 = 0) then
      [floor, floor + 1]
    else [floor + 1, floor]
  candidates.filter fun count => number.readsBack count exponent

/-- Takes the zeros at the end of the digits into the exponent. -/
def dropZeros : Nat → Nat → Int → Digits
  | 0, digits, exponent => ⟨digits, exponent⟩
  | fuel + 1, digits, exponent =>
    if digits ≠ 0 ∧ digits % 10 = 0 then dropZeros fuel (digits / 10) (exponent + 1)
    else ⟨digits, exponent⟩

/-- The shortest digits of a magnitude that is not zero. Seventeen digits are always enough. -/
def shortest (number : Magnitude) (tie : Tie) : Digits :=
  let leading := number.leadingExponent
  let found := (List.range 17).findSome? fun (count : Nat) =>
    let exponent := leading - count
    (number.neighbours tie exponent).head?.map fun digits => dropZeros 17 digits exponent
  found.getD ⟨0, 0⟩

end Magnitude

namespace Digits

/-- Positional text, with `tail` behind a whole number. -/
def positional (number : Digits) (tail : String) : List Char :=
  let digits := Numeral.write number.digits
  let point : Int := digits.length + number.exponent
  if point ≤ 0 then '0' :: '.' :: (List.replicate (-point).toNat '0' ++ digits)
  else if digits.length ≤ point then
    digits ++ List.replicate number.exponent.toNat '0' ++ tail.toList
  else digits.take point.toNat ++ '.' :: digits.drop point.toNat

/-- Text with one digit before the point and a signed power of ten behind. -/
def scientific (number : Digits) : List Char :=
  let digits := Numeral.write number.digits
  let power : Int := digits.length + number.exponent - 1
  let fraction := digits.drop 1
  digits.take 1 ++ (if fraction = [] then [] else '.' :: fraction) ++
    'e' :: (if power < 0 then '-' else '+') :: Numeral.write power.natAbs

end Digits

namespace Binary64

/-- Text in a document: positional where the first digit stands for 10^-5 up to 10^15, and a whole
number keeps one zero after the point. -/
def documentText (number : Binary64) : List Char :=
  let sign := if number.negative then ['-'] else []
  if number.isZero then sign ++ ['0', '.', '0']
  else
    let digits := number.magnitude.shortest .toEven
    let power : Int := (Numeral.write digits.digits).length + digits.exponent - 1
    sign ++ (if -5 ≤ power ∧ power ≤ 15 then digits.positional ".0" else digits.scientific)

/-- Plain text: always positional, and a whole number has no point. -/
def plainText (number : Binary64) : List Char :=
  let sign := if number.negative then ['-'] else []
  if number.isZero then sign ++ ['0']
  else sign ++ (number.magnitude.shortest .up).positional ""

end Binary64

end Proposal
