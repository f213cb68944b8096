import Proposal.Binary64
import Proposal.Unsigned

/-! A literal on its own is read as the nearest number. A number inside a document is read in two
steps, each of which rounds. -/
namespace Proposal

/-- A literal: a finite number, or an infinity or something that is not a number. -/
inductive FloatLiteral
  | finite (number : Binary64)
  | notFinite
  deriving DecidableEq

namespace FloatLiteral

/-- The number nearest to `digits * 10 ^ exponent`. Past 310 digits before the point it overflows;
below 10 ^ -330 it is zero. -/
def ofScaled (negative : Bool) (digits : Nat) (exponent : Int) : FloatLiteral :=
  let leading : Int := (Numeral.write digits).length + exponent
  if digits = 0 ∨ leading < -330 then .finite ⟨negative, .zero⟩
  else if 310 < leading then .notFinite
  else
    let found :=
      if 0 ≤ exponent then Magnitude.nearest? (digits * Nat.pow 10 exponent.toNat) 1
      else Magnitude.nearest? digits (Nat.pow 10 (-exponent).toNat)
    match found with
    | some magnitude => .finite ⟨negative, magnitude⟩
    | none => .notFinite

/-- Reads an exponent with its letter; without one the exponent is zero. -/
def readExponent? : List Char → Option Int
  | [] => some 0
  | letter :: text =>
    if letter = 'e' ∨ letter = 'E' then
      match text with
      | '-' :: digits => (Numeral.read? digits).map fun power => -(power : Int)
      | '+' :: digits => (Numeral.read? digits).map fun power => (power : Int)
      | digits => (Numeral.read? digits).map fun power => (power : Int)
    else none

/-- Reads digits with at most one point among them or at an end, and an exponent. -/
def readNumber? (negative : Bool) (text : List Char) : Option FloatLiteral :=
  let whole := text.takeWhile Char.isDigit
  let rest := text.dropWhile Char.isDigit
  let (fraction, rest) :=
    match rest with
    | '.' :: rest => (rest.takeWhile Char.isDigit, rest.dropWhile Char.isDigit)
    | rest => ([], rest)
  if whole = [] ∧ fraction = [] then none
  else
    (readExponent? rest).map fun exponent =>
      ofScaled negative (Numeral.value (whole ++ fraction)) (exponent - fraction.length)

def readUnsigned? (negative : Bool) (text : List Char) : Option FloatLiteral :=
  let word := String.ofList (text.map Char.toLower)
  if word = "inf" ∨ word = "infinity" ∨ word = "nan" then some .notFinite
  else readNumber? negative text

/-- Reads a literal with at most one sign in front. -/
def read? : List Char → Option FloatLiteral
  | '-' :: text => readUnsigned? true text
  | '+' :: text => readUnsigned? false text
  | text => readUnsigned? false text

end FloatLiteral

namespace Magnitude

/-- Appends digits to a significand as long as it fits 64 bits; gives the digits left over. -/
def keepDigits (significand : Nat) : List Char → Nat × List Char
  | [] => (significand, [])
  | digit :: rest =>
    let next := significand * 10 + (digit.toNat - '0'.toNat)
    if next < Nat.pow 2 64 then keepDigits next rest else (significand, digit :: rest)

/-- Divides by a power of ten in steps of at most 10 ^ 308. -/
def scaleDown? (number : Magnitude) (power : Nat) : Option Magnitude :=
  if number.significand = 0 then some number
  else if power ≤ 308 then do number.div? (← powerOfTen? power)
  else do scaleDown? (← number.div? (← powerOfTen? 308)) (power - 308)
termination_by power

/-- Scales by a power of ten; none past the largest number. -/
def scale? (number : Magnitude) (power : Int) : Option Magnitude :=
  if number.significand = 0 then some number
  else if power < 0 then number.scaleDown? power.natAbs
  else if power ≤ 308 then do number.mul? (← powerOfTen? power.natAbs)
  else none

/-- The magnitude of a number in a document, from its digits before and after the point and its
power of ten. -/
def ofDocument? (whole fraction : List Char) (power : Int) : Option Magnitude := do
  let (significand, dropped) := keepDigits 0 whole
  let (significand, cut) := keepDigits significand fraction
  let taken : Int := fraction.length - cut.length
  (← nearest? significand 1).scale? (dropped.length - taken + power)

end Magnitude

end Proposal
