import Proposal.Binary64.Literal
import Proposal.Binary64.Shortest
import Proposal.Error
import Proposal.Text

/-! Amounts as text, as human amounts and as base units. What is past the precision of a token is
rounded, a half up. -/
namespace Proposal.Amount

/-- The largest precision of a token. A human amount keeps as many places. -/
def maxDecimals : Nat := 18

def checkDecimals (decimals : Places) : Result Unit :=
  if maxDecimals < decimals.val then .error (.tooPrecise decimals) else .ok ()

/-- Splits an unsigned text at its first point. -/
def splitPoint (text : List Char) : List Char × List Char :=
  (text.takeWhile (· != '.'), (text.dropWhile (· != '.')).drop 1)

/-- The base units of digits before and after the point. Of the digits past the precision only the
first one counts. -/
def ofDigits? (whole fraction : List Char) (decimals : Nat) : Option BaseAmount := do
  let kept := fraction.take decimals
  let dropped := fraction.drop decimals
  let base ← Unsigned.ofNat? 128
    (Numeral.value (whole ++ kept ++ List.replicate (decimals - kept.length) '0'))
  match dropped with
  | first :: _ => if '5' ≤ first then Unsigned.ofNat? 128 (base.val + 1) else some base
  | [] => some base

/-- Reads a human amount such as 8.029409 as base units. -/
def parse (text : String) (decimals : Places) : Result BaseAmount := do
  checkDecimals decimals
  let trimmed := Text.trim text.toList
  let unsigned := if trimmed.head? = some '+' then trimmed.drop 1 else trimmed
  let (whole, fraction) := splitPoint unsigned
  if unsigned.head? = some '-' then .error (.invalidAmount text .negative)
  else if (whole = [] ∧ fraction = []) ∨ ¬(whole ++ fraction).all Char.isDigit then
    .error (.invalidAmount text .notANumber)
  else orError (.invalidAmount text .tooLarge) (ofDigits? whole fraction decimals.val)

/-- Reads a human amount; whatever cannot be read is zero. -/
def parseOrZero (text : String) (decimals : Places) : BaseAmount :=
  match parse text decimals with
  | .ok amount => amount
  | .error _ => .zero

/-- The base units of a floating-point number, taken at its shortest decimal text. A number that is
negative or not finite gives zero. -/
def ofFloat (literal : FloatLiteral) (decimals : Places) : BaseAmount :=
  match literal with
  | .finite number => parseOrZero (String.ofList number.plainText) decimals
  | .notFinite => .zero

/-- The steps of a human amount in one base unit. -/
def stepsPerBase (decimals : Places) : Nat := Nat.pow 10 (maxDecimals - decimals.val)

/-- The base units nearest to a human amount. -/
def toBase (amount : HumanAmount) (decimals : Places) : Result BaseAmount := do
  checkDecimals decimals
  let steps := stepsPerBase decimals
  let quotient := amount.atomics.div steps
  let twice ← (amount.atomics.mod steps).times ⟨2, by decide⟩
  let rounded ← if steps ≤ twice.val then quotient.plus ⟨1, by decide⟩ else .ok quotient
  orError (.invalidAmount amount.text .tooLarge) (Unsigned.ofNat? 128 rounded.val)

/-- The largest base amount keeps its place in a human amount. -/
theorem human_lt (amount : BaseAmount) (decimals : Places) :
    amount.val * stepsPerBase decimals < Nat.pow 2 256 :=
  Nat.lt_of_lt_of_le
    (Nat.mul_lt_mul_of_lt_of_le amount.val_lt
      (Nat.pow_le_pow_right (by decide) (Nat.sub_le maxDecimals decimals.val))
      (Nat.pow_pos (by decide)))
    (by decide)

/-- The human amount of a number of base units. -/
def toHuman (amount : BaseAmount) (decimals : Places) : Result HumanAmount := do
  checkDecimals decimals
  return ⟨⟨amount.val * stepsPerBase decimals, human_lt amount decimals⟩⟩

/-- The human amount, or zero where the precision is too large. -/
def toHumanOrZero (amount : BaseAmount) (decimals : Places) : HumanAmount :=
  match toHuman amount decimals with
  | .ok human => human
  | .error _ => .zero

/-- The human amount of a base amount given as text; whatever is not a base amount is zero. -/
def textToHuman (text : String) (decimals : Places) : HumanAmount :=
  match Unsigned.read? 128 (Text.trim text.toList) with
  | some amount => toHumanOrZero amount decimals
  | none => .zero

/-- Whether the token can represent the amount exactly. -/
def fits (amount : HumanAmount) (decimals : Places) : Result Bool := do
  checkDecimals decimals
  return amount.atomics.val % stepsPerBase decimals == 0

end Proposal.Amount
