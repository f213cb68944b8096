/-! Natural numbers of a fixed width. An operation whose result does not fit gives none; it never
wraps around. -/
namespace Proposal

namespace Numeral

/-- The shortest numeral of a number. -/
def write (number : Nat) : List Char := Nat.toDigits 10 number

/-- The number that a run of digits stands for; an empty run stands for zero. -/
def value (digits : List Char) : Nat := Nat.ofDigitChars 10 digits 0

/-- Reads a whole text as a numeral. -/
def read? (text : List Char) : Option Nat :=
  if text ≠ [] ∧ text.all Char.isDigit then some (value text) else none

/-- Reads a whole text as a numeral with at most one plus sign in front. -/
def readSigned? : List Char → Option Nat
  | '+' :: digits => read? digits
  | digits => read? digits

theorem value_write (number : Nat) : value (write number) = number :=
  Nat.ofDigitChars_toDigits (by decide) (by decide)

theorem isDigit_of_mem_write {number : Nat} {digit : Char} (member : digit ∈ write number) :
    digit.isDigit = true :=
  Nat.isDigit_of_mem_toDigits (by decide) (by decide) member

theorem write_ne_nil (number : Nat) : write number ≠ [] := Nat.toDigits_ne_nil

theorem read?_write (number : Nat) : read? (write number) = some number := by
  simp [read?, write_ne_nil, value_write]
  exact fun _ member => isDigit_of_mem_write member

/-- The numeral of a number as a text. -/
def text (number : Nat) : String := String.ofList (write number)

end Numeral

/-- A natural number below `2 ^ bits`. -/
structure Unsigned (bits : Nat) where
  val : Nat
  val_lt : val < Nat.pow 2 bits
  deriving DecidableEq

namespace Unsigned

variable {bits : Nat}

@[ext] theorem ext {left right : Unsigned bits} (same : left.val = right.val) : left = right := by
  cases left; cases right; cases same; rfl

instance : Repr (Unsigned bits) := ⟨fun number _ => repr number.val⟩

def zero : Unsigned bits := ⟨0, Nat.two_pow_pos bits⟩

instance : Inhabited (Unsigned bits) := ⟨zero⟩

/-- The largest number of the width. -/
def max : Unsigned bits :=
  ⟨Nat.pow 2 bits - 1, Nat.sub_lt (Nat.two_pow_pos bits) Nat.one_pos⟩

def ofNat? (bits number : Nat) : Option (Unsigned bits) :=
  if fits : number < Nat.pow 2 bits then some ⟨number, fits⟩ else none

theorem ofNat?_eq_some_iff {number : Nat} {result : Unsigned bits} :
    ofNat? bits number = some result ↔ result.val = number := by
  unfold ofNat?
  split
  next fits =>
    constructor
    · rintro ⟨⟩; rfl
    · intro same; exact congrArg some (ext same.symm)
  next wide =>
    constructor
    · intro found; cases found
    · intro same; exact absurd (same ▸ result.val_lt) wide

theorem ofNat?_eq_none_iff {number : Nat} :
    ofNat? bits number = none ↔ Nat.pow 2 bits ≤ number := by
  unfold ofNat?
  split
  next fits => exact iff_of_false (by simp) (Nat.not_le.mpr fits)
  next wide => exact iff_of_true rfl (Nat.not_lt.mp wide)

@[simp] theorem ofNat?_val (number : Unsigned bits) : ofNat? bits number.val = some number :=
  ofNat?_eq_some_iff.mpr rfl

instance : LT (Unsigned bits) := ⟨fun left right => left.val < right.val⟩
instance : LE (Unsigned bits) := ⟨fun left right => left.val ≤ right.val⟩
instance (left right : Unsigned bits) : Decidable (left < right) :=
  inferInstanceAs (Decidable (left.val < right.val))
instance (left right : Unsigned bits) : Decidable (left ≤ right) :=
  inferInstanceAs (Decidable (left.val ≤ right.val))

def add? (left right : Unsigned bits) : Option (Unsigned bits) :=
  ofNat? bits (left.val + right.val)

def sub? (left right : Unsigned bits) : Option (Unsigned bits) :=
  if right.val ≤ left.val then ofNat? bits (left.val - right.val) else none

def mul? (left right : Unsigned bits) : Option (Unsigned bits) :=
  ofNat? bits (left.val * right.val)

/-- The quotient by a number that is not zero, cut off. -/
def div (number : Unsigned bits) (divisor : Nat) : Unsigned bits :=
  ⟨number.val / divisor, Nat.lt_of_le_of_lt (Nat.div_le_self _ _) number.val_lt⟩

/-- The remainder of the quotient. -/
def mod (number : Unsigned bits) (divisor : Nat) : Unsigned bits :=
  ⟨number.val % divisor, Nat.lt_of_le_of_lt (Nat.mod_le _ _) number.val_lt⟩

/-- The sum, or the largest number of the width where the sum is too large. -/
def saturatingAdd (left right : Unsigned bits) : Unsigned bits :=
  (left.add? right).getD max

theorem val_saturatingAdd (left right : Unsigned bits) :
    (left.saturatingAdd right).val = min (Nat.pow 2 bits - 1) (left.val + right.val) := by
  unfold saturatingAdd add?
  cases sum : ofNat? bits (left.val + right.val) with
  | none =>
    have large := ofNat?_eq_none_iff.mp sum
    exact (Nat.min_eq_left (Nat.le_trans (Nat.sub_le _ 1) large)).symm
  | some result =>
    have same := ofNat?_eq_some_iff.mp sum
    have bounded := result.val_lt
    rw [Option.getD_some, Nat.min_eq_right (by omega), same]

/-- The same number in a width that is not smaller. -/
def widen {wide : Nat} (number : Unsigned bits) (le : bits ≤ wide) : Unsigned wide :=
  ⟨number.val, Nat.lt_of_lt_of_le number.val_lt (Nat.pow_le_pow_right (by decide) le)⟩

def write (number : Unsigned bits) : List Char := Numeral.write number.val

def text (number : Unsigned bits) : String := String.ofList number.write

/-- Reads a numeral of the width, with at most one plus sign in front. -/
def read? (bits : Nat) (text : List Char) : Option (Unsigned bits) :=
  (Numeral.readSigned? text).bind (ofNat? bits)

end Unsigned

/-- An amount in base units, the smallest steps of a token. -/
abbrev BaseAmount := Unsigned 128

/-- A count of seconds, a unit of gas or an identifier of code. -/
abbrev Count := Unsigned 64

/-- A number of decimal places as a chain may declare it. -/
abbrev Places := Unsigned 8

end Proposal
