namespace Proposal

namespace Text

/-- The ranges of code points of white space, first and last. -/
def blankRanges : List (Nat × Nat) :=
  [(0x9, 0xD), (0x20, 0x20), (0x85, 0x85), (0xA0, 0xA0), (0x1680, 0x1680), (0x2000, 0x200A),
    (0x2028, 0x2029), (0x202F, 0x202F), (0x205F, 0x205F), (0x3000, 0x3000)]

def isBlank (char : Char) : Bool :=
  blankRanges.any fun range => range.1 ≤ char.toNat && char.toNat ≤ range.2

/-- The text without the white space at its two ends. -/
def trim (text : List Char) : List Char :=
  ((text.dropWhile isBlank).reverse.dropWhile isBlank).reverse

/-- A text without any character that is not white space. -/
def allBlank (text : String) : Bool := text.toList.all isBlank

def hasBlank (text : String) : Bool := text.toList.any isBlank

/-- The characters with the Unicode property White_Space, one by one. -/
def White (char : Char) : Prop :=
  char.toNat ∈ [0x9, 0xA, 0xB, 0xC, 0xD, 0x20, 0x85, 0xA0, 0x1680, 0x2000, 0x2001, 0x2002, 0x2003,
    0x2004, 0x2005, 0x2006, 0x2007, 0x2008, 0x2009, 0x200A, 0x2028, 0x2029, 0x202F, 0x205F, 0x3000]

instance (char : Char) : Decidable (White char) := inferInstanceAs (Decidable (_ ∈ _))

theorem isBlank_eq_true_iff {char : Char} : isBlank char = true ↔ White char := by
  simp [isBlank, blankRanges, White]
  omega

end Text

namespace Base64

/-- The character of six bits. -/
def digit (six : Nat) : Char :=
  if six < 26 then Char.ofNat (65 + six)
  else if six < 52 then Char.ofNat (71 + six)
  else if six < 62 then Char.ofNat (six - 4)
  else if six = 62 then '+'
  else '/'

/-- The six bits of a character of the alphabet. -/
def six? (char : Char) : Option Nat :=
  let code := char.toNat
  if 65 ≤ code ∧ code ≤ 90 then some (code - 65)
  else if 97 ≤ code ∧ code ≤ 122 then some (code - 71)
  else if 48 ≤ code ∧ code ≤ 57 then some (code + 4)
  else if char = '+' then some 62
  else if char = '/' then some 63
  else none

def encode : List UInt8 → List Char
  | [] => []
  | [a] => [digit (a.toNat / 4), digit (a.toNat % 4 * 16), '=', '=']
  | [a, b] =>
    [digit (a.toNat / 4), digit (a.toNat % 4 * 16 + b.toNat / 16), digit (b.toNat % 16 * 4), '=']
  | a :: b :: c :: rest =>
    digit (a.toNat / 4) :: digit (a.toNat % 4 * 16 + b.toNat / 16) ::
      digit (b.toNat % 16 * 4 + c.toNat / 64) :: digit (c.toNat % 64) :: encode rest

/-- The byte of a last group of two characters. -/
def lastOne? (a b : Char) : Option (List UInt8) := do
  let a ← six? a
  let b ← six? b
  if b % 16 = 0 then some [UInt8.ofNat (a * 4 + b / 16)] else none

/-- The bytes of a last group of three characters. -/
def lastTwo? (a b c : Char) : Option (List UInt8) := do
  let a ← six? a
  let b ← six? b
  let c ← six? c
  if c % 4 = 0 then
    some [UInt8.ofNat (a * 4 + b / 16), UInt8.ofNat (b % 16 * 16 + c / 4)]
  else none

/-- The bytes of a group of four characters. -/
def group? (a b c d : Char) : Option (List UInt8) := do
  let a ← six? a
  let b ← six? b
  let c ← six? c
  let d ← six? d
  some [UInt8.ofNat (a * 4 + b / 16), UInt8.ofNat (b % 16 * 16 + c / 4),
    UInt8.ofNat (c % 4 * 64 + d)]

def decode? : List Char → Option (List UInt8)
  | [] => some []
  | [_] => none
  | [a, b] => lastOne? a b
  | [a, b, c] => if c = '=' then lastOne? a b else lastTwo? a b c
  | a :: b :: c :: d :: rest =>
    if d = '=' ∧ rest = [] then
      if c = '=' then lastOne? a b else lastTwo? a b c
    else do
      let bytes ← group? a b c d
      let more ← decode? rest
      some (bytes ++ more)

end Base64

structure Payload where
  bytes : List UInt8
  deriving DecidableEq, Repr, Inhabited

namespace Payload

/-- The payload that holds a text in UTF-8. -/
def ofText (text : String) : Payload := ⟨text.toUTF8.data.toList⟩

/-- The text of a payload that is valid UTF-8. -/
def text? (payload : Payload) : Option String := String.fromUTF8? ⟨payload.bytes.toArray⟩

def base64 (payload : Payload) : String := String.ofList (Base64.encode payload.bytes)

def ofBase64? (text : String) : Option Payload := (Base64.decode? text.toList).map Payload.mk

theorem text?_ofText (text : String) : (ofText text).text? = some text := by
  have same : (⟨text.toUTF8.data.toList.toArray⟩ : ByteArray) = text.toByteArray := by
    simp [String.toUTF8]
  rw [text?, ofText, same, String.fromUTF8?, dif_pos text.isValidUTF8]
  rfl

end Payload

end Proposal
