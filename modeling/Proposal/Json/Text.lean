/-! Where a string ends, and what its escapes stand for. Characters past sixteen bits are written as
two surrogates. -/
namespace Proposal.Json

/-- The characters up to the first quote that no backslash precedes, and the rest behind it. -/
def takeString : List Char → Option (List Char × List Char)
  | [] => none
  | '"' :: rest => some ([], rest)
  | '\\' :: char :: rest =>
    (takeString rest).map fun split => ('\\' :: char :: split.1, split.2)
  | char :: rest => (takeString rest).map fun split => (char :: split.1, split.2)

/-- A part of a string: a plain character, the character of a short escape, or a sixteen-bit unit in
hexadecimal. -/
inductive Piece
  | plain (char : Char)
  | short (char : Char)
  | unit (code : Nat)
  deriving DecidableEq, Repr

def hexValue? (char : Char) : Option Nat :=
  let code := char.toNat
  if 48 ≤ code ∧ code ≤ 57 then some (code - 48)
  else if 65 ≤ code ∧ code ≤ 70 then some (code - 55)
  else if 97 ≤ code ∧ code ≤ 102 then some (code - 87)
  else none

def unit? (a b c d : Char) : Option Nat := do
  return (((← hexValue? a) * 16 + (← hexValue? b)) * 16 + (← hexValue? c)) * 16 + (← hexValue? d)

/-- The character that a backslash and one more character stand for. -/
def shortEscape? (char : Char) : Option Char :=
  if char = '"' ∨ char = '\\' ∨ char = '/' then some char
  else if char = 'b' then some '\x08'
  else if char = 't' then some '\x09'
  else if char = 'n' then some '\x0a'
  else if char = 'f' then some '\x0c'
  else if char = 'r' then some '\x0d'
  else none

/-- The parts of the text between quotes. Control characters stand for themselves or are refused. -/
def pieces? (controls : Bool) : List Char → Option (List Piece)
  | [] => some []
  | '\\' :: 'u' :: a :: b :: c :: d :: rest => do
    let code ← unit? a b c d
    let pieces ← pieces? controls rest
    return .unit code :: pieces
  | '\\' :: char :: rest => do
    let char ← shortEscape? char
    let pieces ← pieces? controls rest
    return .short char :: pieces
  | char :: rest => do
    if char = '\\' ∨ (char.toNat < 32 ∧ controls = false) then none
    else
      let pieces ← pieces? controls rest
      return .plain char :: pieces

def isHighSurrogate (code : Nat) : Bool := 0xD800 ≤ code && code < 0xDC00

def isLowSurrogate (code : Nat) : Bool := 0xDC00 ≤ code && code < 0xE000

/-- The character outside the sixteen-bit range that two surrogates stand for. -/
def ofSurrogates (high low : Nat) : Char :=
  Char.ofNat (0x10000 + (high - 0xD800) * 0x400 + (low - 0xDC00))

/-- Joins surrogates in pairs and refuses single ones. With `apart`, escapes may stand between the
two of a pair. -/
def joinPieces? (apart : Bool) : Option Nat → List Piece → Option (List Char)
  | waiting, [] => if waiting.isSome then none else some []
  | waiting, .plain char :: rest =>
    if waiting.isSome then none else (joinPieces? apart none rest).map (char :: ·)
  | waiting, .short char :: rest =>
    if waiting.isSome && !apart then none else (joinPieces? apart waiting rest).map (char :: ·)
  | waiting, .unit code :: rest =>
    if isHighSurrogate code then
      if waiting.isSome then none else joinPieces? apart (some code) rest
    else if isLowSurrogate code then do
      let high ← waiting
      let chars ← joinPieces? apart none rest
      return ofSurrogates high code :: chars
    else if waiting.isSome && !apart then none
    else (joinPieces? apart waiting rest).map (Char.ofNat code :: ·)

end Proposal.Json
