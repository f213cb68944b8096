import Proposal.Binary64.Shortest
import Proposal.Json.Basic
import Proposal.Text

namespace Proposal

/-- The case of the hexadecimal digits in an escape. -/
inductive HexCase
  | lower
  | upper
  deriving DecidableEq, Repr

namespace HexCase

/-- The hexadecimal digit of a number below sixteen. -/
def digit (hex : HexCase) (value : Nat) : Char :=
  if value < 10 then Char.ofNat (48 + value)
  else
    match hex with
    | .lower => Char.ofNat (87 + value)
    | .upper => Char.ofNat (55 + value)

end HexCase

namespace Json

/-- The characters that stand for one character between quotes. -/
def escape (hex : HexCase) (char : Char) : List Char :=
  if char = '"' then ['\\', '"']
  else if char = '\\' then ['\\', '\\']
  else if char = '\x08' then ['\\', 'b']
  else if char = '\x09' then ['\\', 't']
  else if char = '\x0a' then ['\\', 'n']
  else if char = '\x0c' then ['\\', 'f']
  else if char = '\x0d' then ['\\', 'r']
  else if char.toNat < 32 then
    ['\\', 'u', '0', '0', hex.digit (char.toNat / 16), hex.digit (char.toNat % 16)]
  else [char]

def printString (hex : HexCase) (text : String) : List Char :=
  '"' :: (text.toList.flatMap (escape hex) ++ ['"'])

def printNumber : Number → List Char
  | .natural value => value.write
  | .negative magnitude _ => '-' :: Numeral.write magnitude
  | .float value => value.documentText

mutual

def print (hex : HexCase) : Json → List Char
  | .null => "null".toList
  | .bool true => "true".toList
  | .bool false => "false".toList
  | .num number => printNumber number
  | .str text => printString hex text
  | .arr items => '[' :: (printItems hex items ++ [']'])
  | .obj members => '{' :: (printMembers hex members ++ ['}'])

/-- Items with commas between them. -/
def printItems (hex : HexCase) : List Json → List Char
  | [] => []
  | [item] => item.print hex
  | item :: next :: rest => item.print hex ++ ',' :: printItems hex (next :: rest)

/-- Members with commas between them. -/
def printMembers (hex : HexCase) : List (String × Json) → List Char
  | [] => []
  | [(key, body)] => printString hex key ++ ':' :: body.print hex
  | (key, body) :: next :: rest =>
    printString hex key ++ ':' :: (body.print hex ++ ',' :: printMembers hex (next :: rest))

end

/-- The text that contracts read: members in their order, upper-case escapes. -/
def contractText (json : Json) : String := String.ofList (json.print .upper)

/-- The text that contracts read, unless a number has a fraction, which they refuse. -/
def contractText? (json : Json) : Option String :=
  if json.hasFloat then none else some json.contractText

/-- The payload that contracts read. -/
def payload (json : Json) : Payload := .ofText json.contractText

end Json

namespace Value

/-- The text of a free-form value: members in key order, lower-case escapes. -/
def text (value : Value) : String := String.ofList (value.json.print .lower)

/-- The payload of a free-form value. -/
def payload (value : Value) : Payload := .ofText value.text

end Value

namespace Json

def lineBreak (depth : Nat) : List Char := '\n' :: List.replicate (2 * depth) ' '

mutual

def pretty (depth : Nat) : Json → List Char
  | .arr (item :: rest) =>
    '[' :: (prettyItems (depth + 1) (item :: rest) ++ lineBreak depth ++ [']'])
  | .obj (member :: rest) =>
    '{' :: (prettyMembers (depth + 1) (member :: rest) ++ lineBreak depth ++ ['}'])
  | .arr [] => ['[', ']']
  | .obj [] => ['{', '}']
  | .null => print .lower .null
  | .bool value => print .lower (.bool value)
  | .num number => print .lower (.num number)
  | .str text => print .lower (.str text)

def prettyItems (depth : Nat) : List Json → List Char
  | [] => []
  | [item] => lineBreak depth ++ item.pretty depth
  | item :: next :: rest =>
    lineBreak depth ++ item.pretty depth ++ ',' :: prettyItems depth (next :: rest)

def prettyMembers (depth : Nat) : List (String × Json) → List Char
  | [] => []
  | [(key, body)] =>
    lineBreak depth ++ printString .lower key ++ ':' :: ' ' :: body.pretty depth
  | (key, body) :: next :: rest =>
    lineBreak depth ++ printString .lower key ++
      ':' :: ' ' :: (body.pretty depth ++ ',' :: prettyMembers depth (next :: rest))

end

end Json

end Proposal
