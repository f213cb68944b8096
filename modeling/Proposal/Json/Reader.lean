import Proposal.Binary64.Literal
import Proposal.Json.Printer
import Proposal.Json.Text

/-! Two grammars: documents of people, and what contracts read. They differ in numbers, strings,
commas and what they pass over. -/
namespace Proposal

/-- How far a document is read: all of it, none of it, or parts by the keys of members and the
positions of items. -/
inductive Extent
  | all
  | nothing
  | parts (member : String → Extent) (item : Nat → Extent)

namespace Extent

def isNothing : Extent → Bool
  | .nothing => true
  | _ => false

/-- The extent of the member with the given key. -/
def member : Extent → String → Extent
  | .all, _ => .all
  | .nothing, _ => .nothing
  | .parts member _, key => member key

/-- The extent of the item at the given position. -/
def item : Extent → Nat → Extent
  | .all, _ => .all
  | .nothing, _ => .nothing
  | .parts _ item, index => item index

/-- Each item of an array to the same extent. -/
def items (extent : Extent) : Extent := .parts (fun _ => .all) fun _ => extent

/-- The fields of a record, by name or by position, each to an extent of its own, and what else it
holds to another. -/
def fields (named : List (String × Extent)) (others : Extent) : Extent :=
  .parts (fun key => (named.lookup key).getD others)
    fun index => (named[index]?).elim others Prod.snd

@[simp] theorem member_all (key : String) : Extent.all.member key = .all := rfl

@[simp] theorem member_nothing (key : String) : Extent.nothing.member key = .nothing := rfl

@[simp] theorem item_all (index : Nat) : Extent.all.item index = .all := rfl

@[simp] theorem item_nothing (index : Nat) : Extent.nothing.item index = .nothing := rfl

@[simp] theorem item_items (extent : Extent) (index : Nat) :
    extent.items.item index = extent := rfl

end Extent

/-- The rules of a JSON text. -/
structure Grammar where
  /-- Numbers may have a fraction or an exponent; integers past 64 bits are read as such. -/
  fractions : Bool
  /-- Control characters may stand in strings that have no backslash. -/
  controls : Bool
  /-- Other escapes may stand between the two surrogates of a character. -/
  apart : Bool
  /-- An array may begin with a comma, and then one comma between its items may be missing. -/
  leadingComma : Bool
  /-- A value passed over is anything up to a comma or closing bracket, unless it begins as a string
  or a container. -/
  bare : Bool
  /-- How many arrays and objects may stand inside one another. -/
  depth : Nat

namespace Grammar

/-- A document that people write. -/
def document : Grammar where
  fractions := true
  controls := false
  apart := false
  leadingComma := false
  bare := false
  depth := 127

/-- The text that contracts exchange. -/
def contract : Grammar where
  fractions := false
  controls := true
  apart := true
  leadingComma := true
  bare := true
  depth := 127

/-- Whether only the form of a part counts that is read to this extent. -/
def formOnly (grammar : Grammar) (extent : Extent) : Bool := extent.isNothing && !grammar.bare

/-- The depth that is left inside an array or an object. -/
def inside? (grammar : Grammar) (extent : Extent) : Nat → Option Nat
  | 0 => if grammar.formOnly extent then some 0 else none
  | depth + 1 => some (if grammar.formOnly extent then depth + 1 else depth)

@[simp] theorem formOnly_all (grammar : Grammar) : grammar.formOnly .all = false := rfl

@[simp] theorem inside?_all_zero (grammar : Grammar) : grammar.inside? .all 0 = none := rfl

@[simp] theorem inside?_all_succ (grammar : Grammar) (depth : Nat) :
    grammar.inside? .all (depth + 1) = some depth := rfl

end Grammar

namespace Json

/-- White space between the parts of a document. -/
def isSpace (char : Char) : Bool :=
  char = ' ' || char = '\x0a' || char = '\x09' || char = '\x0d'

def skipSpace (text : List Char) : List Char := text.dropWhile isSpace

/-- Reads a string behind its first quote. Where only the form counts, it reads as empty. -/
def readString? (grammar : Grammar) (extent : Extent) (text : List Char) :
    Option (String × List Char) := do
  let (body, rest) ← takeString text
  let pieces ← pieces? (grammar.controls && !body.contains '\\') body
  if grammar.formOnly extent then return ("", rest)
  else return (String.ofList (← joinPieces? grammar.apart none pieces), rest)

/-- The integer with a sign and digits, as far as 64 bits reach. -/
def integer? (negative : Bool) (magnitude : Nat) : Option Number :=
  if negative then
    if bound : magnitude ≤ Nat.pow 2 63 then some (.negative magnitude bound) else none
  else (Unsigned.ofNat? 64 magnitude).map .natural

/-- The number of a document without fraction and exponent: an integer where it fits 64 bits, except
for a zero with a sign. -/
def wholeNumber? (negative : Bool) (digits : List Char) : Option Number :=
  let magnitude := Numeral.value digits
  let exact := if negative ∧ magnitude = 0 then none else integer? negative magnitude
  match exact with
  | some number => some number
  | none => (Magnitude.ofDocument? digits [] 0).map fun size => .float ⟨negative, size⟩

/-- Splits off the digits of an integer. A zero has no other digits behind it. -/
def readDigits? : List Char → Option (List Char × List Char)
  | '0' :: rest => some (['0'], rest)
  | text =>
    let digits := text.takeWhile Char.isDigit
    if digits = [] then none else some (digits, text.dropWhile Char.isDigit)

/-- Splits off the fraction of a number, which needs a digit behind its point. -/
def readFraction? : List Char → Option (List Char × List Char)
  | '.' :: rest =>
    let digits := rest.takeWhile Char.isDigit
    if digits = [] then none else some (digits, rest.dropWhile Char.isDigit)
  | rest => some ([], rest)

/-- Splits off the exponent of a number, which needs a digit behind its letter and sign. -/
def readPower? : List Char → Option (Int × List Char)
  | [] => some (0, [])
  | letter :: rest =>
    if letter = 'e' ∨ letter = 'E' then
      let negative := rest.head? = some '-'
      let rest := if negative ∨ rest.head? = some '+' then rest.drop 1 else rest
      let digits := rest.takeWhile Char.isDigit
      if digits = [] then none
      else
        let power : Int := Numeral.value digits
        some (if negative then -power else power, rest.dropWhile Char.isDigit)
    else some (0, letter :: rest)

/-- Reads a number whose digits begin here. -/
def readNumber? (grammar : Grammar) (negative : Bool) (text : List Char) :
    Option (Number × List Char) := do
  let (digits, rest) ← readDigits? text
  if grammar.fractions then
    let (fraction, behind) ← readFraction? rest
    let (power, after) ← readPower? behind
    if after.length = rest.length then
      return (← wholeNumber? negative digits, rest)
    else
      let size ← Magnitude.ofDocument? digits fraction power
      return (.float ⟨negative, size⟩, after)
  else return (← integer? negative (Numeral.value digits), rest)

/-- The text behind a number whose digits begin here. -/
def skipNumber? (text : List Char) : Option (List Char) := do
  let (_, rest) ← readDigits? text
  let (_, rest) ← readFraction? rest
  let (_, rest) ← readPower? rest
  return rest

/-- Drops a word that the text has to begin with. -/
def skipWord? (word : List Char) (text : List Char) : Option (List Char) :=
  if word.isPrefixOf text then some (text.drop word.length) else none

/-- Reads a value that is neither array nor object. -/
def readScalar? (grammar : Grammar) : List Char → Option (Json × List Char)
  | '"' :: rest => (readString? grammar .all rest).map fun read => (.str read.1, read.2)
  | 'n' :: rest => (skipWord? "ull".toList rest).map fun rest => (.null, rest)
  | 't' :: rest => (skipWord? "rue".toList rest).map fun rest => (.bool true, rest)
  | 'f' :: rest => (skipWord? "alse".toList rest).map fun rest => (.bool false, rest)
  | '-' :: rest => (readNumber? grammar true rest).map fun read => (.num read.1, read.2)
  | rest => (readNumber? grammar false rest).map fun read => (.num read.1, read.2)

/-- What ends characters that are passed over as they are. -/
def isEnd (char : Char) : Bool := char = ',' || char = ']' || char = '}'

/-- The text from the next comma or closing bracket on, if something stands before it. -/
def skipBare? (text : List Char) : Option (List Char) :=
  match text.takeWhile (!isEnd ·), text.dropWhile (!isEnd ·) with
  | _ :: _, stop :: rest => some (stop :: rest)
  | _, _ => none

/-- The text behind a value that is neither array nor object, and that is passed over. -/
def skipScalar? (grammar : Grammar) : List Char → Option (List Char)
  | '"' :: rest => (readString? grammar .nothing rest).map Prod.snd
  | text =>
    if grammar.bare then skipBare? text
    else
      match text with
      | 'n' :: rest => skipWord? "ull".toList rest
      | 't' :: rest => skipWord? "rue".toList rest
      | 'f' :: rest => skipWord? "alse".toList rest
      | '-' :: rest => skipNumber? rest
      | rest => skipNumber? rest

mutual

/-- Reads a value and gives the rest behind it; a scalar that is passed over is null. The fuel
bounds all values begun. -/
def readValue? (grammar : Grammar) :
    Nat → Nat → Extent → List Char → Option (Json × List Char)
  | 0, _, _, _ => none
  | fuel + 1, depth, extent, text =>
    match skipSpace text with
    | [] => none
    | '[' :: rest => do
      let depth ← grammar.inside? extent depth
      let (items, rest) ← readItems? grammar fuel depth extent 0 true rest
      return (.arr items, rest)
    | '{' :: rest => do
      let depth ← grammar.inside? extent depth
      match skipSpace rest with
      | '}' :: rest => return (.obj [], rest)
      | rest =>
        let (members, rest) ← readMembers? grammar fuel depth extent rest
        return (.obj members, rest)
    | rest =>
      if extent.isNothing then (skipScalar? grammar rest).map fun rest => (.null, rest)
      else readScalar? grammar rest

/-- Reads items up to the bracket behind them. All but one have a comma in front; `spare` holds
until that one came. -/
def readItems? (grammar : Grammar) :
    Nat → Nat → Extent → Nat → Bool → List Char → Option (List Json × List Char)
  | 0, _, _, _, _, _ => none
  | fuel + 1, depth, extent, index, spare, text =>
    match skipSpace text with
    | [] => none
    | ']' :: rest => some ([], rest)
    | ',' :: rest => do
      if spare && !grammar.leadingComma then none
      else
        let (item, rest) ← readValue? grammar fuel depth (extent.item index) rest
        let (items, rest) ← readItems? grammar fuel depth extent (index + 1) spare rest
        return (item :: items, rest)
    | rest => do
      if spare then
        let (item, rest) ← readValue? grammar fuel depth (extent.item index) rest
        let (items, rest) ← readItems? grammar fuel depth extent (index + 1) false rest
        return (item :: items, rest)
      else none

/-- Reads one or more members up to the brace behind them. -/
def readMembers? (grammar : Grammar) :
    Nat → Nat → Extent → List Char → Option (List (String × Json) × List Char)
  | 0, _, _, _ => none
  | fuel + 1, depth, extent, text => do
    match skipSpace text with
    | '"' :: rest =>
      let (key, rest) ← readString? grammar extent rest
      match skipSpace rest with
      | ':' :: rest =>
        let (body, rest) ← readValue? grammar fuel depth (extent.member key) rest
        match skipSpace rest with
        | '}' :: rest => return ([(key, body)], rest)
        | ',' :: rest =>
          let (members, rest) ← readMembers? grammar fuel depth extent rest
          return ((key, body) :: members, rest)
        | _ => none
      | _ => none
    | _ => none

end

/-- Reads a text that holds one value and nothing else but white space. Every value and every list
takes up a character of its own. -/
def read? (grammar : Grammar) (extent : Extent) (text : String) : Option Json := do
  let chars := text.toList
  let (json, rest) ← readValue? grammar (2 * chars.length + 2) grammar.depth extent chars
  if skipSpace rest = [] then return json else none

/-- Reads a payload that holds one value. -/
def ofPayload? (grammar : Grammar) (extent : Extent) (payload : Payload) : Option Json := do
  read? grammar extent (← payload.text?)

end Json

namespace Value

/-- The free-form value in a payload. -/
def ofPayload? (payload : Payload) : Option Value :=
  (Json.ofPayload? .document .all payload).map ofJson

end Value

end Proposal
