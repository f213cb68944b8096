import Mathlib.Tactic
import Proposal.Proofs.Json.Text

/-! Written documents without fractions, nested not too deep, read back as they are in both
grammars. -/
namespace Proposal.Json

mutual

/-- Every number in the document is an integer, and none a zero with a sign. -/
def IsPlain : Json → Prop
  | .num number => number.IsPlain
  | .arr items => ItemsPlain items
  | .obj members => MembersPlain members
  | _ => True

def ItemsPlain : List Json → Prop
  | [] => True
  | item :: rest => item.IsPlain ∧ ItemsPlain rest

def MembersPlain : List (String × Json) → Prop
  | [] => True
  | (_, body) :: rest => body.IsPlain ∧ MembersPlain rest

end

mutual

/-- How many arrays and objects stand inside one another. -/
def depth : Json → Nat
  | .arr items => itemsDepth items + 1
  | .obj members => membersDepth members + 1
  | _ => 0

def itemsDepth : List Json → Nat
  | [] => 0
  | item :: rest => max item.depth (itemsDepth rest)

def membersDepth : List (String × Json) → Nat
  | [] => 0
  | (_, body) :: rest => max body.depth (membersDepth rest)

end

theorem itemsPlain_iff {items : List Json} : ItemsPlain items ↔ ∀ item ∈ items, item.IsPlain := by
  induction items with
  | nil => simp [ItemsPlain]
  | cons item rest ih => simp [ItemsPlain, ih]

theorem itemsDepth_le_iff {items : List Json} {bound : Nat} :
    itemsDepth items ≤ bound ↔ ∀ item ∈ items, item.depth ≤ bound := by
  induction items with
  | nil => simp [itemsDepth]
  | cons item rest ih => simp [itemsDepth, ih]

theorem membersPlain_iff {members : List (String × Json)} :
    MembersPlain members ↔ ∀ member ∈ members, member.2.IsPlain := by
  induction members with
  | nil => simp [MembersPlain]
  | cons member rest ih => simp [MembersPlain, ih]

theorem membersDepth_le_iff {members : List (String × Json)} {bound : Nat} :
    membersDepth members ≤ bound ↔ ∀ member ∈ members, member.2.depth ≤ bound := by
  induction members with
  | nil => simp [membersDepth]
  | cons member rest ih => simp [membersDepth, ih]

mutual

/-- Where every number is an integer, none has a fraction. -/
theorem IsPlain.hasFloat_eq : (json : Json) → json.IsPlain → json.hasFloat = false
  | .null, _ => rfl
  | .bool _, _ => rfl
  | .num (.natural _), _ => rfl
  | .num (.negative _ _), _ => rfl
  | .num (.float _), plain => plain.elim
  | .str _, _ => rfl
  | .arr items, plain => ItemsPlain.itemsHaveFloat_eq items plain
  | .obj members, plain => MembersPlain.membersHaveFloat_eq members plain

private theorem ItemsPlain.itemsHaveFloat_eq :
    (items : List Json) → ItemsPlain items → itemsHaveFloat items = false
  | [], _ => rfl
  | item :: rest, plain => by
    rw [itemsHaveFloat, IsPlain.hasFloat_eq item plain.1,
      ItemsPlain.itemsHaveFloat_eq rest plain.2, Bool.or_false]

private theorem MembersPlain.membersHaveFloat_eq :
    (members : List (String × Json)) → MembersPlain members → membersHaveFloat members = false
  | [], _ => rfl
  | (_, body) :: rest, plain => by
    rw [membersHaveFloat, IsPlain.hasFloat_eq body plain.1,
      MembersPlain.membersHaveFloat_eq rest plain.2, Bool.or_false]

end

/-- What a written value begins with: no white space, and nothing that ends or divides a list. -/
def Opens (char : Char) : Prop :=
  isSpace char = false ∧ char ≠ ']' ∧ char ≠ ',' ∧ char ≠ '}'

instance (char : Char) : Decidable (Opens char) := inferInstanceAs (Decidable (_ ∧ _ ∧ _ ∧ _))

private theorem skipSpace_cons {char : Char} (visible : isSpace char = false) (rest : List Char) :
    skipSpace (char :: rest) = char :: rest := by
  simp [skipSpace, visible]

private theorem opens_digit {digit : Char} (isDigit : digit.isDigit = true) : Opens digit := by
  refine ⟨?_, ?_, ?_, ?_⟩
  · have noSpace : digit ≠ ' ' ∧ digit ≠ '\x0a' ∧ digit ≠ '\x09' ∧ digit ≠ '\x0d' := by
      refine ⟨?_, ?_, ?_, ?_⟩ <;> (rintro rfl; revert isDigit; decide)
    simp [isSpace, noSpace]
  all_goals rintro rfl; revert isDigit; decide

private theorem print_number_opens {number : Number} (plain : number.IsPlain) :
    ∃ char rest, printNumber number = char :: rest ∧ Opens char ∧ char ≠ '[' ∧ char ≠ '{' := by
  cases number with
  | float value => exact plain.elim
  | natural value =>
    obtain ⟨digit, digits, shape⟩ := List.exists_cons_of_ne_nil (Numeral.write_ne_nil value.val)
    have member : digit ∈ Numeral.write value.val := by rw [shape]; exact List.mem_cons_self ..
    have isDigit := Numeral.isDigit_of_mem_write member
    refine ⟨digit, digits, shape, opens_digit isDigit, ?_, ?_⟩
    all_goals rintro rfl; revert isDigit; decide
  | negative magnitude bound =>
    exact ⟨'-', Numeral.write magnitude, rfl, by decide, by decide, by decide⟩

private theorem print_opens (hex : HexCase) {json : Json} (plain : json.IsPlain) :
    ∃ char rest, json.print hex = char :: rest ∧ Opens char := by
  cases json with
  | null => exact ⟨'n', "ull".toList, by simp [print], by decide⟩
  | bool value =>
    cases value with
    | true => exact ⟨'t', "rue".toList, by simp [print], by decide⟩
    | false => exact ⟨'f', "alse".toList, by simp [print], by decide⟩
  | num number =>
    obtain ⟨char, rest, shape, opens, _⟩ := print_number_opens plain
    exact ⟨char, rest, shape, opens⟩
  | str text => exact ⟨'"', _, rfl, by decide⟩
  | arr items => exact ⟨'[', _, by rw [print], by decide⟩
  | obj members => exact ⟨'{', _, by rw [print], by decide⟩

private theorem length_print_pos (hex : HexCase) {json : Json} (plain : json.IsPlain) :
    0 < (json.print hex).length := by
  obtain ⟨char, rest, shape, _⟩ := print_opens hex plain
  simp [shape]

private theorem printItems_cons (hex : HexCase) (item : Json) (rest : List Json) :
    printItems hex (item :: rest) =
      item.print hex ++ rest.flatMap fun item => ',' :: item.print hex := by
  induction rest generalizing item with
  | nil => simp [printItems]
  | cons next rest ih => rw [printItems, ih next, List.flatMap_cons, List.cons_append]

private theorem print_null (hex : HexCase) : print hex .null = ['n', 'u', 'l', 'l'] := by
  simp [print]

private theorem print_true (hex : HexCase) : print hex (.bool true) = ['t', 'r', 'u', 'e'] := by
  simp [print]

private theorem print_false (hex : HexCase) :
    print hex (.bool false) = ['f', 'a', 'l', 's', 'e'] := by
  simp [print]

/-- The text of a list of members begins with the quote of its first key. -/
private theorem printMembers_cons (hex : HexCase) (member : String × Json)
    (rest : List (String × Json)) :
    ∃ text, printMembers hex (member :: rest) = '"' :: text := by
  cases rest with
  | nil => exact ⟨_, by rw [printMembers, printString, List.cons_append]⟩
  | cons next rest => exact ⟨_, by rw [printMembers, printString, List.cons_append]⟩

section Steps

variable {grammar : Grammar} {fuel depth index : Nat} {text left rest : List Char}

private theorem readValue?_scalar {char : Char} (visible : isSpace char = false)
    (noArray : char ≠ '[') (noObject : char ≠ '{') :
    readValue? grammar (fuel + 1) depth .all (char :: rest) =
      readScalar? grammar (char :: rest) := by
  unfold readValue?
  rw [skipSpace_cons visible]
  split
  · contradiction
  · simp_all
  · simp_all
  · rfl

private theorem readValue?_array {items : List Json}
    (read : readItems? grammar fuel depth .all 0 true text = some (items, rest)) :
    readValue? grammar (fuel + 1) (depth + 1) .all ('[' :: text) = some (.arr items, rest) := by
  unfold readValue?
  simp [skipSpace_cons, isSpace, read]

private theorem readValue?_emptyObject :
    readValue? grammar (fuel + 1) (depth + 1) .all ('{' :: '}' :: rest) = some (.obj [], rest) := by
  unfold readValue?
  simp [skipSpace_cons, isSpace]

private theorem readValue?_object {members : List (String × Json)}
    (read : readMembers? grammar fuel depth .all ('"' :: text) = some (members, rest)) :
    readValue? grammar (fuel + 1) (depth + 1) .all ('{' :: '"' :: text) =
      some (.obj members, rest) := by
  unfold readValue?
  simp [skipSpace_cons, isSpace, read]

private theorem readItems?_close (spare : Bool) :
    readItems? grammar (fuel + 1) depth .all index spare (']' :: rest) = some ([], rest) := by
  unfold readItems?
  simp [skipSpace_cons, isSpace]

private theorem readItems?_comma {item : Json} {items : List Json}
    (first : readValue? grammar fuel depth .all text = some (item, left))
    (others : readItems? grammar fuel depth .all (index + 1) false left = some (items, rest)) :
    readItems? grammar (fuel + 1) depth .all index false (',' :: text) =
      some (item :: items, rest) := by
  unfold readItems?
  simp [skipSpace_cons, isSpace, first, others]

private theorem readItems?_open {char : Char} {item : Json} {items : List Json}
    (opens : Opens char)
    (first : readValue? grammar fuel depth .all (char :: text) = some (item, left))
    (others : readItems? grammar fuel depth .all (index + 1) false left = some (items, rest)) :
    readItems? grammar (fuel + 1) depth .all index true (char :: text) =
      some (item :: items, rest) := by
  obtain ⟨visible, noEnd, noComma, _⟩ := opens
  unfold readItems?
  rw [skipSpace_cons visible]
  simp [noEnd, noComma, first, others]

private theorem readMembers?_last {key : String} {body : Json} (hex : HexCase)
    (value : readValue? grammar fuel depth .all text = some (body, '}' :: rest)) :
    readMembers? grammar (fuel + 1) depth .all (printString hex key ++ ':' :: text) =
      some ([(key, body)], rest) := by
  unfold readMembers?
  simp [printString, skipSpace_cons, isSpace, readString?_escape, value]

private theorem readMembers?_next {key : String} {body : Json} {members : List (String × Json)}
    (hex : HexCase) (value : readValue? grammar fuel depth .all text = some (body, ',' :: left))
    (others : readMembers? grammar fuel depth .all left = some (members, rest)) :
    readMembers? grammar (fuel + 1) depth .all (printString hex key ++ ':' :: text) =
      some ((key, body) :: members, rest) := by
  unfold readMembers?
  simp [printString, skipSpace_cons, isSpace, readString?_escape, value, others]

end Steps

private theorem closed_tail (hex : HexCase) (items : List Json) (rest : List Char) :
    Closed ((items.flatMap fun item => ',' :: item.print hex) ++ ']' :: rest) := by
  cases items with
  | nil => exact closed_cons (by decide) rest
  | cons item items =>
    rw [List.flatMap_cons, List.append_assoc]
    exact closed_cons (by decide) _

variable {grammar : Grammar} {hex : HexCase}

mutual

/-- A written value reads as the value, with whatever follows it. -/
theorem readValue?_print {fuel depth : Nat} {rest : List Char} :
    (json : Json) → json.IsPlain → json.depth ≤ depth → 2 * (json.print hex).length ≤ fuel →
      Closed rest → readValue? grammar fuel depth .all (json.print hex ++ rest) = some (json, rest)
  | .null, _, _, enough, _ => by
    rw [print_null] at enough ⊢
    obtain ⟨fuel, rfl⟩ : ∃ left, fuel = left + 1 := ⟨fuel - 1, by simp at enough; omega⟩
    refine (readValue?_scalar (by decide) (by decide) (by decide)).trans ?_
    simp [readScalar?, skipWord?]
  | .bool true, _, _, enough, _ => by
    rw [print_true] at enough ⊢
    obtain ⟨fuel, rfl⟩ : ∃ left, fuel = left + 1 := ⟨fuel - 1, by simp at enough; omega⟩
    refine (readValue?_scalar (by decide) (by decide) (by decide)).trans ?_
    simp [readScalar?, skipWord?]
  | .bool false, _, _, enough, _ => by
    rw [print_false] at enough ⊢
    obtain ⟨fuel, rfl⟩ : ∃ left, fuel = left + 1 := ⟨fuel - 1, by simp at enough; omega⟩
    refine (readValue?_scalar (by decide) (by decide) (by decide)).trans ?_
    simp [readScalar?, skipWord?]
  | .num number, plain, _, enough, closed => by
    obtain ⟨char, more, shape, opens, noArray, noObject⟩ := print_number_opens plain
    rw [print] at enough ⊢
    obtain ⟨fuel, rfl⟩ : ∃ left, fuel = left + 1 := ⟨fuel - 1, by simp [shape] at enough; omega⟩
    have read := readScalar?_printNumber grammar plain closed
    rw [shape, List.cons_append] at read ⊢
    rw [readValue?_scalar opens.1 noArray noObject, read]
  | .str text, _, _, enough, _ => by
    rw [print, printString] at enough ⊢
    obtain ⟨fuel, rfl⟩ : ∃ left, fuel = left + 1 := ⟨fuel - 1, by simp at enough; omega⟩
    rw [List.cons_append, List.append_assoc, readValue?_scalar (by decide) (by decide) (by decide),
      readScalar?, List.cons_append, List.nil_append, readString?_escape, Option.map_some]
  | .arr items, plain, nested, enough, _ => by
    rw [print] at enough ⊢
    rw [Json.depth] at nested
    simp only [List.length_cons, List.length_append] at enough
    obtain ⟨depth, rfl⟩ : ∃ left, depth = left + 1 := ⟨depth - 1, by omega⟩
    obtain ⟨fuel, rfl⟩ : ∃ left, fuel = left + 1 := ⟨fuel - 1, by omega⟩
    rw [List.cons_append, List.append_assoc]
    exact readValue?_array (readItems?_print items plain (by omega) (by omega))
  | .obj [], _, nested, enough, _ => by
    rw [print] at enough ⊢
    rw [Json.depth] at nested
    obtain ⟨depth, rfl⟩ : ∃ left, depth = left + 1 := ⟨depth - 1, by omega⟩
    obtain ⟨fuel, rfl⟩ : ∃ left, fuel = left + 1 := ⟨fuel - 1, by simp at enough; omega⟩
    exact readValue?_emptyObject
  | .obj ((key, body) :: members), plain, nested, enough, _ => by
    rw [print] at enough ⊢
    rw [Json.depth] at nested
    simp only [List.length_cons, List.length_append] at enough
    obtain ⟨depth, rfl⟩ : ∃ left, depth = left + 1 := ⟨depth - 1, by omega⟩
    obtain ⟨fuel, rfl⟩ : ∃ left, fuel = left + 1 := ⟨fuel - 1, by omega⟩
    have read : readMembers? grammar fuel depth .all
        (printMembers hex ((key, body) :: members) ++ '}' :: rest) =
          some ((key, body) :: members, rest) :=
      readMembers?_print ((key, body) :: members) (by simp) plain (by omega) (by omega)
    obtain ⟨text, shape⟩ := printMembers_cons hex (key, body) members
    rw [shape, List.cons_append] at read
    rw [shape, List.cons_append, List.cons_append, List.cons_append, List.append_assoc]
    exact readValue?_object read

private theorem readItems?_print {fuel depth index : Nat} {rest : List Char} :
    (items : List Json) → ItemsPlain items → itemsDepth items ≤ depth →
      2 * (printItems hex items).length + 2 ≤ fuel →
      readItems? grammar fuel depth .all index true (printItems hex items ++ ']' :: rest) =
        some (items, rest)
  | [], _, _, enough => by
    obtain ⟨fuel, rfl⟩ : ∃ left, fuel = left + 1 := ⟨fuel - 1, by omega⟩
    exact readItems?_close true
  | item :: items, plain, nested, enough => by
    obtain ⟨fuel, rfl⟩ : ∃ left, fuel = left + 1 := ⟨fuel - 1, by omega⟩
    obtain ⟨plainItem, plainItems⟩ := plain
    rw [itemsDepth] at nested
    rw [printItems_cons, List.length_append] at enough
    obtain ⟨char, text, shape, opens⟩ := print_opens hex plainItem
    have positive := length_print_pos hex plainItem
    have others : readItems? grammar fuel depth .all (index + 1) false
        ((items.flatMap fun item => ',' :: item.print hex) ++ ']' :: rest) = some (items, rest) :=
      readItems?_printTail items plainItems (by omega) (by omega)
    have shallow : item.depth ≤ depth := by omega
    have fueled : 2 * (item.print hex).length ≤ fuel := by omega
    have first := readValue?_print item plainItem shallow fueled (closed_tail hex items rest)
    rw [printItems_cons, List.append_assoc]
    rw [shape, List.cons_append] at first ⊢
    exact readItems?_open opens first others

private theorem readItems?_printTail {fuel depth index : Nat} {rest : List Char} :
    (items : List Json) → ItemsPlain items → itemsDepth items ≤ depth →
      2 * (items.flatMap fun item => ',' :: item.print hex).length + 2 ≤ fuel →
      readItems? grammar fuel depth .all index false
          ((items.flatMap fun item => ',' :: item.print hex) ++ ']' :: rest) = some (items, rest)
  | [], _, _, enough => by
    obtain ⟨fuel, rfl⟩ : ∃ left, fuel = left + 1 := ⟨fuel - 1, by omega⟩
    exact readItems?_close false
  | item :: items, plain, nested, enough => by
    obtain ⟨fuel, rfl⟩ : ∃ left, fuel = left + 1 := ⟨fuel - 1, by omega⟩
    obtain ⟨plainItem, plainItems⟩ := plain
    rw [itemsDepth] at nested
    rw [List.flatMap_cons, List.length_append, List.length_cons] at enough
    have others : readItems? grammar fuel depth .all (index + 1) false
        ((items.flatMap fun item => ',' :: item.print hex) ++ ']' :: rest) = some (items, rest) :=
      readItems?_printTail items plainItems (by omega) (by omega)
    have shallow : item.depth ≤ depth := by omega
    have fueled : 2 * (item.print hex).length ≤ fuel := by omega
    have first := readValue?_print item plainItem shallow fueled (closed_tail hex items rest)
    rw [List.flatMap_cons, List.append_assoc, List.cons_append]
    exact readItems?_comma first others

private theorem readMembers?_print {fuel depth : Nat} {rest : List Char} :
    (members : List (String × Json)) → members ≠ [] → MembersPlain members →
      membersDepth members ≤ depth → 2 * (printMembers hex members).length ≤ fuel →
      readMembers? grammar fuel depth .all (printMembers hex members ++ '}' :: rest) =
        some (members, rest)
  | [], someMember, _, _, _ => absurd rfl someMember
  | [(key, body)], _, plain, nested, enough => by
    rw [membersDepth] at nested
    rw [printMembers] at enough ⊢
    simp only [List.length_append, List.length_cons] at enough
    obtain ⟨fuel, rfl⟩ : ∃ left, fuel = left + 1 := ⟨fuel - 1, by omega⟩
    have shallow : body.depth ≤ depth := by omega
    have fueled : 2 * (body.print hex).length ≤ fuel := by omega
    have closed : Closed ('}' :: rest) := closed_cons (by decide) rest
    have value := readValue?_print body plain.1 shallow fueled closed
    rw [List.append_assoc, List.cons_append]
    exact readMembers?_last hex value
  | (key, body) :: next :: members, _, plain, nested, enough => by
    rw [membersDepth] at nested
    rw [printMembers] at enough ⊢
    simp only [List.length_append, List.length_cons] at enough
    obtain ⟨fuel, rfl⟩ : ∃ left, fuel = left + 1 := ⟨fuel - 1, by omega⟩
    have others : readMembers? grammar fuel depth .all
        (printMembers hex (next :: members) ++ '}' :: rest) = some (next :: members, rest) :=
      readMembers?_print (next :: members) (by simp) plain.2 (by omega) (by omega)
    have shallow : body.depth ≤ depth := by omega
    have fueled : 2 * (body.print hex).length ≤ fuel := by omega
    have closed : Closed (',' :: (printMembers hex (next :: members) ++ '}' :: rest)) :=
      closed_cons (by decide) _
    have value := readValue?_print body plain.1 shallow fueled closed
    rw [List.append_assoc, List.cons_append, List.append_assoc, List.cons_append]
    exact readMembers?_next hex value others

end

/-- The text of a document reads as the document, if the reader goes as deep. -/
theorem read?_print {json : Json} (plain : json.IsPlain) (nested : json.depth ≤ grammar.depth) :
    read? grammar .all (String.ofList (json.print hex)) = some json := by
  have read : readValue? grammar (2 * (json.print hex).length + 2) grammar.depth .all
      (json.print hex ++ []) = some (json, []) :=
    readValue?_print json plain nested (by omega) closed_nil
  rw [List.append_nil] at read
  simp only [read?, String.toList_ofList, read, Option.bind_eq_bind, Option.bind_some, skipSpace]
  rfl

end Proposal.Json
