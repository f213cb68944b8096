import Mathlib.Tactic
import Proposal.Json.Reader

namespace Proposal

namespace Numeral

/-- No numeral but that of zero begins with a zero. -/
theorem head?_write_ne_zero {number : Nat} (positive : number ≠ 0) :
    (write number).head? ≠ some '0' := by
  induction number using Nat.strongRecOn with
  | _ number ih =>
    by_cases small : number < 10
    · have digits : ∀ number < 10, number ≠ 0 → (write number).head? ≠ some '0' := by decide
      exact digits number small positive
    · have split : write number = write (number / 10) ++ [(number % 10).digitChar] :=
        Nat.toDigits_of_base_le (by decide) (by omega)
      rw [split, List.head?_append_of_ne_nil _ (write_ne_nil _)]
      exact ih (number / 10) (by omega) (by omega)

end Numeral

namespace HexCase

private theorem hexValue?_digit (hex : HexCase) {value : Nat} (small : value < 16) :
    Json.hexValue? (hex.digit value) = some value := by
  have table : ∀ hex : HexCase, ∀ value < 16, Json.hexValue? (hex.digit value) = some value := by
    intro hex
    cases hex <;> decide
  exact table hex value small

private theorem digit_ne (hex : HexCase) {value : Nat} (small : value < 16) :
    hex.digit value ≠ '"' ∧ hex.digit value ≠ '\\' := by
  have table : ∀ hex : HexCase, ∀ value < 16,
      hex.digit value ≠ '"' ∧ hex.digit value ≠ '\\' := by
    intro hex
    cases hex <;> decide
  exact table hex value small

end HexCase

namespace Json

/-- The three ways in which a character is written: behind a backslash, as a unit, or as itself. -/
inductive Escaped (hex : HexCase) (char : Char) : List Char → Prop
  | short {written : Char} (known : shortEscape? written = some char) (noUnit : written ≠ 'u') :
      Escaped hex char ['\\', written]
  | unit (control : char.toNat < 32) :
      Escaped hex char
        ['\\', 'u', '0', '0', hex.digit (char.toNat / 16), hex.digit (char.toNat % 16)]
  | plain (noQuote : char ≠ '"') (noSlash : char ≠ '\\') (visible : 32 ≤ char.toNat) :
      Escaped hex char [char]

private theorem escaped_escape (hex : HexCase) (char : Char) :
    Escaped hex char (escape hex char) := by
  unfold escape
  split_ifs with quote slash back tab line feed return_ control
  · exact .short (by rw [quote]; decide) (by decide)
  · exact .short (by rw [slash]; decide) (by decide)
  · exact .short (by rw [back]; decide) (by decide)
  · exact .short (by rw [tab]; decide) (by decide)
  · exact .short (by rw [line]; decide) (by decide)
  · exact .short (by rw [feed]; decide) (by decide)
  · exact .short (by rw [return_]; decide) (by decide)
  · exact .unit control
  · exact .plain quote slash (by omega)

private theorem takeString_plain {char : Char} (noQuote : char ≠ '"') (noSlash : char ≠ '\\')
    (rest : List Char) :
    takeString (char :: rest) = (takeString rest).map fun split => (char :: split.1, split.2) := by
  rw [takeString]
  · exact noQuote
  · intro other more slash
    exact absurd slash noSlash

/-- No quote stands bare in what a character is written as. -/
theorem Escaped.takeString_append {hex : HexCase} {char : Char} {written : List Char}
    (escaped : Escaped hex char written) (rest : List Char) :
    takeString (written ++ rest) =
      (takeString rest).map fun split => (written ++ split.1, split.2) := by
  cases escaped with
  | short known noUnit => simp [takeString]
  | plain noQuote noSlash visible => exact takeString_plain noQuote noSlash rest
  | unit control =>
    have high : char.toNat / 16 < 16 := by omega
    have low : char.toNat % 16 < 16 := by omega
    obtain ⟨highQuote, highSlash⟩ := hex.digit_ne high
    obtain ⟨lowQuote, lowSlash⟩ := hex.digit_ne low
    simp [takeString, takeString_plain highQuote highSlash, takeString_plain lowQuote lowSlash,
      Function.comp_def]

private theorem takeString_flatMap_escape (hex : HexCase) (chars rest : List Char) :
    takeString (chars.flatMap (escape hex) ++ '"' :: rest) =
      some (chars.flatMap (escape hex), rest) := by
  induction chars with
  | nil => simp [takeString]
  | cons char chars ih =>
    have first := (escaped_escape hex char).takeString_append
      (chars.flatMap (escape hex) ++ '"' :: rest)
    rw [List.flatMap_cons, List.append_assoc, first, ih, Option.map_some]

/-- A part that stands for one character, whatever comes behind it. -/
def Piece.StandsFor (piece : Piece) (char : Char) : Prop :=
  ∀ apart rest,
    joinPieces? apart none (piece :: rest) = (joinPieces? apart none rest).map (char :: ·)

private theorem unit?_digits (hex : HexCase) {code : Nat} (small : code < 256) :
    unit? '0' '0' (hex.digit (code / 16)) (hex.digit (code % 16)) = some code := by
  have zero : hexValue? '0' = some 0 := by decide
  have high : hexValue? (hex.digit (code / 16)) = some (code / 16) :=
    hex.hexValue?_digit (by omega)
  have low : hexValue? (hex.digit (code % 16)) = some (code % 16) :=
    hex.hexValue?_digit (by omega)
  have whole : ((0 * 16 + 0) * 16 + code / 16) * 16 + code % 16 = code := by omega
  simp only [unit?, zero, high, low, Option.bind_eq_bind, Option.bind_some, Option.pure_def, whole]

private theorem standsFor_unit {char : Char} (control : char.toNat < 32) :
    (Piece.unit char.toNat).StandsFor char := by
  intro apart rest
  have noHigh : isHighSurrogate char.toNat = false := by
    simp [isHighSurrogate]; omega
  have noLow : isLowSurrogate char.toNat = false := by
    simp [isLowSurrogate]; omega
  simp [joinPieces?, noHigh, noLow]

/-- What a character is written as reads as one part, which stands for the character. -/
theorem Escaped.exists_piece {hex : HexCase} {char : Char} {written : List Char}
    (escaped : Escaped hex char written) :
    ∃ piece : Piece, piece.StandsFor char ∧ ∀ controls rest,
      pieces? controls (written ++ rest) = (pieces? controls rest).map (piece :: ·) := by
  cases escaped with
  | @short letter known noUnit =>
    refine ⟨.short char, fun apart rest => by simp [joinPieces?], fun controls rest => ?_⟩
    have shape : ∀ a b c d more, letter = 'u' → rest = a :: b :: c :: d :: more → False :=
      fun _ _ _ _ _ unit => absurd unit noUnit
    rw [List.cons_append, List.cons_append, List.nil_append, pieces?.eq_3 _ _ _ shape, known]
    cases pieces? controls rest <;> rfl
  | unit control =>
    refine ⟨.unit char.toNat, standsFor_unit control, fun controls rest => ?_⟩
    rw [List.cons_append, List.cons_append, List.cons_append, List.cons_append, List.cons_append,
      List.cons_append, List.nil_append, pieces?, unit?_digits hex (by omega)]
    cases pieces? controls rest <;> rfl
  | plain noQuote noSlash visible =>
    refine ⟨.plain char, fun apart rest => by simp [joinPieces?], fun controls rest => ?_⟩
    have shown : ¬ (char = '\\' ∨ (char.toNat < 32 ∧ controls = false)) := by
      rintro (slash | ⟨low, _⟩)
      · exact noSlash slash
      · omega
    rw [List.cons_append, List.nil_append, pieces?]
    · rw [if_neg shown]
      cases pieces? controls rest <;> rfl
    · exact fun _ _ _ _ _ slash => absurd slash noSlash
    · exact fun _ _ slash => absurd slash noSlash

private theorem exists_pieces_flatMap_escape (hex : HexCase) (controls : Bool) (chars : List Char) :
    ∃ pieces, pieces? controls (chars.flatMap (escape hex)) = some pieces ∧
      ∀ apart, joinPieces? apart none pieces = some chars := by
  induction chars with
  | nil => exact ⟨[], by simp [pieces?], fun apart => by simp [joinPieces?]⟩
  | cons char chars ih =>
    obtain ⟨pieces, split, joined⟩ := ih
    obtain ⟨piece, stands, first⟩ := (escaped_escape hex char).exists_piece
    refine ⟨piece :: pieces, ?_, fun apart => ?_⟩
    · rw [List.flatMap_cons, first, split, Option.map_some]
    · rw [stands, joined, Option.map_some]

/-- A written string reads as its text, with the rest behind its closing quote. -/
theorem readString?_escape (grammar : Grammar) (hex : HexCase) (text : String)
    (rest : List Char) :
    readString? grammar .all (text.toList.flatMap (escape hex) ++ '"' :: rest) =
      some (text, rest) := by
  obtain ⟨pieces, split, joined⟩ := exists_pieces_flatMap_escape hex
    (grammar.controls && !(text.toList.flatMap (escape hex)).contains '\\') text.toList
  simp only [readString?, takeString_flatMap_escape, Option.bind_eq_bind, Option.bind_some, split,
    joined, Grammar.formOnly_all, Bool.false_eq_true, ↓reduceIte, Option.pure_def,
    String.ofList_toList]

/-- Nothing follows, or a comma or a closing bracket does. -/
def Closed (rest : List Char) : Prop := ∀ char ∈ rest.head?, isEnd char = true

theorem closed_nil : Closed [] := by simp [Closed]

theorem closed_cons {char : Char} (stop : isEnd char = true) (rest : List Char) :
    Closed (char :: rest) := by
  simpa [Closed] using stop

/-- What follows a number neither goes on with it nor gives it a fraction or an exponent. -/
theorem Closed.head_cases {rest : List Char} (closed : Closed rest) :
    rest = [] ∨ ∃ char more, rest = char :: more ∧ (char = ',' ∨ char = ']' ∨ char = '}') := by
  cases rest with
  | nil => exact .inl rfl
  | cons char more =>
    have stop := closed char (by simp)
    exact .inr ⟨char, more, rfl, by simpa [isEnd, or_assoc] using stop⟩

private theorem Closed.takeWhile_isDigit {rest : List Char} (closed : Closed rest) :
    rest.takeWhile Char.isDigit = [] ∧ rest.dropWhile Char.isDigit = rest := by
  rcases closed.head_cases with rfl | ⟨char, more, rfl, rfl | rfl | rfl⟩
  all_goals exact ⟨rfl, rfl⟩

theorem Closed.readFraction? {rest : List Char} (closed : Closed rest) :
    readFraction? rest = some ([], rest) := by
  rcases closed.head_cases with rfl | ⟨char, more, rfl, rfl | rfl | rfl⟩
  all_goals rfl

theorem Closed.readPower? {rest : List Char} (closed : Closed rest) :
    readPower? rest = some (0, rest) := by
  rcases closed.head_cases with rfl | ⟨char, more, rfl, rfl | rfl | rfl⟩
  all_goals rfl

private theorem readDigits?_write (number : Nat) {rest : List Char} (closed : Closed rest) :
    readDigits? (Numeral.write number ++ rest) = some (Numeral.write number, rest) := by
  obtain ⟨noDigit, dropped⟩ := closed.takeWhile_isDigit
  have digits : ∀ char ∈ Numeral.write number, char.isDigit = true :=
    fun char member => Numeral.isDigit_of_mem_write member
  have taken : (Numeral.write number ++ rest).takeWhile Char.isDigit = Numeral.write number := by
    rw [List.takeWhile_append_of_pos digits, noDigit, List.append_nil]
  have left : (Numeral.write number ++ rest).dropWhile Char.isDigit = rest := by
    rw [List.dropWhile_append_of_pos digits, dropped]
  by_cases zero : number = 0
  · subst zero
    rfl
  · have noZero : ∀ more, Numeral.write number ++ rest ≠ '0' :: more := by
      intro more same
      refine Numeral.head?_write_ne_zero zero ?_
      rw [← List.head?_append_of_ne_nil _ (Numeral.write_ne_nil number), same, List.head?_cons]
    rw [readDigits?.eq_2 _ noZero, taken, left]
    exact if_neg (Numeral.write_ne_nil number)

private theorem readNumber?_write (grammar : Grammar) (negative : Bool) (magnitude : Nat)
    {rest : List Char} (closed : Closed rest) :
    readNumber? grammar negative (Numeral.write magnitude ++ rest) =
      (if grammar.fractions then wholeNumber? negative (Numeral.write magnitude)
        else integer? negative magnitude).map (·, rest) := by
  unfold readNumber?
  rw [readDigits?_write magnitude closed]
  cases grammar.fractions with
  | false =>
    simp only [Option.bind_eq_bind, Option.bind_some, Numeral.value_write, Bool.false_eq_true,
      ↓reduceIte]
    cases integer? negative magnitude <;> rfl
  | true =>
    simp only [Option.bind_eq_bind, Option.bind_some, closed.readFraction?, closed.readPower?,
      ↓reduceIte]
    cases wholeNumber? negative (Numeral.write magnitude) <;> rfl

end Json

/-- A number without a fraction that is not a zero with a sign. -/
def Number.IsPlain : Number → Prop
  | .natural _ => True
  | .negative magnitude _ => magnitude ≠ 0
  | .float _ => False

namespace Json

private theorem wholeNumber?_natural (value : Unsigned 64) :
    wholeNumber? false (Numeral.write value.val) = some (.natural value) := by
  simp [wholeNumber?, integer?, Numeral.value_write]

private theorem wholeNumber?_negative {magnitude : Nat} (nonzero : magnitude ≠ 0)
    (bound : magnitude ≤ Nat.pow 2 63) :
    wholeNumber? true (Numeral.write magnitude) = some (.negative magnitude bound) := by
  unfold wholeNumber?
  simp only [Numeral.value_write, nonzero, and_false, if_false, integer?, if_true, dif_pos bound]

private theorem readScalar?_digits (grammar : Grammar) (number : Nat) (rest : List Char) :
    readScalar? grammar (Numeral.write number ++ rest) =
      (readNumber? grammar false (Numeral.write number ++ rest)).map
        fun read => (.num read.1, read.2) := by
  obtain ⟨digit, digits, shape⟩ := List.exists_cons_of_ne_nil (Numeral.write_ne_nil number)
  have member : digit ∈ Numeral.write number := by rw [shape]; exact List.mem_cons_self ..
  have isDigit := Numeral.isDigit_of_mem_write member
  rw [shape, List.cons_append]
  unfold readScalar?
  split
  all_goals simp_all

/-- An integer reads back where nothing follows that could belong to it. -/
theorem readScalar?_printNumber (grammar : Grammar) {number : Number} (plain : number.IsPlain)
    {rest : List Char} (closed : Closed rest) :
    readScalar? grammar (printNumber number ++ rest) = some (.num number, rest) := by
  cases number with
  | float value => exact plain.elim
  | natural value =>
    rw [printNumber, Unsigned.write, readScalar?_digits, readNumber?_write grammar _ _ closed,
      wholeNumber?_natural]
    simp [integer?]
  | negative magnitude bound =>
    rw [printNumber, List.cons_append, readScalar?, readNumber?_write grammar _ _ closed,
      wholeNumber?_negative plain bound]
    simp [integer?, bound]

end Json

end Proposal
