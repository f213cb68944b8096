import Mathlib.Data.List.TakeWhile
import Mathlib.Tactic
import Proposal.Proofs.Amount.Rounding
import Proposal.Proofs.Numeral

/-! A text is read as an amount exactly if it spells a number, and then as the number of base units
nearest to it. -/
namespace Proposal

namespace Text

variable {before core after : List Char}

/-- Nothing but white space. -/
def IsBlank (text : List Char) : Prop := ∀ char ∈ text, White char

instance (text : List Char) : Decidable (IsBlank text) :=
  inferInstanceAs (Decidable (∀ char ∈ text, White char))

/-- No white space at all. -/
def IsDark (text : List Char) : Prop := ∀ char ∈ text, ¬White char

theorem IsBlank.reverse (blank : IsBlank before) : IsBlank before.reverse :=
  fun char member => blank char (List.mem_reverse.mp member)

theorem IsDark.reverse (dark : IsDark core) : IsDark core.reverse :=
  fun char member => dark char (List.mem_reverse.mp member)

private theorem not_white_of_isDigit {char : Char} (isDigit : char.isDigit = true) :
    ¬White char := by
  have code := Numeral.toNat_of_isDigit isDigit
  simp [White]
  omega

private theorem IsDark.dropWhile_append (dark : IsDark core) (notEmpty : core ≠ [])
    (after : List Char) :
    (core ++ after).dropWhile isBlank = core ++ after := by
  cases core with
  | nil => exact absurd rfl notEmpty
  | cons first rest =>
    have black : ¬isBlank first = true :=
      isBlank_eq_true_iff.not.mpr (dark first List.mem_cons_self)
    exact List.dropWhile_cons_of_neg black

private theorem IsBlank.dropWhile_append (blank : IsBlank before) (rest : List Char) :
    (before ++ rest).dropWhile isBlank = rest.dropWhile isBlank :=
  List.dropWhile_append_of_pos fun char member => isBlank_eq_true_iff.mpr (blank char member)

private theorem trim_append (blankBefore : IsBlank before) (dark : IsDark core)
    (notEmpty : core ≠ []) (blankAfter : IsBlank after) :
    trim (before ++ core ++ after) = core := by
  have front : (before ++ core ++ after).dropWhile isBlank = core ++ after := by
    rw [List.append_assoc, blankBefore.dropWhile_append, dark.dropWhile_append notEmpty]
  have back : (core ++ after).reverse.dropWhile isBlank = core.reverse := by
    rw [List.reverse_append, blankAfter.reverse.dropWhile_append]
    simpa using dark.reverse.dropWhile_append (by simpa using notEmpty) []
  rw [trim, front, back, List.reverse_reverse]

private theorem isBlank_takeWhile (text : List Char) : IsBlank (text.takeWhile isBlank) :=
  fun char member =>
    isBlank_eq_true_iff.mp (List.all_eq_true.mp List.all_takeWhile char member)

/-- Only white space is trimmed, and only at the ends. -/
theorem exists_trim (text : List Char) :
    ∃ before after, text = before ++ trim text ++ after ∧ IsBlank before ∧ IsBlank after := by
  have front : text.takeWhile isBlank ++ text.dropWhile isBlank = text :=
    List.takeWhile_append_dropWhile
  have back : trim text ++ ((text.dropWhile isBlank).reverse.takeWhile isBlank).reverse =
      text.dropWhile isBlank := by
    rw [trim, ← List.reverse_append, List.takeWhile_append_dropWhile, List.reverse_reverse]
  refine ⟨text.takeWhile isBlank, ((text.dropWhile isBlank).reverse.takeWhile isBlank).reverse,
    ?_, isBlank_takeWhile text, (isBlank_takeWhile _).reverse⟩
  rw [List.append_assoc, back, front]

end Text

/-- A number of which the next one fits fits as well. -/
theorem Unsigned.ofNat?_bind_succ {bits : Nat} (number : Nat) :
    ((ofNat? bits number).bind fun fitting => ofNat? bits (fitting.val + 1)) =
      ofNat? bits (number + 1) := by
  cases found : ofNat? bits number with
  | none =>
    have wide := ofNat?_eq_none_iff.mp found
    exact (ofNat?_eq_none_iff.mpr (Nat.le_succ_of_le wide)).symm
  | some fitting => rw [Option.bind_some, ofNat?_eq_some_iff.mp found]

namespace Amount

open Numeral (IsDigits)

variable {text : String} {decimals : Places} {numeral whole fraction : List Char} {value : ℚ}

/-- A numeral with at most one point, and its value: `W`, `W.`, `.F` or `W.F`, where `W` and `F` are
runs of digits that are not empty. -/
inductive Denotes : List Char → ℚ → Prop
  | whole {whole : List Char} (notEmpty : whole ≠ []) (digits : IsDigits whole) :
      Denotes whole (Numeral.value whole)
  | wholePoint {whole : List Char} (notEmpty : whole ≠ []) (digits : IsDigits whole) :
      Denotes (whole ++ ['.']) (Numeral.value whole)
  | pointFraction {fraction : List Char} (notEmpty : fraction ≠ []) (digits : IsDigits fraction) :
      Denotes ('.' :: fraction) (Numeral.value fraction / 10 ^ fraction.length)
  | both {whole fraction : List Char} (wholeNotEmpty : whole ≠ []) (wholeDigits : IsDigits whole)
      (fractionNotEmpty : fraction ≠ []) (fractionDigits : IsDigits fraction) :
      Denotes (whole ++ '.' :: fraction)
        (Numeral.value whole + Numeral.value fraction / 10 ^ fraction.length)

/-- A text spells a value: a numeral with at most one plus sign in front, between white space. -/
inductive Spells (text : String) (value : ℚ) : Prop
  | intro {before sign numeral after : List Char}
      (split : text.toList = before ++ (sign ++ numeral) ++ after)
      (blankBefore : Text.IsBlank before) (blankAfter : Text.IsBlank after)
      (signed : sign = [] ∨ sign = ['+']) (denotes : Denotes numeral value)

/-! ### Digits before and after the point -/

/-- The digits of a numeral before and after its point, as they are split. -/
structure Parts (numeral whole fraction : List Char) : Prop where
  split : splitPoint numeral = (whole, fraction)
  notEmpty : ¬(whole = [] ∧ fraction = [])
  digits : IsDigits (whole ++ fraction)

private theorem ne_point_of_isDigits (digits : IsDigits whole) :
    ∀ char ∈ whole, (char != '.') = true := by
  intro char member
  rw [bne_iff_ne]
  rintro rfl
  exact absurd (digits '.' member) (by decide)

private theorem splitPoint_digits (digits : IsDigits whole) : splitPoint whole = (whole, []) := by
  have all : whole.takeWhile (· != '.') = whole :=
    List.takeWhile_eq_self_iff.mpr (ne_point_of_isDigits digits)
  have rest : whole.dropWhile (· != '.') = [] :=
    List.dropWhile_eq_nil_iff.mpr (ne_point_of_isDigits digits)
  rw [splitPoint, all, rest]
  rfl

private theorem splitPoint_point (digits : IsDigits whole) (fraction : List Char) :
    splitPoint (whole ++ '.' :: fraction) = (whole, fraction) := by
  rw [splitPoint, List.takeWhile_append_of_pos (ne_point_of_isDigits digits),
    List.dropWhile_append_of_pos (ne_point_of_isDigits digits)]
  simp

private theorem eq_of_splitPoint (split : splitPoint numeral = (whole, fraction)) :
    numeral = whole ∧ fraction = [] ∨ numeral = whole ++ '.' :: fraction := by
  obtain ⟨rfl, rfl⟩ := Prod.mk.inj split
  have joined : numeral.takeWhile (· != '.') ++ numeral.dropWhile (· != '.') = numeral :=
    List.takeWhile_append_dropWhile
  cases rest : numeral.dropWhile (· != '.') with
  | nil =>
    rw [rest, List.append_nil] at joined
    exact .inl ⟨joined.symm, rfl⟩
  | cons point fraction =>
    have stops := List.head_dropWhile_not (· != '.') (l := numeral) (by simp [rest])
    simp only [rest, List.head_cons, bne_eq_false_iff_eq] at stops
    rw [rest, stops] at joined
    exact .inr joined.symm

private theorem value_div_eq (whole fraction : List Char) :
    (Numeral.value (whole ++ fraction) : ℚ) / 10 ^ fraction.length =
      Numeral.value whole + Numeral.value fraction / 10 ^ fraction.length := by
  rw [Numeral.value_append]
  push_cast
  rw [add_div, mul_div_cancel_right₀ _ (by positivity)]

private theorem denotes_iff :
    Denotes numeral value ↔ ∃ whole fraction, Parts numeral whole fraction ∧
      value = Numeral.value (whole ++ fraction) / 10 ^ fraction.length := by
  constructor
  · intro denotes
    cases denotes with
    | whole notEmpty digits =>
      exact ⟨numeral, [], ⟨splitPoint_digits digits, by simp [notEmpty], by simpa using digits⟩,
        by simp⟩
    | @wholePoint whole notEmpty digits =>
      exact ⟨whole, [], ⟨splitPoint_point digits [], by simp [notEmpty], by simpa using digits⟩,
        by simp⟩
    | @pointFraction fraction notEmpty digits =>
      exact ⟨[], fraction, ⟨splitPoint_point (List.forall_mem_nil _) fraction, by simp [notEmpty],
        digits⟩, rfl⟩
    | @both whole fraction wholeNotEmpty wholeDigits fractionNotEmpty fractionDigits =>
      exact ⟨whole, fraction, ⟨splitPoint_point wholeDigits fraction, by simp [wholeNotEmpty],
        Numeral.isDigits_append.mpr ⟨wholeDigits, fractionDigits⟩⟩,
        (value_div_eq whole fraction).symm⟩
  · rintro ⟨whole, fraction, ⟨split, notEmpty, digits⟩, rfl⟩
    obtain ⟨wholeDigits, fractionDigits⟩ := Numeral.isDigits_append.mp digits
    rcases eq_of_splitPoint split with ⟨rfl, rfl⟩ | rfl
    · simpa using Denotes.whole (by simpa using notEmpty) wholeDigits
    · by_cases noFraction : fraction = []
      · subst noFraction
        simpa using Denotes.wholePoint (by simpa using notEmpty) wholeDigits
      · by_cases noWhole : whole = []
        · subst noWhole
          exact .pointFraction noFraction fractionDigits
        · rw [value_div_eq]
          exact .both noWhole wholeDigits noFraction fractionDigits

/-! ### Digits that are kept and dropped -/

/-- The digits are read as the nearest number of base units; the first dropped digit tells which
half it is in. -/
theorem ofDigits?_eq (digits : IsDigits (whole ++ fraction)) (decimals : Nat) :
    ofDigits? whole fraction decimals = Unsigned.ofNat? 128
      (nearest (Numeral.value (whole ++ fraction) * 10 ^ decimals) (10 ^ fraction.length)) := by
  have positive (power : Nat) : 0 < 10 ^ power := Nat.pow_pos (by decide)
  rcases Nat.le_total fraction.length decimals with short | long
  · -- All digits are kept, and zeros are put behind them.
    have scaled : Numeral.value (whole ++ fraction) * 10 ^ decimals =
        Numeral.value (whole ++ fraction) * 10 ^ (decimals - fraction.length) *
          10 ^ fraction.length := by
      rw [Nat.mul_assoc, ← pow_add, Nat.sub_add_cancel short]
    rw [scaled, nearest_mul _ (positive _), ← Numeral.value_append_zeros, ofDigits?,
      List.take_of_length_le short, List.drop_of_length_le short]
    exact Option.bind_fun_some _
  · -- The digits that are dropped stand for a remainder.
    obtain ⟨kept, dropped, rfl, rfl⟩ :
        ∃ kept dropped, kept.length = decimals ∧ kept ++ dropped = fraction :=
      ⟨fraction.take decimals, fraction.drop decimals, List.length_take_of_le long,
        List.take_append_drop decimals fraction⟩
    rw [← List.append_assoc] at digits ⊢
    obtain ⟨_, droppedDigits⟩ := Numeral.isDigits_append.mp digits
    rw [List.length_append, Nat.add_comm, pow_add, nearest_mul_mul (positive _),
      Numeral.value_append, nearest_add _ (Numeral.value_lt droppedDigits), ofDigits?,
      List.take_left, List.drop_left, Nat.sub_self, List.replicate_zero, List.append_nil]
    cases dropped with
    | nil => exact Option.bind_fun_some _
    | cons first rest =>
      simp only [Numeral.half_le_value_iff droppedDigits]
      by_cases up : '5' ≤ first
      · simp only [if_pos up]
        exact Unsigned.ofNat?_bind_succ _
      · simp only [if_neg up]
        exact Option.bind_fun_some _

/-! ### Reading a text -/

/-- The text without the white space at its ends and without a plus sign in front. -/
def unsigned (text : String) : List Char :=
  let trimmed := Text.trim text.toList
  if trimmed.head? = some '+' then trimmed.drop 1 else trimmed

private theorem Parts.head?_ne_minus (parts : Parts numeral whole fraction) :
    numeral.head? ≠ some '-' := by
  obtain ⟨wholeDigits, _⟩ := Numeral.isDigits_append.mp parts.digits
  intro minus
  have first : whole.head? = some '-' ∨ numeral.head? = some '.' := by
    rcases eq_of_splitPoint parts.split with ⟨rfl, _⟩ | rfl
    · exact .inl minus
    · cases whole with
      | nil => exact .inr rfl
      | cons first rest => exact .inl minus
  rcases first with inWhole | point
  · exact absurd (wholeDigits '-' (List.mem_of_head? inWhole)) (by decide)
  · rw [minus] at point
    cases point

private theorem parse_eq (within : decimals.val ≤ maxDecimals)
    (split : splitPoint (unsigned text) = (whole, fraction)) :
    parse text decimals =
      if (unsigned text).head? = some '-' then .error (.invalidAmount text .negative)
      else if (whole = [] ∧ fraction = []) ∨ ¬(whole ++ fraction).all Char.isDigit then
        .error (.invalidAmount text .notANumber)
      else orError (.invalidAmount text .tooLarge) (ofDigits? whole fraction decimals.val) := by
  unfold unsigned at split ⊢
  rw [parse, checkDecimals_eq_ok within]
  simp only [bind, Except.bind, split]

/-- A text that has the parts of a numeral is read, unless it comes to too much. -/
theorem parse_of_parts (within : decimals.val ≤ maxDecimals)
    (parts : Parts (unsigned text) whole fraction) :
    parse text decimals = orError (.invalidAmount text .tooLarge) (Unsigned.ofNat? 128
      (unitsOf (Numeral.value (whole ++ fraction) / 10 ^ fraction.length) decimals)) := by
  have digits : (whole ++ fraction).all Char.isDigit = true := List.all_eq_true.mpr parts.digits
  have units : unitsOf (Numeral.value (whole ++ fraction) / 10 ^ fraction.length) decimals =
      nearest (Numeral.value (whole ++ fraction) * 10 ^ decimals.val) (10 ^ fraction.length) := by
    rw [nearest_eq_floor (Nat.pow_pos (by decide)), unitsOf]
    push_cast
    rw [div_mul_eq_mul_div]
  rw [parse_eq within parts.split, if_neg parts.head?_ne_minus,
    if_neg (not_or.mpr ⟨parts.notEmpty, not_not.mpr digits⟩), units, ofDigits?_eq parts.digits]

/-- Any other text is not an amount. -/
theorem parse_of_noParts (within : decimals.val ≤ maxDecimals)
    (none : ∀ whole fraction, ¬Parts (unsigned text) whole fraction) :
    ∃ fault, parse text decimals = .error (.invalidAmount text fault) := by
  obtain ⟨whole, fraction, split⟩ :
    ∃ whole fraction, splitPoint (unsigned text) = (whole, fraction) := ⟨_, _, rfl⟩
  rw [parse_eq within split]
  split_ifs with minus bad
  · exact ⟨.negative, rfl⟩
  · exact ⟨.notANumber, rfl⟩
  · obtain ⟨notEmpty, digits⟩ := not_or.mp bad
    exact absurd ⟨split, notEmpty, List.all_eq_true.mp (not_not.mp digits)⟩ (none whole fraction)

/-! ### What a text spells -/

theorem Denotes.notEmpty (denotes : Denotes numeral value) : numeral ≠ [] := by
  cases denotes with
  | whole notEmpty => exact notEmpty
  | wholePoint => simp
  | pointFraction => simp
  | both => simp

/-- A numeral is made of digits and a point. -/
theorem Denotes.mem (denotes : Denotes numeral value) :
    ∀ char ∈ numeral, char.isDigit = true ∨ char = '.' := by
  intro char member
  cases denotes with
  | whole _ digits => exact .inl (digits char member)
  | wholePoint _ digits =>
    rcases List.mem_append.mp member with digit | point
    · exact .inl (digits char digit)
    · exact .inr (List.mem_singleton.mp point)
  | pointFraction _ digits =>
    rcases List.mem_cons.mp member with point | digit
    · exact .inr point
    · exact .inl (digits char digit)
  | both _ wholeDigits _ fractionDigits =>
    rcases List.mem_append.mp member with digit | rest
    · exact .inl (wholeDigits char digit)
    · rcases List.mem_cons.mp rest with point | digit
      · exact .inr point
      · exact .inl (fractionDigits char digit)

private theorem Denotes.isDark (denotes : Denotes numeral value) : Text.IsDark numeral := by
  intro char member
  rcases denotes.mem char member with digit | rfl
  · exact Text.not_white_of_isDigit digit
  · decide

private theorem Denotes.head?_ne_plus (denotes : Denotes numeral value) :
    numeral.head? ≠ some '+' := by
  intro plus
  rcases denotes.mem '+' (List.mem_of_head? plus) with digit | point
  · exact absurd digit (by decide)
  · exact absurd point (by decide)

/-- What is left of a text without white space and sign is the numeral that it spells. -/
theorem spells_iff : Spells text value ↔ Denotes (unsigned text) value := by
  constructor
  · rintro ⟨split, blankBefore, blankAfter, signed, denotes⟩
    rcases signed with rfl | rfl
    · have trimmed := Text.trim_append blankBefore denotes.isDark denotes.notEmpty blankAfter
      rw [List.nil_append] at split
      rw [unsigned, split, trimmed]
      simpa only [if_neg denotes.head?_ne_plus] using denotes
    · have dark : Text.IsDark ('+' :: _) :=
        List.forall_mem_cons.mpr ⟨by decide, denotes.isDark⟩
      have trimmed := Text.trim_append blankBefore dark (List.cons_ne_nil _ _) blankAfter
      rw [List.singleton_append] at split
      rw [unsigned, split, trimmed]
      exact denotes
  · intro denotes
    obtain ⟨before, after, split, blankBefore, blankAfter⟩ := Text.exists_trim text.toList
    unfold unsigned at denotes
    by_cases plus : (Text.trim text.toList).head? = some '+'
    · simp only [if_pos plus] at denotes
      have joined : ['+'] ++ (Text.trim text.toList).drop 1 = Text.trim text.toList := by
        rw [List.singleton_append, List.drop_one]
        exact List.cons_head?_tail plus
      exact ⟨joined.symm ▸ split, blankBefore, blankAfter, .inr rfl, denotes⟩
    · simp only [if_neg plus] at denotes
      exact ⟨split, blankBefore, blankAfter, .inl rfl, denotes⟩

/-- A text that spells a value is read as the base units that the value comes to, unless they are
too many. -/
theorem parse_of_spells (within : decimals.val ≤ maxDecimals) (spells : Spells text value) :
    parse text decimals = orError (.invalidAmount text .tooLarge)
      (Unsigned.ofNat? 128 (unitsOf value decimals)) := by
  obtain ⟨whole, fraction, parts, rfl⟩ := denotes_iff.mp (spells_iff.mp spells)
  exact parse_of_parts within parts

/-- A text that spells nothing is not an amount. -/
theorem parse_of_not_spells (within : decimals.val ≤ maxDecimals)
    (spellsNot : ∀ value, ¬Spells text value) :
    ∃ fault, parse text decimals = .error (.invalidAmount text fault) := by
  refine parse_of_noParts within fun whole fraction parts => ?_
  exact spellsNot _ (spells_iff.mpr (denotes_iff.mpr ⟨whole, fraction, parts, rfl⟩))

private theorem parse_eq_ok_iff (within : decimals.val ≤ maxDecimals) {base : BaseAmount} :
    parse text decimals = .ok base ↔
      ∃ value, Spells text value ∧ base.val = unitsOf value decimals := by
  constructor
  · intro read
    by_cases spelled : ∃ value, Spells text value
    · obtain ⟨value, spells⟩ := spelled
      rw [parse_of_spells within spells] at read
      exact ⟨value, spells, Unsigned.ofNat?_eq_some_iff.mp (orError_eq_ok_iff.mp read)⟩
    · obtain ⟨fault, failed⟩ := parse_of_not_spells within (not_exists.mp spelled)
      rw [failed] at read
      cases read
  · rintro ⟨value, spells, same⟩
    rw [parse_of_spells within spells]
    exact orError_eq_ok_iff.mpr (Unsigned.ofNat?_eq_some_iff.mpr same)

private theorem parse_ok_or_invalid (within : decimals.val ≤ maxDecimals) :
    (∃ base, parse text decimals = .ok base) ∨
      ∃ fault, parse text decimals = .error (.invalidAmount text fault) := by
  by_cases spelled : ∃ value, Spells text value
  · obtain ⟨value, spells⟩ := spelled
    rw [parse_of_spells within spells]
    cases Unsigned.ofNat? 128 (unitsOf value decimals) with
    | none => exact .inr ⟨.tooLarge, rfl⟩
    | some base => exact .inl ⟨base, rfl⟩
  · exact .inr (parse_of_not_spells within (not_exists.mp spelled))

/-- A text is read if and only if it spells a value that fits: as the nearest base units, ties up.
Others are invalid. -/
theorem parse_iff_spells (text : String) {decimals : Places}
    (within : decimals.val ≤ maxDecimals) :
    (∀ units : ℕ, (∃ base, parse text decimals = .ok base ∧ base.val = units) ↔
      units ≤ 2 ^ 128 - 1 ∧ ∃ value, Spells text value ∧ units = unitsOf value decimals) ∧
    (∀ base, parse text decimals = .ok base → parseOrZero text decimals = base) ∧
    ((¬∃ base, parse text decimals = .ok base) →
      (∃ fault, parse text decimals = .error (.invalidAmount text fault)) ∧
        parseOrZero text decimals = .zero) := by
  refine ⟨fun units => ⟨?_, ?_⟩, fun base read => ?_, fun unread => ?_⟩
  · rintro ⟨base, read, rfl⟩
    exact ⟨Nat.le_sub_one_of_lt base.val_lt, (parse_eq_ok_iff within).mp read⟩
  · rintro ⟨small, value, spells, same⟩
    have fits : units < Nat.pow 2 128 := Nat.lt_of_le_of_lt small (by decide)
    exact ⟨⟨units, fits⟩, (parse_eq_ok_iff within).mpr ⟨value, spells, same⟩, rfl⟩
  · rw [parseOrZero, read]
  · obtain ⟨fault, failed⟩ := (parse_ok_or_invalid within).resolve_left unread
    exact ⟨⟨fault, failed⟩, by rw [parseOrZero, failed]⟩

/-- Half a base unit is read as one, with a sign and white space. A second point is no amount. -/
theorem parse_iff_spells_half :
    parse " +.0000005\u3000" ⟨6, by decide⟩ = .ok ⟨1, by decide⟩ ∧
      parseOrZero "1.2.3" ⟨6, by decide⟩ = .zero := by
  constructor
  · have split : " +.0000005\u3000".toList =
      [' '] ++ (['+'] ++ '.' :: "0000005".toList) ++ ['\u3000'] := rfl
    have spells : Spells " +.0000005\u3000" (Numeral.value "0000005".toList / 10 ^ 7) :=
      ⟨split, by simp [Text.IsBlank, Text.White], by simp [Text.IsBlank, Text.White], .inr rfl,
        .pointFraction (by decide) (by decide)⟩
    have units : 1 = unitsOf (Numeral.value "0000005".toList / 10 ^ 7) ⟨6, by decide⟩ := by
      have five : Numeral.value "0000005".toList = 5 := by decide
      rw [unitsOf, five, eq_comm, Nat.floor_eq_iff (by positivity)]
      norm_num
    obtain ⟨base, read, one⟩ :=
      ((parse_iff_spells _ (by decide)).1 1).mpr ⟨by decide, _, spells, units⟩
    rw [read]
    exact congrArg Except.ok (Unsigned.ext one)
  · refine ((parse_iff_spells _ (by decide)).2.2 ?_).2
    have failed : parse "1.2.3" ⟨6, by decide⟩ = .error (.invalidAmount "1.2.3" .notANumber) := rfl
    rintro ⟨base, read⟩
    rw [failed] at read
    cases read

end Amount

end Proposal
