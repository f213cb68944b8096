import Mathlib.Tactic
import Proposal.Text

namespace Proposal

namespace Base64

private theorem six?_digit {six : Nat} (small : six < 64) : six? (digit six) = some six := by
  have table : ∀ six < 64, six? (digit six) = some six := by decide
  exact table six small

private theorem digit_ne_pad {six : Nat} (small : six < 64) : digit six ≠ '=' := by
  have table : ∀ six < 64, digit six ≠ '=' := by decide
  exact table six small

private theorem byte_of_parts (byte : UInt8) {number : Nat} (same : number = byte.toNat) :
    UInt8.ofNat number = byte := by
  rw [same, UInt8.ofNat_toNat]

private theorem lastOne?_digits (a : UInt8) :
    lastOne? (digit (a.toNat / 4)) (digit (a.toNat % 4 * 16)) = some [a] := by
  have bound := a.toNat_lt
  have high : six? (digit (a.toNat / 4)) = some (a.toNat / 4) := six?_digit (by omega)
  have low : six? (digit (a.toNat % 4 * 16)) = some (a.toNat % 4 * 16) := six?_digit (by omega)
  have whole : a.toNat / 4 * 4 + a.toNat % 4 * 16 / 16 = a.toNat := by omega
  have clean : a.toNat % 4 * 16 % 16 = 0 := by omega
  simp only [lastOne?, high, low, Option.bind_eq_bind, Option.bind_some, clean, ↓reduceIte,
    byte_of_parts a whole]

private theorem lastTwo?_digits (a b : UInt8) :
    lastTwo? (digit (a.toNat / 4)) (digit (a.toNat % 4 * 16 + b.toNat / 16))
      (digit (b.toNat % 16 * 4)) = some [a, b] := by
  have aBound := a.toNat_lt
  have bBound := b.toNat_lt
  have high : six? (digit (a.toNat / 4)) = some (a.toNat / 4) := six?_digit (by omega)
  have middle : six? (digit (a.toNat % 4 * 16 + b.toNat / 16)) =
      some (a.toNat % 4 * 16 + b.toNat / 16) := six?_digit (by omega)
  have low : six? (digit (b.toNat % 16 * 4)) = some (b.toNat % 16 * 4) := six?_digit (by omega)
  have first : a.toNat / 4 * 4 + (a.toNat % 4 * 16 + b.toNat / 16) / 16 = a.toNat := by omega
  have second : (a.toNat % 4 * 16 + b.toNat / 16) % 16 * 16 + b.toNat % 16 * 4 / 4 = b.toNat := by
    omega
  have clean : b.toNat % 16 * 4 % 4 = 0 := by omega
  simp only [lastTwo?, high, middle, low, Option.bind_eq_bind, Option.bind_some, clean, ↓reduceIte,
    byte_of_parts a first, byte_of_parts b second]

private theorem group?_digits (a b c : UInt8) :
    group? (digit (a.toNat / 4)) (digit (a.toNat % 4 * 16 + b.toNat / 16))
      (digit (b.toNat % 16 * 4 + c.toNat / 64)) (digit (c.toNat % 64)) = some [a, b, c] := by
  have aBound := a.toNat_lt
  have bBound := b.toNat_lt
  have cBound := c.toNat_lt
  have one : six? (digit (a.toNat / 4)) = some (a.toNat / 4) := six?_digit (by omega)
  have two : six? (digit (a.toNat % 4 * 16 + b.toNat / 16)) =
      some (a.toNat % 4 * 16 + b.toNat / 16) := six?_digit (by omega)
  have three : six? (digit (b.toNat % 16 * 4 + c.toNat / 64)) =
      some (b.toNat % 16 * 4 + c.toNat / 64) := six?_digit (by omega)
  have four : six? (digit (c.toNat % 64)) = some (c.toNat % 64) := six?_digit (by omega)
  have first : a.toNat / 4 * 4 + (a.toNat % 4 * 16 + b.toNat / 16) / 16 = a.toNat := by omega
  have second : (a.toNat % 4 * 16 + b.toNat / 16) % 16 * 16 +
      (b.toNat % 16 * 4 + c.toNat / 64) / 4 = b.toNat := by omega
  have third : (b.toNat % 16 * 4 + c.toNat / 64) % 4 * 64 + c.toNat % 64 = c.toNat := by omega
  simp only [group?, one, two, three, four, Option.bind_eq_bind, Option.bind_some,
    byte_of_parts a first, byte_of_parts b second, byte_of_parts c third]

/-- Reading undoes writing. The groups of four characters follow the groups of three bytes. -/
theorem decode?_encode (bytes : List UInt8) : decode? (encode bytes) = some bytes := by
  fun_induction encode bytes with
  | case1 => rfl
  | case2 a => simp [decode?, lastOne?_digits]
  | case3 a b =>
    have notPad : digit (b.toNat % 16 * 4) ≠ '=' := digit_ne_pad (by omega)
    simp [decode?, notPad, lastTwo?_digits]
  | case4 a b c rest ih =>
    have notPad : digit (c.toNat % 64) ≠ '=' := digit_ne_pad (by omega)
    simp [decode?, notPad, group?_digits, ih]

end Base64

namespace Payload

theorem ofBase64?_base64 (payload : Payload) : ofBase64? payload.base64 = some payload := by
  simp [ofBase64?, base64, Base64.decode?_encode]

end Payload

end Proposal
