/-!
# Digits to the base sixteen

Numbers are written with small letters. A digit is read with a small letter or a capital one.

* `hexDigits` : the digits of a number;
* `hexValue` : the value of a digit;
* `hexValue_digitChar` : a digit is read as it was written, in either kind of letter.
-/

namespace DagScaffold.Text

/-- The digits of `n` to the base sixteen in small letters, without leading zeros. -/
def hexDigits (n : Nat) : List Char :=
  Nat.toDigits 16 n

/-- The value of a digit to the base sixteen. -/
def hexValue (c : Char) : Option Nat :=
  if '0' ≤ c && c ≤ '9' then some (c.toNat - '0'.toNat)
  else if 'a' ≤ c && c ≤ 'f' then some (c.toNat - 'a'.toNat + 10)
  else if 'A' ≤ c && c ≤ 'F' then some (c.toNat - 'A'.toNat + 10)
  else none

/-- The digit of a number below sixteen has that number as its value, whether its letter is a small
or a capital one. -/
theorem hexValue_digitChar {d : Nat} (hd : d < 16) :
    hexValue d.digitChar = some d ∧ hexValue d.digitChar.toUpper = some d := by
  have hall : ∀ k : Fin 16, hexValue (Nat.digitChar k) = some k.val ∧
      hexValue (Nat.digitChar k).toUpper = some k.val := by decide
  exact hall ⟨d, hd⟩

end DagScaffold.Text
