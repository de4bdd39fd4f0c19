import Redelivery.Natural

/-!
# Decimal digits

Main definitions:

* `Digits.isDigit`: the ten digits.
* `Digits.span`: the digits in front of a text.
* `Digits.value`: the number that digits write.
-/

namespace Redelivery
namespace Digits

/-- The character is one of the ten digits. -/
def isDigit (c : Char) : Bool := '0' ≤ c && c ≤ '9'

/-- The digits in front, and the text after them. -/
def span (s : List Char) : List Char × List Char := (s.takeWhile isDigit, s.dropWhile isDigit)

/-- The number that digits write, as the digits of a number already read go on. -/
def valueFrom (n : Nat) (digits : List Char) : Nat :=
  digits.foldl (fun n c => 10 * n + (c.toNat - '0'.toNat)) n

/-- The number that digits write. -/
def value (digits : List Char) : Nat := valueFrom 0 digits

end Digits
end Redelivery
