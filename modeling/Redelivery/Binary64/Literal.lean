import Redelivery.Binary64.Decimal
import Redelivery.Text.Digits

/-!
# Reading a double from a text of its own

A number is written with digits, a point somewhere among them or at either end of them,
and possibly a power of ten; infinity and the result of a meaningless operation are
written by name, in small or capital letters.  A sign may stand in front.

Main definitions:

* `Binary64.Literal.number?`, `Binary64.Literal.named?`: the two ways to write one.
* `Binary64.parse?`: the double that a text writes.
-/

namespace Redelivery
namespace Binary64
namespace Literal

/-- Takes the sign in front, and says whether it is negative. -/
def splitSign : List Char → Bool × List Char
  | '-' :: s => (true, s)
  | '+' :: s => (false, s)
  | s => (false, s)

/-- What is written by name. -/
def named? (negative : Bool) (s : List Char) : Option Binary64 :=
  let name := String.ofList (s.map Char.toLower)
  if name = "nan" then some .nan
  else if name = "inf" ∨ name = "infinity" then some (.infinite negative)
  else none

/-- The power of ten that ends a number; nothing stands for the power zero. -/
def exponent? : List Char → Option Int
  | [] => some 0
  | c :: s =>
      let (negative, s) := splitSign s
      let (digits, rest) := Digits.span s
      if (c = 'e' || c = 'E') && !digits.isEmpty && rest.isEmpty then
        some (if negative then -(Digits.value digits : Int) else Digits.value digits)
      else none

/-- Takes the digits after a point, if there is one. -/
def splitFraction : List Char → List Char × List Char
  | '.' :: s => Digits.span s
  | s => ([], s)

/-- What is written with digits. -/
def number? (negative : Bool) (s : List Char) : Option Binary64 :=
  let (whole, s) := Digits.span s
  let (fraction, s) := splitFraction s
  if whole.isEmpty && fraction.isEmpty then none
  else (exponent? s).map fun exponent =>
    ofDecimal negative (Digits.value (whole ++ fraction)) (exponent - fraction.length)

end Literal

/-- The double that a text writes. -/
def parse? (text : String) : Option Binary64 :=
  let (negative, s) := Literal.splitSign text.toList
  (Literal.number? negative s).or (Literal.named? negative s)

end Binary64
end Redelivery
