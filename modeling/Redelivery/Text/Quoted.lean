import Redelivery.Text.Invisible

/-!
# Quoted text

A text inside a message stands between double quotes.  Quotes and backslashes are
marked by a backslash, the common controls have letters of their own, and what could
not be seen is written as its number.

Main definitions:

* `Quoted.char`: how one character is written.
* `Quoted.write`: the quoted text.
-/

namespace Redelivery
namespace Quoted

/-- The digits of a character's number in base sixteen. -/
def hex (c : Char) : String := String.ofList (Nat.toDigits 16 c.toNat)

/-- How a character is written between quotes. -/
def char (c : Char) : String :=
  if c = '\x00' then "\\0"
  else if c = '\t' then "\\t"
  else if c = '\n' then "\\n"
  else if c = '\r' then "\\r"
  else if c = '"' then "\\\""
  else if c = '\\' then "\\\\"
  else if c.toNat < 0x20 ∨ c.toNat = 0x7f ∨ Invisible.IsInvisible c then
    "\\u\x7b" ++ hex c ++ "\x7d"
  else c.toString

/-- The text between double quotes. -/
def write (s : String) : String :=
  "\"" ++ String.join (s.toList.map char) ++ "\""

end Quoted
end Redelivery
