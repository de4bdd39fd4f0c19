import Redelivery.Json.Fault

/-!
# Writing documents

Main definitions:

* `Json.Value`: what can be written; the members of an object keep their order.
* `Json.Value.write`: the text on one line, without blanks.
* `Json.Value.writeIndented`: the text with a line for each member.
-/

namespace Redelivery
namespace Json

/-- A value to be written. -/
inductive Value where
  | null
  | boolean (b : Bool)
  | integer (i : Int)
  | float (x : Binary64)
  | string (s : String)
  | object (members : List (String × Value))

namespace Value

/-- The escape of a character inside a string: a letter for the common controls and
four digits for the others. -/
def escape (c : Char) : String :=
  if c = '"' then "\\\""
  else if c = '\\' then "\\\\"
  else if c = '\x08' then "\\b"
  else if c = '\x0c' then "\\f"
  else if c = '\n' then "\\n"
  else if c = '\r' then "\\r"
  else if c = '\t' then "\\t"
  else if c.toNat < 0x20 then
    "\\u00" ++ (if c.toNat < 0x10 then "0" else "") ++ Quoted.hex c
  else c.toString

/-- A string between its quotes. -/
def quote (s : String) : String := "\"" ++ String.join (s.toList.map escape) ++ "\""

/-- The text of a double; what is not finite is written as `null`. -/
def number (x : Binary64) : String := if x.isFinite then floatLayout.write x else "null"

mutual

/-- The text of a value without blanks. -/
def write : Value → String
  | null => "null"
  | boolean b => toString b
  | integer i => toString i
  | float x => number x
  | string s => quote s
  | object members => "\x7b" ++ writeMembers members ++ "\x7d"

/-- The members of an object, separated by commas. -/
def writeMembers : List (String × Value) → String
  | [] => ""
  | [(name, value)] => quote name ++ ":" ++ value.write
  | (name, value) :: rest => quote name ++ ":" ++ value.write ++ "," ++ writeMembers rest

end

/-- The blanks in front of a line. -/
def indent (depth : Nat) : String := String.ofList (List.replicate (2 * depth) ' ')

mutual

/-- The text of a value inside so many objects, each member on a line of its own. -/
def writeAt (depth : Nat) : Value → String
  | object [] => "\x7b\x7d"
  | object members =>
      "\x7b\n" ++ writeLines (depth + 1) members ++ "\n" ++ indent depth ++ "\x7d"
  | null => "null"
  | boolean b => toString b
  | integer i => toString i
  | float x => number x
  | string s => quote s

/-- The members of an object, one to a line. -/
def writeLines (depth : Nat) : List (String × Value) → String
  | [] => ""
  | [(name, value)] => indent depth ++ quote name ++ ": " ++ value.writeAt depth
  | (name, value) :: rest =>
      indent depth ++ quote name ++ ": " ++ value.writeAt depth ++ ",\n" ++
        writeLines depth rest

end

/-- The text of a value with a line for each member. -/
def writeIndented (value : Value) : String := value.writeAt 0

end Value

end Json
end Redelivery
