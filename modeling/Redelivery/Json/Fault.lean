import Redelivery.Binary64.Decimal
import Redelivery.Text.Quoted

/-!
# Faults of a JSON document

A document is read from left to right, and the first thing that is wrong with it is
reported.  Faults fall into three categories: the text ends too early, the text is no
JSON, or the JSON is not what was asked for.

Main definitions:

* `Json.Found`: what stands where something else was asked for.
* `Json.Fault`, `Json.Fault.category`, `Json.Fault.message`: the faults.
-/

namespace Redelivery
namespace Json

/-- What stands in the document where something else was asked for. -/
inductive Found where
  | null
  | boolean (b : Bool)
  | integer (i : Int)
  | float (x : Binary64)
  | string (s : String)
  | array
  | object
  deriving DecidableEq

/-- A double inside a message: exponents from `e+16` up and from `e-6` down, and a
whole number ends in `.0`. -/
def floatLayout : Binary64.Layout where
  positional power := -5 ≤ power && power ≤ 15
  wholeEnd := ".0"
  exponentMark := "e+"
  tieUp := false

namespace Found

def message : Found → String
  | null => "null"
  | boolean b => s!"boolean `{b}`"
  | integer i => s!"integer `{i}`"
  | float x => "floating point `" ++ floatLayout.write x ++ "`"
  | string s => "string " ++ Quoted.write s
  | array => "sequence"
  | object => "map"

end Found

/-- The kinds of fault. -/
inductive Category where
  | ending
  | grammar
  | data
  deriving DecidableEq, Repr

/-- What is wrong with a document. -/
inductive Fault where
  /-- The text ends where a value is due or inside one. -/
  | endInValue
  | endInList
  | endInObject
  | endInString
  | expectedValue
  /-- A word that begins like `null`, `true` or `false` goes on differently. -/
  | expectedIdent
  | expectedColon
  | expectedCommaOrBrace
  | expectedCommaOrBracket
  | keyMustBeString
  | trailingComma
  | trailingCharacters
  | invalidNumber
  | numberOutOfRange
  | invalidEscape
  | controlCharacter
  /-- A surrogate that has no first half, or a first half followed by no second one. -/
  | loneSurrogate
  /-- The first half of a surrogate pair is not followed by an escape. -/
  | unfinishedSurrogate
  | missingField (name : String)
  | duplicateField (name : String)
  | wrongType (found : Found) (expected : String)
  | wrongRange (found : Int) (expected : String)
  | wrongLength (length : Nat) (expected : String)
  /-- The value has the right type, and its own reader refuses it. -/
  | refused (reason : String)
  deriving DecidableEq

namespace Fault

def category : Fault → Category
  | endInValue | endInList | endInObject | endInString => .ending
  | expectedValue | expectedIdent | expectedColon | expectedCommaOrBrace
  | expectedCommaOrBracket | keyMustBeString | trailingComma | trailingCharacters
  | invalidNumber | numberOutOfRange | invalidEscape | controlCharacter
  | loneSurrogate | unfinishedSurrogate => .grammar
  | missingField _ | duplicateField _ | wrongType _ _ | wrongRange _ _
  | wrongLength _ _ | refused _ => .data

def message : Fault → String
  | endInValue => "EOF while parsing a value"
  | endInList => "EOF while parsing a list"
  | endInObject => "EOF while parsing an object"
  | endInString => "EOF while parsing a string"
  | expectedValue => "expected value"
  | expectedIdent => "expected ident"
  | expectedColon => "expected `:`"
  | expectedCommaOrBrace => "expected `,` or `\x7d`"
  | expectedCommaOrBracket => "expected `,` or `]`"
  | keyMustBeString => "key must be a string"
  | trailingComma => "trailing comma"
  | trailingCharacters => "trailing characters"
  | invalidNumber => "invalid number"
  | numberOutOfRange => "number out of range"
  | invalidEscape => "invalid escape"
  | controlCharacter => "control character (\\u0000-\\u001F) found while parsing a string"
  | loneSurrogate => "lone leading surrogate in hex escape"
  | unfinishedSurrogate => "unexpected end of hex escape"
  | missingField name => s!"missing field `{name}`"
  | duplicateField name => s!"duplicate field `{name}`"
  | wrongType found expected =>
      "invalid type: " ++ found.message ++ ", expected " ++ expected
  | wrongRange found expected => s!"invalid value: integer `{found}`, expected {expected}"
  | wrongLength length expected => s!"invalid length {length}, expected {expected}"
  | refused reason => reason

end Fault

end Json
end Redelivery
