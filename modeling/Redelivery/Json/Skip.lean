import Redelivery.Json.Scalar

/-!
# Passing over a value

A value that nobody asked for is passed over with a look at its grammar only: numbers
may be too large for a double, and halves of surrogate pairs may stand alone.  Lists
and objects may be nested to any depth, since the ones that are still open are kept on
a list of their own.

Main definitions:

* `Json.skipScalar`: passing over a scalar.
* `Json.skipStep`, `Json.skipValue`: passing over a value, token by token.
-/

namespace Redelivery
namespace Json

/-- Passes over a string after its opening quote. -/
def skipText : List Char → Except Fault (List Char)
  | [] => .error .endInString
  | '\\' :: [] => .error .endInString
  | '\\' :: 'u' :: a :: b :: c :: d :: s =>
      if (hexUnit? a b c d).isSome then skipText s else .error .invalidEscape
  | '\\' :: 'u' :: s => .error (shortUnit s)
  | '\\' :: c :: s => if (escaped? c).isSome then skipText s else .error .invalidEscape
  | c :: s =>
      if c = '"' then .ok s
      else if c.toNat < 0x20 then .error .controlCharacter
      else skipText s

/-- Passes over digits, of which there must be one. -/
def skipDigits (s : List Char) : Except Fault (List Char) :=
  let (digits, rest) := Digits.span s
  if digits.isEmpty then .error .invalidNumber else .ok rest

/-- Passes over an exponent, if there is one. -/
def skipExponent (s : List Char) : Except Fault (List Char) :=
  match s with
  | c :: rest =>
      if c = 'e' ∨ c = 'E' then
        match rest with
        | '-' :: rest => skipDigits rest
        | '+' :: rest => skipDigits rest
        | rest => skipDigits rest
      else .ok s
  | [] => .ok []

/-- Passes over a number after its sign. -/
def skipNumber (s : List Char) : Except Fault (List Char) := do
  let (digits, rest) := Digits.span s
  if digits.isEmpty ∨ (digits.head? = some '0' ∧ 1 < digits.length) then
    throw .invalidNumber
  match rest with
  | '.' :: rest => skipExponent (← skipDigits rest)
  | rest => skipExponent rest

/-- A list or an object that is still open. -/
inductive Open where
  | list
  | object
  deriving DecidableEq, Repr

namespace Open

/-- The character that closes it. -/
def closer : Open → Char
  | list => ']'
  | object => '\x7d'

/-- The fault when the text ends while it is open. -/
def ending : Open → Fault
  | list => .endInList
  | object => .endInObject

/-- The fault when neither a comma nor the closing character follows an element. -/
def separator : Open → Fault
  | list => .expectedCommaOrBracket
  | object => .expectedCommaOrBrace

end Open

/-- Passes over a scalar, or opens a list or an object. -/
def skipToken (s : List Char) : Except Fault (Option Open × List Char) :=
  match s with
  | [] => .error .endInValue
  | 'n' :: rest => (readWord ['u', 'l', 'l'] rest).map fun s => (none, s)
  | 't' :: rest => (readWord ['r', 'u', 'e'] rest).map fun s => (none, s)
  | 'f' :: rest => (readWord ['a', 'l', 's', 'e'] rest).map fun s => (none, s)
  | '-' :: rest => (skipNumber rest).map fun s => (none, s)
  | '"' :: rest => (skipText rest).map fun s => (none, s)
  | '[' :: rest => .ok (some .list, rest)
  | '\x7b' :: rest => .ok (some .object, rest)
  | c :: _ =>
      if Digits.isDigit c then (skipNumber s).map fun s => (none, s) else .error .expectedValue

/-- Passes over the key and the colon of a member. -/
def skipKey (s : List Char) : Except Fault (List Char) :=
  match skipBlanks s with
  | [] => .error .endInObject
  | '"' :: s => do
      match skipBlanks (← skipText s) with
      | [] => throw .endInObject
      | ':' :: s => return s
      | _ => throw .expectedColon
  | _ => .error .keyMustBeString

/-- What a step comes to next: the value of an element, or the end of everything. -/
inductive Skipped where
  | value (opened : List Open) (s : List Char)
  | finished (s : List Char)

/-- Passes over what follows an element of the innermost open list or object: closing
characters, and then a comma and the key of the next member. -/
def skipAfter : List Open → List Char → Except Fault Skipped
  | [], s => .ok (.finished s)
  | inner :: outer, s =>
      match skipBlanks s with
      | [] => .error inner.ending
      | c :: s =>
          if c = ',' then
            match inner with
            | .list => .ok (.value (.list :: outer) s)
            | .object => (skipKey s).map fun s => .value (.object :: outer) s
          else if c = inner.closer then skipAfter outer s
          else .error inner.separator

/-- Passes over what follows an opening character: the closing one, or the key of the
first member. -/
def skipOpened (inner : Open) (outer : List Open) (s : List Char) : Except Fault Skipped :=
  match skipBlanks s with
  | [] => .error inner.ending
  | c :: rest =>
      if c = inner.closer then skipAfter outer rest
      else
        match inner with
        | .list => .ok (.value (.list :: outer) s)
        | .object => (skipKey s).map fun s => .value (.object :: outer) s

/-- Passes over one token where a value is due, and over what follows it. -/
def skipStep (opened : List Open) (s : List Char) : Except Fault Skipped := do
  match ← skipToken (skipBlanks s) with
  | (none, s) => skipAfter opened s
  | (some inner, s) => skipOpened inner opened s

/-- Passes over values as long as some are due, for at most so many tokens. -/
def skipValues (opened : List Open) (s : List Char) : Nat → Except Fault (List Char)
  | 0 => .error .endInValue
  | fuel + 1 => do
      match ← skipStep opened s with
      | .finished s => return s
      | .value opened s => skipValues opened s fuel

/-- Passes over a value; each token takes at least one character. -/
def skipValue (s : List Char) : Except Fault (List Char) :=
  skipValues [] s (s.length + 1)

end Json
end Redelivery
