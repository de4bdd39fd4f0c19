import Redelivery.Binary64.Stepwise
import Redelivery.Json.Fault

/-!
# Reading the scalars of a document

A reader takes the characters that are left and answers with a value and the
characters after it, or with the first fault it meets.

Main definitions:

* `Json.Reader`: what reads a value from the front of a document.
* `Json.skipBlanks`, `Json.readWord`: blanks, and the rest of a word.
* `Json.readText`: a string after its opening quote.
* `Json.readNumber`: a number after its sign.
* `Json.mismatch`: the fault when a value of another type stands in front.
-/

namespace Redelivery
namespace Json

/-- What reads a value from the front of a document. -/
abbrev Reader (α : Type) := List Char → Except Fault (α × List Char)

/-- The four blanks between tokens. -/
def isBlank (c : Char) : Bool := c = ' ' || c = '\n' || c = '\t' || c = '\r'

/-- The document without the blanks in front. -/
def skipBlanks (s : List Char) : List Char := s.dropWhile isBlank

/-- Reads the rest of a word whose first letter has been read. -/
def readWord : List Char → List Char → Except Fault (List Char)
  | [], s => .ok s
  | _ :: _, [] => .error .endInValue
  | w :: word, c :: s => if c = w then readWord word s else .error .expectedIdent

/-! ## Strings -/

/-- The value of a digit in base sixteen. -/
def hexValue? (c : Char) : Option Nat :=
  if '0' ≤ c ∧ c ≤ '9' then some (c.toNat - '0'.toNat)
  else if 'a' ≤ c ∧ c ≤ 'f' then some (c.toNat - 'a'.toNat + 10)
  else if 'A' ≤ c ∧ c ≤ 'F' then some (c.toNat - 'A'.toNat + 10)
  else none

/-- The number that four digits in base sixteen write. -/
def hexUnit? (a b c d : Char) : Option Nat := do
  let a ← hexValue? a
  let b ← hexValue? b
  let c ← hexValue? c
  let d ← hexValue? d
  return ((a * 16 + b) * 16 + c) * 16 + d

/-- What is wrong when fewer than four characters follow `\u`: the text ends, unless
what is left still has the four bytes that were looked for. -/
def shortUnit (s : List Char) : Fault :=
  if (String.ofList s).utf8ByteSize < 4 then .endInString else .invalidEscape

/-- The character that a one-letter escape stands for. -/
def escaped? (c : Char) : Option Char :=
  if c = '"' ∨ c = '\\' ∨ c = '/' then some c
  else if c = 'b' then some '\x08'
  else if c = 'f' then some '\x0c'
  else if c = 'n' then some '\n'
  else if c = 'r' then some '\r'
  else if c = 't' then some '\t'
  else none

/-- What a 16-bit unit does to a text: it is a character, or the first half of one, or
the second half that completes `half`. -/
inductive Joined where
  | char (c : Char)
  | half (unit : Nat)

/-- Joins a unit to the first half of a surrogate pair, if one came before. -/
def joinUnit (half : Option Nat) (unit : Nat) : Except Fault Joined :=
  match half with
  | none =>
      if 0xdc00 ≤ unit ∧ unit < 0xe000 then .error .loneSurrogate
      else if 0xd800 ≤ unit ∧ unit < 0xdc00 then .ok (.half unit)
      else .ok (.char (Char.ofNat unit))
  | some high =>
      if 0xdc00 ≤ unit ∧ unit < 0xe000 then
        .ok (.char (Char.ofNat ((high - 0xd800) * 0x400 + (unit - 0xdc00) + 0x10000)))
      else .error .loneSurrogate

/-- Reads a string after its opening quote, or after the first half of a surrogate
pair inside it. -/
def readChars (half : Option Nat) : List Char → Except Fault (List Char × List Char)
  | [] => .error .endInString
  | '\\' :: [] => .error .endInString
  | '\\' :: 'u' :: a :: b :: c :: d :: s =>
      match hexUnit? a b c d with
      | none => .error .invalidEscape
      | some unit =>
          match joinUnit half unit with
          | .error fault => .error fault
          | .ok (.half high) => readChars (some high) s
          | .ok (.char c) => (readChars none s).map fun (text, s) => (c :: text, s)
  | '\\' :: 'u' :: s => .error (shortUnit s)
  | '\\' :: c :: s =>
      if half.isSome then .error .unfinishedSurrogate
      else
        match escaped? c with
        | none => .error .invalidEscape
        | some c => (readChars none s).map fun (text, s) => (c :: text, s)
  | c :: s =>
      if half.isSome then .error .unfinishedSurrogate
      else if c = '"' then .ok ([], s)
      else if c.toNat < 0x20 then .error .controlCharacter
      else (readChars none s).map fun (text, s) => (c :: text, s)

/-- Reads a string after its opening quote. -/
def readText : Reader String := fun s =>
  (readChars none s).map fun (text, s) => (String.ofList text, s)

/-! ## Numbers -/

/-- A number of a document.  Whole numbers that fit into 64 bits, with or without a
sign, are integers; negative zero is not among them. -/
inductive Number where
  | integer (i : Int)
  | float (x : Binary64)
  deriving DecidableEq

/-- A number with a point or an exponent, or a whole one that is no integer. -/
def floatNumber (negative : Bool) (whole fraction : List Char) (exponent : Int) :
    Except Fault Number :=
  match Binary64.ofDigits? negative whole fraction exponent with
  | none => .error .numberOutOfRange
  | some x => .ok (.float x)

/-- A whole number. -/
def wholeNumber (negative : Bool) (digits : List Char) : Except Fault Number :=
  let n := Digits.value digits
  if negative then
    if 0 < n ∧ n ≤ 2 ^ 63 then .ok (.integer (-n)) else floatNumber negative digits [] 0
  else if n < 2 ^ 64 then .ok (.integer n)
  else floatNumber negative digits [] 0

/-- Reads the digits of an exponent after its sign. -/
def readExponentDigits (s : List Char) : Except Fault (Nat × List Char) :=
  match s with
  | [] => .error .endInValue
  | c :: _ =>
      if Digits.isDigit c then
        let (digits, s) := Digits.span s
        .ok (Digits.value digits, s)
      else .error .invalidNumber

/-- Reads what may follow the digits of a number: an exponent or nothing. -/
def readExponent (s : List Char) : Except Fault (Option Int × List Char) :=
  match s with
  | c :: rest =>
      if c = 'e' ∨ c = 'E' then
        match rest with
        | '-' :: rest => (readExponentDigits rest).map fun (n, s) => (some (-n), s)
        | '+' :: rest => (readExponentDigits rest).map fun (n, s) => (some n, s)
        | rest => (readExponentDigits rest).map fun (n, s) => (some n, s)
      else .ok (none, s)
  | [] => .ok (none, [])

/-- Reads the digits after a point. -/
def readFraction (s : List Char) : Except Fault (List Char × List Char) :=
  let (digits, rest) := Digits.span s
  if digits.isEmpty then
    if rest.isEmpty then .error .endInValue else .error .invalidNumber
  else .ok (digits, rest)

/-- Reads the digits before a point or an exponent; a zero stands alone. -/
def readWhole (s : List Char) : Except Fault (List Char × List Char) :=
  let (digits, rest) := Digits.span s
  if digits.isEmpty then
    if rest.isEmpty then .error .endInValue else .error .invalidNumber
  else if digits.head? = some '0' ∧ 1 < digits.length then .error .invalidNumber
  else .ok (digits, rest)

/-- Reads a number after its sign. -/
def readNumber (negative : Bool) : Reader Number := fun s => do
  let (whole, s) ← readWhole s
  match s with
  | '.' :: s =>
      let (fraction, s) ← readFraction s
      let (exponent, s) ← readExponent s
      let number ← floatNumber negative whole fraction (exponent.getD 0)
      return (number, s)
  | s =>
      let (exponent, s) ← readExponent s
      let number ← match exponent with
        | none => wholeNumber negative whole
        | some e => floatNumber negative whole [] e
      return (number, s)

/-- Reads a number that a sign or a digit announces; `none` if neither is in front. -/
def readNumber? (s : List Char) : Option (Except Fault (Number × List Char)) :=
  match s with
  | '-' :: rest => some (readNumber true rest)
  | c :: _ => if Digits.isDigit c then some (readNumber false s) else none
  | [] => none

/-! ## Values of another type -/

/-- The fault when the value in front, which has no blanks before it, is not of the
expected type.  A scalar is read to the end first, and a fault inside it comes first. -/
def mismatch (expected : String) (s : List Char) : Fault :=
  let of (found : Found) : Fault := .wrongType found expected
  let word (rest word : List Char) (found : Found) : Fault :=
    match readWord word rest with
    | .error fault => fault
    | .ok _ => of found
  match s with
  | 'n' :: rest => word rest ['u', 'l', 'l'] .null
  | 't' :: rest => word rest ['r', 'u', 'e'] (.boolean true)
  | 'f' :: rest => word rest ['a', 'l', 's', 'e'] (.boolean false)
  | '"' :: rest =>
      match readText rest with
      | .error fault => fault
      | .ok (text, _) => of (.string text)
  | '[' :: _ => of .array
  | '\x7b' :: _ => of .object
  | s =>
      match readNumber? s with
      | none => .expectedValue
      | some (.error fault) => fault
      | some (.ok (.integer i, _)) => of (.integer i)
      | some (.ok (.float x, _)) => of (.float x)

/-! ## Typed scalars -/

/-- Reads the value in front by `read`, after the blanks before it. -/
def atValue {α : Type} (read : Reader α) : Reader α := fun s =>
  match skipBlanks s with
  | [] => .error .endInValue
  | s => read s

/-- Reads a whole number from `low` up to, but not including, `high`. -/
def readInteger (low high : Int) (expected : String) : Reader Int := atValue fun s =>
  match readNumber? s with
  | none => .error (mismatch expected s)
  | some (.error fault) => .error fault
  | some (.ok (.integer i, s)) =>
      if low ≤ i ∧ i < high then .ok (i, s) else .error (.wrongRange i expected)
  | some (.ok (.float x, _)) => .error (.wrongType (.float x) expected)

/-- Reads an unsigned number of 32 bits. -/
def readUInt32 : Reader UInt32 := fun s =>
  (readInteger 0 (2 ^ 32) "u32" s).map fun (i, s) => (.ofNat i.toNat, s)

/-- Reads an unsigned number of 64 bits, called `expected` in messages. -/
def readUInt64 (expected : String) : Reader UInt64 := fun s =>
  (readInteger 0 (2 ^ 64) expected s).map fun (i, s) => (.ofNat i.toNat, s)

/-- Reads a signed number of 64 bits. -/
def readInt64 : Reader Int := readInteger (-2 ^ 63) (2 ^ 63) "i64"

/-- Reads a double; whole numbers are doubles too. -/
def readDouble : Reader Binary64 := atValue fun s =>
  match readNumber? s with
  | none => .error (mismatch "f64" s)
  | some (.error fault) => .error fault
  | some (.ok (.integer i, s)) => .ok (.ofRatio (i < 0) i.natAbs 1, s)
  | some (.ok (.float x, s)) => .ok (x, s)

/-- Reads a truth value. -/
def readBool : Reader Bool := atValue fun s =>
  match s with
  | 't' :: rest => (readWord ['r', 'u', 'e'] rest).map fun s => (true, s)
  | 'f' :: rest => (readWord ['a', 'l', 's', 'e'] rest).map fun s => (false, s)
  | s => .error (mismatch "a boolean" s)

/-- Reads a string, and what the string stands for by `interpret`. -/
def readString {α : Type} (expected : String) (interpret : String → Except String α) :
    Reader α := atValue fun s =>
  match s with
  | '"' :: rest => do
      let (text, s) ← readText rest
      match interpret text with
      | .ok a => return (a, s)
      | .error reason => throw (.refused reason)
  | s => .error (mismatch expected s)

/-- Reads `null` or a value. -/
def readOption {α : Type} (read : Reader α) : Reader (Option α) := fun s =>
  match skipBlanks s with
  | 'n' :: rest => (readWord ['u', 'l', 'l'] rest).map fun s => (none, s)
  | _ => (read s).map fun (a, s) => (some a, s)

end Json
end Redelivery
