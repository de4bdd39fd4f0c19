import Redelivery.Json.Record
import Redelivery.Json.Value

/-!
# Identifiers

An identifier is a number of 128 bits, written as 26 characters of an alphabet that
leaves out the letters easily mistaken for digits, five bits to a character.  What it
identifies stands before it as a word and a dash.

Main definitions:

* `Identifier`, `Identifier.write`, `Identifier.parse`: the numbers and their text.
* `Identifier.Kind`: what an identifier stands for.
* `Identifier.numbered`: distinct identifiers, one for each natural number below
  `2 ^ 80`.
-/

namespace Redelivery

/-- A number of 128 bits. -/
structure Identifier where
  value : BitVec 128
  deriving DecidableEq, Repr

namespace Identifier

/-- The characters for the numbers from 0 to 31. -/
def alphabet : List Char := "0123456789ABCDEFGHJKMNPQRSTVWXYZ".toList

/-- How many characters an identifier is written with. -/
def width : Nat := 26

/-- The character for five bits. -/
def symbol (n : Nat) : Char := alphabet.getD n '0'

/-- The number of a character, which may also be a small letter. -/
def symbolValue? (c : Char) : Option Nat := alphabet.findIdx? (· = c.toUpper)

/-- The last `n` characters of a number's text. -/
def symbols (value : Nat) : Nat → List Char
  | 0 => []
  | n + 1 => symbols (value / 32) n ++ [symbol (value % 32)]

/-- The 26 characters of an identifier. -/
def write (id : Identifier) : String := String.ofList (symbols id.value.toNat width)

/-- Why a text is no identifier. -/
inductive Fault where
  | invalidLength
  | invalidCharacter
  deriving DecidableEq, Repr

def Fault.message : Fault → String
  | invalidLength => "invalid length"
  | invalidCharacter => "invalid character"

/-- The number that some characters write, or `none` if one is not in the alphabet. -/
def number? (text : List Char) : Option Nat :=
  (text.mapM symbolValue?).map fun digits => digits.foldl (fun n d => n * 32 + d) 0

/-- Reads an identifier; bits beyond the 128th are dropped. -/
def parse (text : String) : Except Fault Identifier :=
  if text.utf8ByteSize ≠ width then .error .invalidLength
  else
    match number? text.toList with
    | none => .error .invalidCharacter
    | some n => .ok ⟨BitVec.ofNat 128 n⟩

/-- The order of identifiers is that of their numbers. -/
def compare (x y : Identifier) : Ordering := Ord.compare x.value.toNat y.value.toNat

/-- The identifier made as the `n`-th one at some millisecond. -/
def numbered (millis n : Nat) : Identifier := ⟨BitVec.ofNat 128 (millis * 2 ^ 80 + n)⟩

/-- What an identifier stands for. -/
inductive Kind where
  | group
  | batch
  deriving DecidableEq, Repr

/-- The word before an identifier. -/
def Kind.label : Kind → String
  | group => "group-"
  | batch => "batch-"

/-- The identifier after the word for its kind. -/
def display (kind : Kind) (id : Identifier) : String := kind.label ++ id.write

/-- The text is a kind's word and 26 characters of the alphabet. -/
def isDisplay (kind : Kind) (text : String) : Bool :=
  let label := kind.label.toList
  let rest := text.toList.drop label.length
  text.toList.take label.length = label && rest.length = width &&
    rest.all (alphabet.contains ·)

/-! ## The document form -/

/-- The field of an identifier's document. -/
def field : Json.Field (Option Identifier) where
  name := "ulid"
  required := true
  present draft := draft.isSome
  read _ s :=
    (Json.readString "a string" (fun text => (parse text).mapError (·.message)) s).map
      fun (id, s) => (some id, s)

/-- How an identifier is read from a document. -/
def record : Json.Record (Option Identifier) where
  name := "struct Id"
  fields := [field]
  empty := none

/-- Reads a whole document. -/
def parseJson (text : String) : Except Json.Fault Identifier :=
  (Json.parse record.read text).map (·.getD ⟨0⟩)

/-- The document form. -/
def toJson (id : Identifier) : Json.Value := .object [("ulid", .string id.write)]

end Identifier

end Redelivery
