import Redelivery.Json.Skip

/-!
# Reading records

A record has named fields in a fixed order.  It is written as an object, whose members
may come in any order among members that nobody asked for, or as a list of the fields'
values.  Reading fills a draft, in which every field may still be missing.

Main definitions:

* `Json.Field`: a field's name, and how its value is put into a draft.
* `Json.Record`, `Json.Record.read`: reading a record in either form.
* `Json.parse`: reading a whole document.
-/

namespace Redelivery
namespace Json

/-- A field of a record that is read into a draft of type `δ`. -/
structure Field (δ : Type) where
  name : String
  /-- A record without the field is refused. -/
  required : Bool
  /-- The draft has a value for the field. -/
  present : δ → Bool
  /-- Reads the field's value into the draft. -/
  read : δ → Reader δ

/-- How a record is read. -/
structure Record (δ : Type) where
  /-- What messages call the record. -/
  name : String
  /-- The fields in the order of the list form. -/
  fields : List (Field δ)
  /-- The draft in which every field is missing. -/
  empty : δ

namespace Record

variable {δ : Type}

/-- What messages call a list of the right length. -/
def sized (record : Record δ) : String :=
  let n := record.fields.length
  s!"{record.name} with {n} element" ++ if n = 1 then "" else "s"

/-! ## The list form -/

/-- The document at the next element of a list, or `none` at its end.  The first
element has no comma before it. -/
def element? (first : Bool) (s : List Char) : Except Fault (Option (List Char)) :=
  match skipBlanks s with
  | [] => .error .endInList
  | ']' :: _ => .ok none
  | c :: rest =>
      if first then .ok (some (c :: rest))
      else if c = ',' then
        match skipBlanks rest with
        | [] => .error .endInValue
        | ']' :: _ => .error .trailingComma
        | rest => .ok (some rest)
      else .error .expectedCommaOrBracket

/-- Reads the values of fields, the first of them at place `index`.  A list may end
before fields that are not required. -/
def readElements (record : Record δ) (index : Nat) :
    List (Field δ) → δ → Reader δ
  | [], draft, s => .ok (draft, s)
  | field :: fields, draft, s => do
      match ← element? (index = 0) s with
      | some s =>
          let (draft, s) ← field.read draft s
          record.readElements (index + 1) fields draft s
      | none =>
          if field.required then throw (.wrongLength index record.sized)
          else record.readElements (index + 1) fields draft s

/-- Reads the end of a list whose elements have all been read. -/
def closeList (s : List Char) : Except Fault (List Char) :=
  match skipBlanks s with
  | [] => .error .endInList
  | ']' :: s => .ok s
  | ',' :: s =>
      match skipBlanks s with
      | ']' :: _ => .error .trailingComma
      | _ => .error .trailingCharacters
  | _ => .error .trailingCharacters

/-- Reads the list form after its opening bracket. -/
def readList (record : Record δ) : Reader δ := fun s => do
  let (draft, s) ← record.readElements 0 record.fields record.empty s
  return (draft, ← closeList s)

/-! ## The object form -/

/-- The document after the opening quote of the next key, or after the end of the
object. -/
inductive NextKey where
  | key (s : List Char)
  | finished (s : List Char)

/-- Goes to the next key of an object.  The first one has no comma before it. -/
def nextKey (first : Bool) (s : List Char) : Except Fault NextKey :=
  match skipBlanks s with
  | [] => .error .endInObject
  | '\x7d' :: s => .ok (.finished s)
  | c :: s =>
      if first then
        if c = '"' then .ok (.key s) else .error .keyMustBeString
      else if c = ',' then
        match skipBlanks s with
        | [] => .error .endInValue
        | '"' :: s => .ok (.key s)
        | '\x7d' :: _ => .error .trailingComma
        | _ => .error .keyMustBeString
      else .error .expectedCommaOrBrace

/-- Reads the colon between a key and its value. -/
def readColon (s : List Char) : Except Fault (List Char) :=
  match skipBlanks s with
  | [] => .error .endInObject
  | ':' :: s => .ok s
  | _ => .error .expectedColon

/-- Reads the member whose key has been read. -/
def readMember (record : Record δ) (key : String) (draft : δ) : Reader δ := fun s => do
  match record.fields.find? (·.name = key) with
  | some field =>
      if field.present draft then throw (.duplicateField key)
      field.read draft (← readColon s)
  | none => return (draft, ← skipValue (← readColon s))

/-- Reads the members that are left of an object, at most so many. -/
def readMembers (record : Record δ) (first : Bool) (draft : δ) (s : List Char) :
    Nat → Except Fault (δ × List Char)
  | 0 => .error .endInObject
  | fuel + 1 => do
      match ← nextKey first s with
      | .finished s => return (draft, s)
      | .key s =>
          let (key, s) ← readText s
          let (draft, s) ← record.readMember key draft s
          record.readMembers false draft s fuel

/-- The first field that is required and missing. -/
def missing? (record : Record δ) (draft : δ) : Option (Field δ) :=
  record.fields.find? fun field => field.required && !field.present draft

/-- Reads the object form after its opening brace; each member takes at least one
character. -/
def readObject (record : Record δ) : Reader δ := fun s => do
  let (draft, s) ← record.readMembers true record.empty s (s.length + 1)
  match record.missing? draft with
  | some field => throw (.missingField field.name)
  | none => return (draft, s)

/-- Reads a record in either form. -/
def read (record : Record δ) : Reader δ := atValue fun s =>
  match s with
  | '[' :: s => record.readList s
  | '\x7b' :: s => record.readObject s
  | s => .error (mismatch record.name s)

end Record

/-- Reads a whole document: one value with nothing but blanks after it. -/
def parse {α : Type} (read : Reader α) (text : String) : Except Fault α := do
  let (a, s) ← read text.toList
  if (skipBlanks s).isEmpty then return a else throw .trailingCharacters

end Json
end Redelivery
