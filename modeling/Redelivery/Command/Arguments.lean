import Redelivery.Binary64.Literal

/-!
# The arguments of the command

Every option has a name of its own after two dashes, and a value: after an equals sign,
or as the next argument unless that begins with a dash.  An option may be given once.

Main definitions:

* `Command.Options`, `Command.Request`: what may be asked of the command.
* `Command.Argument.ofText`: the form of a single argument.
* `Command.Draft.set`: an option takes its value.
* `Command.parse`: reads all arguments.
-/

namespace Redelivery
namespace Command

/-- How the command runs. -/
structure Options where
  /-- The file with the settings. -/
  config : Option String
  /-- How many batches are produced. -/
  batches : UInt64
  /-- How many parts each batch has. -/
  parts : UInt64
  /-- The probability that a single part fails. -/
  failureRate : Binary64
  /-- How many milliseconds the processing of a batch takes. -/
  workMillis : UInt64

/-- Twenty batches of three parts, three of ten of which fail. -/
def Options.default : Options := ⟨none, 20, 3, .ofRatio false 3 10, 5⟩

/-- What is asked of the command. -/
inductive Request where
  | version
  | help
  | run (options : Options)

/-- An option of the command. -/
inductive OptionName where
  | config
  | batches
  | parts
  | failureRate
  | workMillis
  deriving DecidableEq, Repr

/-- The option with a name. -/
def OptionName.ofText? : String → Option OptionName
  | "config" => some .config
  | "batches" => some .batches
  | "parts" => some .parts
  | "failure-rate" => some .failureRate
  | "work-ms" => some .workMillis
  | _ => none

/-! ## Single arguments -/

/-- The form of an argument. -/
inductive Argument where
  /-- Two dashes: no options come after them. -/
  | stop
  /-- A name after two dashes, and the value after an equals sign. -/
  | named (name : String) (value : Option String)
  /-- Letters after one dash. -/
  | letters (first : Char) (rest : List Char)
  /-- A text that is no option. -/
  | text (text : String)

namespace Argument

/-- A name with the value behind an equals sign, if there is one. -/
def ofName (s : List Char) : Argument :=
  let name := String.ofList (s.takeWhile (· ≠ '='))
  match s.dropWhile (· ≠ '=') with
  | [] => .named name none
  | _ :: value => .named name (some (String.ofList value))

/-- The form of an argument. -/
def ofText (text : String) : Argument :=
  match text.toList with
  | ['-', '-'] => .stop
  | '-' :: '-' :: name => ofName name
  | '-' :: letter :: rest => .letters letter rest
  | _ => .text text

end Argument

/-- The number of 64 bits without a sign that a text writes; a plus may stand in front. -/
def natural? (text : String) : Option UInt64 :=
  let s := match text.toList with
    | '+' :: s => s
    | s => s
  let (digits, rest) := Digits.span s
  let n := Digits.value digits
  if !digits.isEmpty && rest.isEmpty && n < 2 ^ 64 then some (.ofNat n) else none

/-! ## All arguments -/

/-- What was read so far: the options, and which of them were given. -/
structure Draft where
  options : Options
  given : List OptionName

namespace Draft

/-- Nothing was read. -/
def empty : Draft := ⟨.default, []⟩

/-- The options with a value for one of them; `none` if that option takes no such
value. -/
def update (options : Options) (value : String) : OptionName → Option Options
  | .config => if value = "" then none else some { options with config := some value }
  | .batches => (natural? value).map fun n => { options with batches := n }
  | .parts => (natural? value).map fun n => { options with parts := n }
  | .failureRate => (Binary64.parse? value).map fun x => { options with failureRate := x }
  | .workMillis => (natural? value).map fun n => { options with workMillis := n }

/-- An option takes its value, unless it has one already. -/
def set (draft : Draft) (name : OptionName) (value : String) : Option Draft :=
  if name ∈ draft.given then none
  else (update draft.options value name).map fun options => ⟨options, name :: draft.given⟩

end Draft

/-- Reads the arguments that are left; an option that is `waiting` takes the first of
them as its value.  `none` if the command cannot be used in this way. -/
def parseFrom (waiting : Option OptionName) (draft : Draft) : List String → Option Request
  | [] => if waiting.isSome then none else some (.run draft.options)
  | argument :: rest =>
      match Argument.ofText argument, waiting with
      | .text value, some name => (draft.set name value).bind (parseFrom none · rest)
      | _, some _ => none
      | .text _, none => none
      | .stop, none => if rest.isEmpty then some (.run draft.options) else none
      | .letters letter _, none =>
          if letter = 'V' then some .version
          else if letter = 'h' then some .help
          else none
      | .named name value, none =>
          match OptionName.ofText? name, value with
          | some name, some value => (draft.set name value).bind (parseFrom none · rest)
          | some name, none => parseFrom (some name) draft rest
          | none, some _ => none
          | none, none =>
              if name = "version" then some .version
              else if name = "help" then some .help
              else none

/-- Reads all arguments. -/
def parse (arguments : List String) : Option Request := parseFrom none .empty arguments

end Command
end Redelivery
