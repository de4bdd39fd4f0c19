import Redelivery.Command.Chance
import Redelivery.Command.Run

/-!
# The command

The command reads its arguments and, if one is given, the file with the settings, and
prints the summary of the run.

Main definitions:

* `Redelivery.Command.execute`: the command.
-/

namespace Redelivery
namespace Command

/-- The name and the version of the command. -/
def versionText : String := "keeper 0.1.0"

/-- How the command is used. -/
def helpText : String := "\n".intercalate [
  "Feeds a flaky processor through a redelivery layer and reports what happened.",
  "",
  "Usage: keeper [OPTIONS]",
  "",
  "Options:",
  "      --config <CONFIG>              Settings in a JSON file; defaults apply when omitted",
  "      --batches <BATCHES>            Number of batches to produce [default: 20]",
  "      --parts <PARTS>                Parts per batch [default: 3]",
  "      --failure-rate <FAILURE_RATE>  Probability that a single part fails [default: 0.3]",
  "      --work-ms <WORK_MS>            Processing time per batch, in milliseconds [default: 5]",
  "  -h, --help                         Print help",
  "  -V, --version                      Print version"]

/-- The error of a file by the number that the operating system gives it. -/
def fileErrorOfCode? (code : UInt32) : Option FileError :=
  let code := if code < 0x80000000 then code else 0 - code
  [FileError.notFound, .permissionDenied, .notDirectory, .isDirectory, .nameTooLong].find?
    fun error => error.system?.any fun (number, _) => number = code.toNat

/-- The error of a file, if it is one that is known. -/
def fileError? : IO.Error → Option FileError
  | .noFileOrDirectory _ code _ => fileErrorOfCode? code
  | .permissionDenied _ code _ => fileErrorOfCode? code
  | .inappropriateType _ code _ => fileErrorOfCode? code
  | .invalidArgument _ code _ => fileErrorOfCode? code
  | _ => none

/-- Reads a file as text. -/
def readText (path : String) : IO (Except FileError String) := do
  match ← (IO.FS.readBinFile path).toBaseIO with
  | .ok bytes => return FileTree.asText bytes.toList
  | .error error =>
      match fileError? error with
      | some error => return .error error
      | none => throw error

/-- Lets a consumer go on until it has ended. -/
partial def finish {options : Options} {settings : Settings} {draws : Nat → UInt64}
    (run : Run options settings draws) : IO Summary :=
  match summary? run with
  | some summary => return summary
  | none =>
      if run.ended then throw (.userError "the consumer broke off")
      else finish (goOn run)

/-- Runs the command as it was asked to. -/
def run (options : Options) : IO (Except Refusal Summary) := do
  match accept options with
  | .error refusal => return .error refusal
  | .ok options =>
      let file ← options.config.mapM fun path => return (path, ← readText path)
      match configure file with
      | .error refusal => return .error refusal
      | .ok settings =>
          let seed ← IO.rand 0 (2 ^ 62)
          return .ok (← finish (start options settings (draw (.ofNat seed))))

/-- The command. -/
def execute (arguments : List String) : IO UInt32 := do
  let result ← match parse arguments with
    | none => pure (.error .usage)
    | some .version => return ← (do IO.println versionText; return 0)
    | some .help => return ← (do IO.println helpText; return 0)
    | some (.run options) => run options
  match result with
  | .ok summary =>
      IO.println summary.toJson.writeIndented
      return 0
  | .error refusal =>
      IO.eprintln (refusal.line?.getD helpText)
      return refusal.exitCode.toUInt32

end Command
end Redelivery

/-- Runs the command with the arguments of the process. -/
def main (arguments : List String) : IO UInt32 := Redelivery.Command.execute arguments
