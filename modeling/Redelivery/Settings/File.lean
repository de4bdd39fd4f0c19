import Redelivery.FileTree
import Redelivery.Settings.Document

/-!
# Settings from a file

Main definitions:

* `Settings.LoadError`: why a file gave no settings.
* `Settings.ofFile`: the settings in the text of a file, or in its absence the reason.
* `Settings.load`: the settings at the end of a path.
-/

namespace Redelivery
namespace Settings

/-- Why a file gave no settings. -/
inductive LoadError where
  | file (path : String) (error : FileError)
  | text (error : ParseError)
  deriving DecidableEq

namespace LoadError

def message : LoadError → String
  | file path error => s!"failed to read config file {path}: " ++ error.message
  | text error => error.message

/-- The error with all that is known about it; of a document that cannot be read, only
that it was the document. -/
def describe : LoadError → String
  | file path error =>
      "Io \x7b path: " ++ Quoted.write path ++ ", source: " ++ error.describe ++ " \x7d"
  | text (.json _) => "Json"
  | text (.invalid problem) => "Invalid(" ++ Quoted.write problem.message ++ ")"

end LoadError

/-- The settings in the text of a file. -/
def ofFile (path : String) (text : Except FileError String) : Except LoadError Settings :=
  match text with
  | .error error => .error (.file path error)
  | .ok text => (parse text).mapError .text

/-- The settings in the file at the end of a path. -/
def load (root : FileTree) (start : List String) (path : String) : Except LoadError Settings :=
  ofFile path (root.text start path)

end Settings
end Redelivery
