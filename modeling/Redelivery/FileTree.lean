import Redelivery.Text.Quoted
import Redelivery.Text.Utf8

/-!
# Reading a file by its path

A path is followed through a tree of directories, from the root or from the directory
that relative paths start in.

Main definitions:

* `FileError`: why a file could not be read.
* `FileTree`, `FileTree.contents`: a tree, and the bytes at the end of a path.
* `FileTree.text`: the same as text.
-/

namespace Redelivery

/-- Why a file could not be read. -/
inductive FileError where
  | notFound
  | permissionDenied
  | notDirectory
  | isDirectory
  | nameTooLong
  /-- The path has a character that no path can have. -/
  | nulInPath
  /-- The file is no UTF-8 text. -/
  | notText
  deriving DecidableEq, Repr

namespace FileError

/-- The number and the name of an error of the operating system, with what it says. -/
def system? : FileError → Option (Nat × String × String)
  | notFound => some (2, "NotFound", "No such file or directory")
  | permissionDenied => some (13, "PermissionDenied", "Permission denied")
  | notDirectory => some (20, "NotADirectory", "Not a directory")
  | isDirectory => some (21, "IsADirectory", "Is a directory")
  | nameTooLong => some (36, "InvalidFilename", "File name too long")
  | nulInPath => none
  | notText => none

/-- The name and the words of an error that is not the operating system's. -/
def plain : FileError → String × String
  | nulInPath => ("InvalidInput", "file name contained an unexpected NUL byte")
  | _ => ("InvalidData", "stream did not contain valid UTF-8")

def message (e : FileError) : String :=
  match e.system? with
  | some (code, _, text) => s!"{text} (os error {code})"
  | none => e.plain.2

/-- The error with all that is known about it. -/
def describe (e : FileError) : String :=
  match e.system? with
  | some (code, kind, text) =>
      s!"Os \x7b code: {code}, kind: {kind}, message: " ++ Quoted.write text ++ " \x7d"
  | none =>
      "Error \x7b kind: " ++ e.plain.1 ++ ", message: " ++ Quoted.write e.plain.2 ++ " \x7d"

end FileError

/-- A tree of directories and files. -/
inductive FileTree where
  | file (bytes : List UInt8)
  | directory (entries : List (String × FileTree))

namespace FileTree

/-- The longest name of a file, in bytes. -/
def longestName : Nat := 255

/-- The longest path, in bytes. -/
def longestPath : Nat := 4095

/-- The steps of a path.  A path that ends in a slash leads to a directory, and has an
empty last step. -/
def steps (path : String) : List String :=
  (path.splitOn "/").filter (· ≠ "") ++ if path.endsWith "/" then [""] else []

/-- Follows steps downwards.  `above` holds the directories on the way from the root,
the nearest first. -/
def follow (above : List FileTree) (here : FileTree) : List String → Except FileError FileTree
  | [] => .ok here
  | name :: rest =>
      match here with
      | .file _ => .error .notDirectory
      | .directory entries =>
          if name = "" ∨ name = "." then follow above here rest
          else if name = ".." then
            match above with
            | [] => follow [] here rest
            | parent :: above => follow above parent rest
          else if longestName < name.utf8ByteSize then .error .nameTooLong
          else
            match entries.lookup name with
            | none => .error .notFound
            | some entry => follow (here :: above) entry rest

/-- What stands at the end of a path.  Relative paths start at the end of the path
`start`. -/
def find (root : FileTree) (start : List String) (path : String) : Except FileError FileTree :=
  if path.contains '\x00' then .error .nulInPath
  else if path = "" then .error .notFound
  else if longestPath < path.utf8ByteSize then .error .nameTooLong
  else if path.startsWith "/" then follow [] root (steps path)
  else follow [] root (start ++ steps path)

/-- The bytes of the file at the end of a path. -/
def contents (root : FileTree) (start : List String) (path : String) :
    Except FileError (List UInt8) := do
  match ← root.find start path with
  | .file bytes => return bytes
  | .directory _ => throw .isDirectory

/-- The bytes as text. -/
def asText (bytes : List UInt8) : Except FileError String :=
  match Utf8.decode? bytes with
  | some text => .ok text
  | none => .error .notText

/-- The text of the file at the end of a path. -/
def text (root : FileTree) (start : List String) (path : String) : Except FileError String := do
  asText (← root.contents start path)

end FileTree

end Redelivery
