import Chip8.Numeral

/-!
# The working directory

A run finds the file of its program by a path from its working directory.  Here that directory is a
value: it holds files only, and of what lies above it nothing is known, so that no name is found
there.

* `FileError`        why a file is not read;
* `Directory.read`   the bytes of the file that a path leads to.
-/

namespace Chip8.CommandLine

/-! ## what can be wrong -/

inductive FileError
  | notFound
  | notADirectory
  | isADirectory
  | nameTooLong
  deriving DecidableEq, Repr

namespace FileError

def all : List FileError := [notFound, notADirectory, isADirectory, nameTooLong]

/-- the number that the system has for it -/
def code : FileError → Nat
  | notFound => 2
  | notADirectory => 20
  | isADirectory => 21
  | nameTooLong => 36

def kind : FileError → String
  | notFound => "NotFound"
  | notADirectory => "NotADirectory"
  | isADirectory => "IsADirectory"
  | nameTooLong => "InvalidFilename"

def message : FileError → String
  | notFound => "No such file or directory"
  | notADirectory => "Not a directory"
  | isADirectory => "Is a directory"
  | nameTooLong => "File name too long"

def record (e : FileError) : String :=
  "Os \x7b code: " ++ Numeral.decimal e.code ++ ", kind: " ++ e.kind ++ ", message: \"" ++ e.message
    ++ "\" \x7d"

end FileError

/-! ## paths -/

structure Directory where
  files : List (String × List UInt8)

/-- what a part of a path leads to -/
inductive Place
  | here
  /-- some directory that is not below it -/
  | elsewhere
  | file (bytes : List UInt8)
  deriving DecidableEq, Repr

namespace Directory

def maxNameLength : Nat := 255

def maxPathLength : Nat := 4095

def find (d : Directory) (place : Place) (name : String) : Except FileError Place :=
  if maxNameLength < name.utf8ByteSize then .error .nameTooLong
  else
    match place, d.files.lookup name with
    | .here, some bytes => .ok (.file bytes)
    | _, _ => .error .notFound

def enter (d : Directory) (place : Place) (name : String) : Except FileError Place :=
  match place with
  | .file _ => .error .notADirectory
  | .here | .elsewhere =>
    if name = "" ∨ name = "." then .ok place
    else if name = ".." then .ok .elsewhere
    else d.find place name

/-- what the names between the slashes of a path lead to, one after another; a path that begins with
a slash starts from the topmost directory -/
def follow (d : Directory) (path : String) : Except FileError Place :=
  let names := (path.toList.splitOn '/').map String.ofList
  let start : Place := if path.toList.head? = some '/' then .elsewhere else .here
  if path = "" then .error .notFound
  else if maxPathLength < path.utf8ByteSize then .error .nameTooLong
  else names.foldlM d.enter start

def read (d : Directory) (path : String) : Except FileError (List UInt8) := do
  match ← d.follow path with
  | .file bytes => return bytes
  | .here | .elsewhere => .error .isADirectory

end Directory

end Chip8.CommandLine
