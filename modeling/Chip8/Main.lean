import Chip8.CommandLine.Run

/-!
# The program

Reads the file that the command line names, prints the report and ends with its exit code.
-/

namespace Chip8.CommandLine

def printReport (r : Report) : IO UInt32 := do
  IO.print r.output
  if let some line := r.error then IO.eprintln line
  return UInt32.ofNat r.exitCode

def readProgram (file : String) : IO (Except FileError (List UInt8)) := do
  try
    return .ok (← IO.FS.readBinFile file).toList
  catch e =>
    let known := match e with
      | .noFileOrDirectory .. => some .notFound
      | .inappropriateType _ code _ | .invalidArgument _ code _ | .resourceExhausted _ code _
      | .noSuchThing _ code _ => FileError.all.find? (·.code == code.toNat)
      | _ => none
    match known with
    | some reason => return .error reason
    | none => throw e

end Chip8.CommandLine

open Chip8.CommandLine

def main (arguments : List String) : IO UInt32 := do
  let seed := UInt64.ofNat (← IO.rand 0 (UInt64.size - 1))
  let program ← match Request.ofArguments arguments with
    | .ok (.run o) => readProgram o.file
    | .ok (.inform _) | .error _ => pure (.ok [])
  printReport (report (fun _ => program) seed arguments)
