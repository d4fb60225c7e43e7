import Chip8.CommandLine.Directory
import Chip8.CommandLine.Options
import Chip8.Runner

/-!
# A run from the command line

The program is read and run with its keys held down, for as many rounds as there are frames or up
to its fault; then the last screen that was sent is printed.

* `Report`     what a run prints and its exit code;
* `execute`    the run of a program under given options;
* `report`     the report of a command line.
-/

namespace Chip8.CommandLine

structure Report where
  exitCode : Nat
  output : String
  error : Option String
  deriving DecidableEq, Repr

def Report.failure (output record : String) : Report := ⟨1, output, some ("Error: " ++ record)⟩

def Report.usage (e : UsageError) : Report := ⟨2, "", some ("error: " ++ e.message)⟩

def optionForms (short : Char) (long : String) : String :=
  String.ofList ['-', short] ++ ", --" ++ long

def helpText : String :=
  let settings := Setting.all.map fun s =>
    "  " ++ optionForms s.short s.long ++ " <" ++ s.placeholder ++ ">: " ++ s.purpose ++ "\n"
  let inquiries := Inquiry.all.map fun i => "  " ++ optionForms i.short i.long ++ "\n"
  "chip8 [OPTIONS] <ROM_FILE>\n\n" ++ String.join (settings ++ inquiries)

def Report.information : Inquiry → Report
  | .help => ⟨0, helpText, none⟩
  | .version => ⟨0, "chip8 1.0.0\n", none⟩

def printedScreen (s : Screen) : String := s.picture ++ "\n"

/-- the runner of a processor with keys held down, after as many rounds as there are frames -/
def runner (o : Options) (started : Runner) : Runner :=
  let held := o.holdKeys.foldl (fun r k => r.send (.key k true)) started
  held.rounds o.frames.toNat

def execute (o : Options) (program : List UInt8) (source : Generator.Source) : Report :=
  match Processor.load program (source.generator o.seed) with
  | .error e => .failure "" e.record
  | .ok processor =>
    match Runner.start processor o.pace with
    | .error e => .failure "" e.record
    | .ok started =>
      let r := runner o started
      let shown := printedScreen (processor.machine.screen.afterEvents r.events.toList)
      match r.ending with
      | some (.faulted fault) => .failure shown fault.record
      | _ => ⟨0, shown, none⟩

/-- the report of a command line: `contents` are the bytes of the file that a path leads to, `seed`
is used where none is given -/
def report (contents : String → Except FileError (List UInt8)) (seed : UInt64)
    (arguments : List String) : Report :=
  match Request.ofArguments arguments with
  | .error e => .usage e
  | .ok (.inform inquiry) => .information inquiry
  | .ok (.run o) =>
    match contents o.file with
    | .error e => .failure "" e.record
    | .ok program => execute o program (.ofSeed seed)

end Chip8.CommandLine
