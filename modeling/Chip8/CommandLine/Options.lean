import Chip8.CommandLine.Word
import Chip8.Pace

/-!
# What a command line asks for

One word names the file of the program, the others are options and their values, until a `--` ends
the options.

* `Scan`                  the words read so far, and `Scan.step` for one more;
* `Options`               the options of a run;
* `Request.ofArguments`   the request of a command line, or the first thing that is wrong with it.
-/

namespace Chip8.CommandLine

/-! ## reading the words -/

/-- the words read so far -/
structure Scan where
  /-- the options, the latest one first -/
  uses : List (Setting × Option String) := []
  file : Option String := none
  wanting : Option Setting := none
  /-- the value of a key that has not been looked at; that happens when the next option or the
  file is read, or at the end -/
  unread : Option String := none
  plainOnly : Bool := false
  asked : Option Inquiry := none

def readNumber (bound : Nat) (text : String) : Except Numeral.ReadError Nat :=
  Numeral.read 10 bound text.toList

/-- what is wrong with the value of an option, if something is -/
def Setting.flaw? (s : Setting) (text : String) : Option ValueError :=
  match s.bound? with
  | some bound =>
    match readNumber bound text with
    | .ok _ => none
    | .error reason => some (.number reason)
  | none =>
    match Key.ofText text with
    | .ok _ => none
    | .error reason => some (.key reason)

def Setting.require (s : Setting) (text : String) : Except UsageError Unit :=
  match s.flaw? text with
  | none => .ok ()
  | some reason => .error (.invalidValue s text reason)

namespace Scan

def settle (s : Scan) : Except UsageError Scan :=
  match s.unread with
  | none => .ok s
  | some text => (Setting.holdKey.require text).map fun _ => { s with unread := none }

def takeFile (s : Scan) (text : String) : Except UsageError Scan :=
  match s.file with
  | some _ => .error (.unknownArgument text)
  | none => s.settle.map fun settled => { settled with file := some text, wanting := none }

/-- a plain word for the option that wants it; a key is looked at later, a number at the end -/
def takeValue (s : Scan) (setting : Setting) (text : String) : Scan :=
  { s with
    uses := (setting, some text) :: s.uses.tail
    wanting := none
    unread := if setting = .holdKey then some text else none }

/-- an option; a key in the same word is looked at once -/
def takeSetting (s : Scan) (setting : Setting) (value : Option String) : Except UsageError Scan :=
  match s.settle with
  | .error e => .error e
  | .ok settled =>
    match value with
    | none => .ok { settled with
        uses := (setting, none) :: settled.uses, wanting := some setting }
    | some text =>
      let taken := { settled with uses := (setting, some text) :: settled.uses, wanting := none }
      if setting = .holdKey then (setting.require text).map fun _ => taken else .ok taken

/-- an inquiry: what has been put off is looked at first -/
def takeInquiry (s : Scan) (inquiry : Inquiry) (value : Option String) : Except UsageError Scan :=
  match value with
  | some text => .error (.unwantedValue inquiry text)
  | none => s.settle.map fun settled => { settled with asked := some inquiry }

def step (s : Scan) (text : String) : Except UsageError Scan :=
  if s.plainOnly then s.takeFile text
  else
    match Word.ofText text with
    | .endOfOptions => .ok { s with plainOnly := true }
    | .unknownOption name => .error (.unknownArgument name)
    | .setting setting value => s.takeSetting setting value
    | .inquiry inquiry value => s.takeInquiry inquiry value
    | .plain text =>
      match s.wanting with
      | some setting => .ok (s.takeValue setting text)
      | none => s.takeFile text

/-- all words, up to the first one that is wrong by itself or asks for something else than a run -/
def steps (s : Scan) : List String → Except UsageError Scan
  | [] => s.settle
  | text :: rest =>
    match s.step text with
    | .error e => .error e
    | .ok next => if next.asked.isSome then .ok next else next.steps rest

/-! ## the whole command line -/

def values (s : Scan) (setting : Setting) : List String :=
  s.uses.reverse.filterMap fun use => if use.1 = setting then use.2 else none

def count (s : Scan) (setting : Setting) : Nat := s.uses.countP (·.1 == setting)

/-- what is wrong with the uses of an option taken together -/
def checkSetting (s : Scan) (setting : Setting) : Except UsageError Unit :=
  let values := s.values setting
  if values.isEmpty then .error (.emptyValue setting)
  else
    match values.find? fun text => (setting.flaw? text).isSome with
    | some text => setting.require text
    | none =>
      if 1 < s.count setting ∧ !setting.repeatable then .error (.repeated setting) else .ok ()

def checkSettings (s : Scan) : List Setting → Except UsageError Unit
  | [] => .ok ()
  | setting :: rest =>
    match s.checkSetting setting with
    | .error e => .error e
    | .ok () => s.checkSettings rest

/-- the options that are used, in the order of their first use -/
def used (s : Scan) : List Setting := (s.uses.reverse.map (·.1)).eraseDups

def number? (s : Scan) (setting : Setting) : Option Nat :=
  match (s.values setting).head?, setting.bound? with
  | some text, some bound => (readNumber bound text).toOption
  | _, _ => none

def word? (s : Scan) (setting : Setting) : Option UInt32 := (s.number? setting).map UInt32.ofNat

def keys (s : Scan) : List Key :=
  (s.values .holdKey).filterMap fun text => (Key.ofText text).toOption

/-- the first option that ends the line without any value -/
def checkLast (s : Scan) : Except UsageError Unit :=
  match s.wanting with
  | some setting =>
    if (s.values setting).isEmpty then .error (.emptyValue setting) else .ok ()
  | none => .ok ()

end Scan

structure Options where
  file : String
  pace : Pace
  frames : UInt32
  seed : Option UInt64
  /-- keys that are held down, in the order in which they are pressed -/
  holdKeys : List Key
  deriving DecidableEq, Repr

def defaultFrames : UInt32 := 600

def Options.ofScan (s : Scan) (file : String) : Options where
  file
  pace :=
    { timerFrequency := (s.word? .timerHz).getD Pace.standard.timerFrequency
      instructionsPerTick :=
        (s.word? .instructionsPerTick).getD Pace.standard.instructionsPerTick }
  frames := (s.word? .frames).getD defaultFrames
  seed := (s.number? .seed).map UInt64.ofNat
  holdKeys := s.keys

inductive Request
  | run (options : Options)
  | inform (inquiry : Inquiry)
  deriving DecidableEq, Repr

/-- the options of a scan to its end, or the first thing that is wrong with it: an option at the end
without a value, no file, then the options in the order of their first use -/
def Options.ofScan? (s : Scan) : Except UsageError Options := do
  s.checkLast
  match s.file with
  | none => .error .missingProgram
  | some file =>
    s.checkSettings s.used
    return .ofScan s file

/-- what a command line asks for, or what is wrong with it: first a word by itself, then the options
taken together; what follows an inquiry is not looked at -/
def Request.ofArguments (arguments : List String) : Except UsageError Request := do
  let s ← Scan.steps {} arguments
  match s.asked with
  | some inquiry => return .inform inquiry
  | none => return .run (← Options.ofScan? s)

end Chip8.CommandLine
