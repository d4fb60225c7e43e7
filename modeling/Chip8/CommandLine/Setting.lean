import Chip8.CommandLine.KeyText
import Chip8.Text.Quoted

/-!
# The options of the command line

Options with a value, and the words that ask for something else than a run.

* `Setting`       an option with a value;
* `Inquiry`       what can be asked for instead of a run;
* `UsageError`    what is wrong with a command line.
-/

namespace Chip8.CommandLine

/-! ## the options there are -/

inductive Setting
  | instructionsPerTick
  | timerHz
  | frames
  | seed
  | holdKey
  deriving DecidableEq, Repr

namespace Setting

def all : List Setting := [instructionsPerTick, timerHz, frames, seed, holdKey]

def long : Setting → String
  | instructionsPerTick => "instructions-per-tick"
  | timerHz => "timer-hz"
  | frames => "frames"
  | seed => "seed"
  | holdKey => "hold-key"

def short : Setting → Char
  | instructionsPerTick => 'i'
  | timerHz => 't'
  | frames => 'f'
  | seed => 's'
  | holdKey => 'k'

/-- what stands for the value when the option is talked about -/
def placeholder : Setting → String
  | instructionsPerTick => "INSTRUCTIONS_PER_TICK"
  | timerHz => "TIMER_HZ"
  | frames => "FRAMES"
  | seed => "SEED"
  | holdKey => "HOLD_KEYS"

def purpose : Setting → String
  | instructionsPerTick => "instructions in a tick of the timers"
  | timerHz => "ticks of the timers in a second"
  | frames => "ticks after which the screen is printed"
  | seed => "the seed of the random bytes"
  | holdKey => "a key that is held down, may be repeated"

def display (s : Setting) : String := "--" ++ s.long ++ " <" ++ s.placeholder ++ ">"

def bound? : Setting → Option Nat
  | instructionsPerTick | timerHz | frames => some (UInt32.size - 1)
  | seed => some (UInt64.size - 1)
  | holdKey => none

def repeatable : Setting → Bool
  | holdKey => true
  | _ => false

end Setting

/-- what can be asked for instead of a run; the words for it take no value -/
inductive Inquiry
  | help
  | version
  deriving DecidableEq, Repr

namespace Inquiry

def all : List Inquiry := [help, version]

def long : Inquiry → String
  | help => "help"
  | version => "version"

def short : Inquiry → Char
  | help => 'h'
  | version => 'V'

def display (i : Inquiry) : String := "--" ++ i.long

end Inquiry

/-! ## what can be wrong -/

inductive ValueError
  | number (reason : Numeral.ReadError)
  | key (reason : KeyTextError)
  deriving DecidableEq, Repr

def ValueError.message : ValueError → String
  | .number reason => reason.message
  | .key reason => reason.message

inductive UsageError
  /-- there is no such option, or the program has been named already -/
  | unknownArgument (argument : String)
  | missingProgram
  | emptyValue (setting : Setting)
  | invalidValue (setting : Setting) (value : String) (reason : ValueError)
  | repeated (setting : Setting)
  | unwantedValue (inquiry : Inquiry) (value : String)
  deriving DecidableEq, Repr

def UsageError.message : UsageError → String
  | .unknownArgument argument =>
    "Found argument '" ++ argument ++ "' which wasn't expected, or isn't valid in this context"
  | .missingProgram => "The following required arguments were not provided:"
  | .emptyValue setting =>
    "The argument '" ++ setting.display ++ "' requires a value but none was supplied"
  | .invalidValue setting value reason =>
    "Invalid value " ++ Text.quoted value ++ " for '" ++ setting.display ++ "': " ++ reason.message
  | .repeated setting =>
    "The argument '" ++ setting.display
      ++ "' was provided more than once, but cannot be used multiple times"
  | .unwantedValue inquiry value =>
    "The value '" ++ value ++ "' was provided to '" ++ inquiry.display
      ++ "' but it wasn't expecting any more values"

end Chip8.CommandLine
