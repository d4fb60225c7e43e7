import Chip8.CallStack
import Chip8.Fault
import Chip8.Memory
import Chip8.Screen

/-!
# The machine: everything an instruction can read or write

* `Machine.ofProgram`      the machine a program starts on, `Machine.load` with the check that it
                           fits;
* `Machine.fetch`          the opcode at the program counter;
* `Machine.tickTimers`     one step of the clock that runs beside the instructions.
-/

namespace Chip8

structure Machine where
  programCounter : UInt16
  memory : Memory
  registers : Vector UInt8 16
  /-- the address register `I` -/
  index : UInt16
  stack : CallStack
  delayTimer : UInt8
  soundTimer : UInt8
  screen : Screen
  /-- the register that waits for the number of the next key pressed -/
  awaiting : Option Register
  /-- by key, whether it is pressed -/
  keys : Vector Bool 16
  deriving DecidableEq

namespace Machine

/-! ## how it starts -/

def ofProgram (program : List UInt8) : Machine where
  programCounter := UInt16.ofNat Memory.programStart
  memory := Memory.ofProgram program
  registers := Vector.replicate 16 0
  index := 0
  stack := CallStack.empty
  delayTimer := 0
  soundTimer := 0
  screen := Screen.blank
  awaiting := none
  keys := Vector.replicate 16 false

def load (program : List UInt8) : Except ProgramTooLong Machine :=
  if program.length ≤ Memory.maxProgramLength then .ok (ofProgram program)
  else .error ⟨program.length⟩

/-! ## registers and keys -/

def register (m : Machine) (x : Register) : UInt8 := m.registers[x]

def setRegister (m : Machine) (x : Register) (value : UInt8) : Machine :=
  { m with registers := m.registers.set x value }

/-- sets the flag register if there is a flag -/
def setFlag (m : Machine) : Option UInt8 → Machine
  | none => m
  | some flag => m.setRegister Register.flag flag

def setKey (m : Machine) (k : Key) (pressed : Bool) : Machine :=
  { m with keys := m.keys.set k pressed }

/-- whether the key with a number is pressed; no key has a number above 15 -/
def isPressed (m : Machine) (number : UInt8) : Bool := m.keys[number.toNat]?.getD false

def pressedKeys (m : Machine) : List Key := Key.all.filter fun k => m.keys[k]

/-! ## fetching and the clock -/

def outOfBounds (m : Machine) (start : UInt16) (count : Nat) : Fault :=
  .outOfBounds m.programCounter (start.toNat + count - 1)

def opcodeLength : Nat := 2

/-- the opcode at the program counter, higher byte first -/
def fetch (m : Machine) : Except Fault UInt16 :=
  let start := m.programCounter.toNat
  if Memory.Covers start opcodeLength then
    .ok (opcodeOfBytes (m.memory.byte start) (m.memory.byte (start + 1)))
  else .error (m.outOfBounds m.programCounter opcodeLength)

/-- the value of a timer after a tick; it stops at zero -/
def countDown (timer : UInt8) : UInt8 := if timer = 0 then 0 else timer - 1

def tickTimers (m : Machine) : Machine :=
  { m with delayTimer := countDown m.delayTimer, soundTimer := countDown m.soundTimer }

end Machine

end Chip8
