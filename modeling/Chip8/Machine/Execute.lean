import Chip8.Instruction.Opcode
import Chip8.Machine.Action

/-!
# Executing an instruction

`Instruction.execute` says what each instruction does to the machine and to the random generator,
with the program counter still at the instruction, and how execution goes on from there.  An
access to memory is checked before the first change that depends on it.

* `Arithmetic.result`, `Arithmetic.flag?`    the operations on two registers, as functions on bytes;
* `Condition.holds`                          when a skip skips;
* `Instruction.execute`                      the instructions.
-/

namespace Chip8

/-! ## operations on bytes -/

def Arithmetic.result : Arithmetic → UInt8 → UInt8 → UInt8
  | .copy, _, b => b
  | .or, a, b => a ||| b
  | .and, a, b => a &&& b
  | .xor, a, b => a ^^^ b
  | .add, a, b => a + b
  | .subtract, a, b => a - b
  | .subtractFrom, a, b => b - a

def byteOfBool (b : Bool) : UInt8 := if b then 1 else 0

/-- the flag of an operation that sets it: a carry, or that nothing was borrowed -/
def Arithmetic.flag? : Arithmetic → UInt8 → UInt8 → Option UInt8
  | .add, a, b => some (byteOfBool (256 ≤ a.toNat + b.toNat))
  | .subtract, a, b => some (byteOfBool (b ≤ a))
  | .subtractFrom, a, b => some (byteOfBool (a ≤ b))
  | _, _, _ => none

def Shift.result : Shift → UInt8 → UInt8
  | .right, a => a >>> 1
  | .left, a => a <<< 1

def Shift.flag : Shift → UInt8 → UInt8
  | .right, a => a &&& 1
  | .left, a => a >>> 7

def decimalDigits (value : UInt8) : List UInt8 := [value / 100, value / 10 % 10, value % 10]

/-! ## how execution goes on -/

/-- moves the program counter on; it wraps around at 16 bits -/
def Machine.proceed (m : Machine) : Flow → Machine
  | .next => { m with programCounter := m.programCounter + 2 }
  | .skip => { m with programCounter := m.programCounter + 4 }
  | .jumped => m

def Condition.holds (m : Machine) : Condition → Bool
  | .equalsConstant x constant => m.register x == constant
  | .differsFromConstant x constant => m.register x != constant
  | .equals x y => m.register x == m.register y
  | .differs x y => m.register x != m.register y
  | .pressed x => m.isPressed (m.register x)
  | .notPressed x => !m.isPressed (m.register x)

/-! ## the instructions -/

namespace Machine

/-- combines two registers into the first; the flag is set before the result, so that the result
stays if the first register is the flag register -/
def combine (m : Machine) (operation : Arithmetic) (x y : Register) : Machine :=
  let a := m.register x
  let b := m.register y
  (m.setFlag (operation.flag? a b)).setRegister x (operation.result a b)

def shift (m : Machine) (direction : Shift) (x : Register) : Machine :=
  let a := m.register x
  (m.setFlag (some (direction.flag a))).setRegister x (direction.result a)

/-- draws the sprite at the index; the flag says that a lit pixel was hit -/
def drawSprite (m : Machine) (x y : Register) (rows : Nibble) : Machine :=
  let sprite := m.memory.read m.index.toNat rows.val
  let drawn := m.screen.draw (m.register x).toNat (m.register y).toNat sprite
  { m with screen := drawn.1 }.setRegister Register.flag (byteOfBool drawn.2)

def store (m : Machine) (values : List UInt8) : Machine :=
  { m with memory := m.memory.write m.index.toNat values }

def registersUpTo (m : Machine) (last : Register) : List UInt8 :=
  (Register.upTo last).map m.register

def loadRegisters (m : Machine) (last : Register) : Machine :=
  { m with registers := Vector.ofFn fun x =>
      if x ≤ last then m.memory.byte (m.index.toNat + x.val) else m.register x }

end Machine

namespace Instruction
open Chip8.Action

def execute : Instruction → Action Flow
  | .systemJump target | .jump target => jumpTo (UInt16.ofNat target.val)
  | .jumpOffset address => do
    let m ← machine
    jumpTo (UInt16.ofNat address.val + (m.register 0).toUInt16)
  | .call target => do
    pushReturn
    jumpTo (UInt16.ofNat target.val)
  | .ret => do
    let address ← popReturn
    jumpTo address
  | .skip condition => do
    let m ← machine
    return if condition.holds m then .skip else .next
  | .clearScreen => update ({ · with screen := Screen.blank })
  | .setConstant x constant => update (·.setRegister x constant)
  | .addConstant x constant => update fun m => m.setRegister x (m.register x + constant)
  | .combine operation x y => update (·.combine operation x y)
  | .shift direction x => update (·.shift direction x)
  | .setIndex address => update ({ · with index := UInt16.ofNat address.val })
  | .addIndex x => update fun m => { m with index := m.index + (m.register x).toUInt16 }
  | .pointAtGlyph x =>
    update fun m => { m with index := Font.address (Nibble.masked (m.register x).toNat) }
  | .random x mask => do
    let byte ← randomByte
    update (·.setRegister x (byte &&& mask))
  | .readDelay x => update fun m => m.setRegister x m.delayTimer
  | .setDelay x => update fun m => { m with delayTimer := m.register x }
  | .setSound x => update fun m => { m with soundTimer := m.register x }
  | .awaitKey x => update ({ · with awaiting := some x })
  | .draw x y rows => do
    covered rows.val
    update (·.drawSprite x y rows)
  | .storeDecimal x => do
    covered 3
    update fun m => m.store (decimalDigits (m.register x))
  | .storeRegisters last => do
    covered (last.val + 1)
    update fun m => m.store (m.registersUpTo last)
  | .loadRegisters last => do
    covered (last.val + 1)
    update (·.loadRegisters last)

theorem run_execute_call (target : Address) (core : Core) :
    (call target).execute.run core =
      match core.machine.stack.push (core.machine.programCounter + 2) with
      | .ok stack => .ok .jumped { core with
          machine := { core.machine with stack, programCounter := UInt16.ofNat target.val } }
      | .error _ => .error (.stackOverflow core.machine.programCounter) core := by
  simp only [execute, EStateM.run_bind, run_pushReturn]
  cases core.machine.stack.push (core.machine.programCounter + 2) with
  | ok stack => rfl
  | error full => rfl

theorem run_execute_ret (core : Core) :
    ret.execute.run core =
      match core.machine.stack.pop with
      | some (address, stack) => .ok .jumped { core with
          machine := { core.machine with stack, programCounter := address } }
      | none => .error (.stackUnderflow core.machine.programCounter) core := by
  simp only [execute, EStateM.run_bind, run_popReturn]
  cases core.machine.stack.pop with
  | none => rfl
  | some top => rfl

end Instruction

end Chip8
