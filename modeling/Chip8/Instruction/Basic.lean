import Chip8.Operand

/-!
# Instructions

What an opcode asks the machine to do, with its operands.  Three families that share a shape are
types of their own: the conditions under which a skip skips, the operations on two registers, and
the shifts.

* `Instruction`                     one instruction;
* `Instruction.transfersControl`    whether it says itself where execution goes on.
-/

namespace Chip8

inductive Condition
  | equalsConstant (x : Register) (constant : UInt8)
  | differsFromConstant (x : Register) (constant : UInt8)
  | equals (x y : Register)
  | differs (x y : Register)
  /-- the key whose number the register holds is pressed -/
  | pressed (x : Register)
  | notPressed (x : Register)
  deriving DecidableEq, Repr

inductive Arithmetic
  | copy
  | or
  | and
  | xor
  | add
  /-- the second value is taken from the first, the flag says that nothing was borrowed -/
  | subtract
  /-- the first value is taken from the second, the flag says that nothing was borrowed -/
  | subtractFrom
  deriving DecidableEq, Repr

/-- the shifts by one place, the flag is the bit that is shifted out -/
inductive Shift
  | right
  | left
  deriving DecidableEq, Repr

inductive Instruction
  /-- call of a routine of the host machine, taken as a jump -/
  | systemJump (target : Address)
  | clearScreen
  | ret
  | jump (target : Address)
  | call (target : Address)
  | skip (condition : Condition)
  | setConstant (x : Register) (constant : UInt8)
  | addConstant (x : Register) (constant : UInt8)
  | combine (operation : Arithmetic) (x y : Register)
  | shift (direction : Shift) (x : Register)
  | setIndex (address : Address)
  /-- jump to the address plus the value of `V0` -/
  | jumpOffset (address : Address)
  /-- a random byte, with the bits outside of the mask cleared -/
  | random (x : Register) (mask : UInt8)
  | draw (x y : Register) (rows : Nibble)
  | readDelay (x : Register)
  | awaitKey (x : Register)
  | setDelay (x : Register)
  | setSound (x : Register)
  | addIndex (x : Register)
  /-- the index becomes the address of the glyph of the register's low digit -/
  | pointAtGlyph (x : Register)
  | storeDecimal (x : Register)
  | storeRegisters (last : Register)
  | loadRegisters (last : Register)
  deriving DecidableEq, Repr

/-- whether the instruction sets the program counter itself; after every other one execution goes
on behind it -/
def Instruction.transfersControl : Instruction → Bool
  | .systemJump _ | .ret | .jump _ | .call _ | .jumpOffset _ => true
  | _ => false

end Chip8
