import Chip8.Numeral

/-!
# What stops the machine, and what cannot be loaded

* `Fault`              why execution cannot go on, with the address of the instruction;
* `ProgramTooLong`     why a program was not loaded.

Each has a `message` for people and a `record`, the form with all fields in decimal that the
command line ends with.
-/

namespace Chip8

inductive Fault
  | unknownOpcode (opcode programCounter : UInt16)
  | stackOverflow (programCounter : UInt16)
  | stackUnderflow (programCounter : UInt16)
  /-- a range of addresses that ends behind memory; the address is the last one of it -/
  | outOfBounds (programCounter : UInt16) (address : Nat)
  deriving DecidableEq, Repr

namespace Fault

def programCounter : Fault → UInt16
  | unknownOpcode _ pc | stackOverflow pc | stackUnderflow pc | outOfBounds pc _ => pc

def message : Fault → String
  | unknownOpcode opcode pc =>
    "unknown opcode " ++ Numeral.hexPadded 4 opcode.toNat ++ " at " ++ Numeral.hex pc.toNat
  | stackOverflow pc =>
    "the call request at " ++ Numeral.hex pc.toNat ++ " exceeds the maximum call stack size"
  | stackUnderflow pc =>
    "return was requested at " ++ Numeral.hex pc.toNat ++ " with an empty call stack"
  | outOfBounds pc address =>
    "an out of bounds memory access to " ++ Numeral.hex address ++ " was requested at "
      ++ Numeral.hex pc.toNat

end Fault

/-- a name with named numbers in braces -/
def recordText (name : String) (fields : List (String × Nat)) : String :=
  name ++ " \x7b " ++ ", ".intercalate (fields.map fun f => f.1 ++ ": " ++ Numeral.decimal f.2)
    ++ " \x7d"

def Fault.record : Fault → String
  | unknownOpcode opcode pc =>
    recordText "UnknownOpcode" [("opcode", opcode.toNat), ("program_counter", pc.toNat)]
  | stackOverflow pc => recordText "StackOverflow" [("program_counter", pc.toNat)]
  | stackUnderflow pc => recordText "StackUnderflow" [("program_counter", pc.toNat)]
  | outOfBounds pc address =>
    recordText "OutOfBoundsMemoryAccess" [("program_counter", pc.toNat), ("address", address)]

structure ProgramTooLong where
  length : Nat
  deriving DecidableEq, Repr

def ProgramTooLong.message (e : ProgramTooLong) : String :=
  "a program with a length (" ++ Numeral.hex e.length
    ++ ") greater than the usable length of memory (E00) was supplied"

def ProgramTooLong.record (e : ProgramTooLong) : String :=
  recordText "ProgramExceedsUsableMemoryLen" [("program_len", e.length)]

end Chip8
