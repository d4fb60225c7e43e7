import Chip8.Instruction.Basic

/-!
# Opcodes: instructions as two bytes

An opcode is read by its four hexadecimal digits.  The first one names the family; the others are
operands, or name the member of the family.  Some members ignore a digit, so that several opcodes
stand for one instruction; `encode` writes the one in which the ignored digits are zero, as they
are for the families `5` and `9`, or fixed, as they are for `8xy6`.

* `Instruction.ofDigits?`, `Instruction.decode?`    the instruction of an opcode, if there is one;
* `Instruction.encode`                              the opcode of an instruction;
* `Instruction.bytes`                               the same as two bytes, the higher one first.
-/

namespace Chip8

structure UnknownOpcode where
  opcode : UInt16
  deriving DecidableEq, Repr

def UnknownOpcode.message (u : UnknownOpcode) : String :=
  "unknown opcode `" ++ Numeral.hexPadded 4 u.opcode.toNat ++ "`"

/-! ## digits of an opcode -/

/-- the opcode with these four digits -/
def opcodeOfDigits (family x y n : Nibble) : UInt16 :=
  UInt16.ofNat (family.val * 4096 + x.val * 256 + y.val * 16 + n.val)

def opcodeOfAddress (family : Nibble) (address : Address) : UInt16 :=
  UInt16.ofNat (family.val * 4096 + address.val)

def opcodeOfByte (family : Nibble) (x : Register) (byte : UInt8) : UInt16 :=
  UInt16.ofNat (family.val * 4096 + x.val * 256 + byte.toNat)

/-! ## decoding -/

/-- the operations of family `8` on two registers, by their last digit -/
def Arithmetic.ofCode? : Nibble → Option Arithmetic
  | 0x0 => some .copy
  | 0x1 => some .or
  | 0x2 => some .and
  | 0x3 => some .xor
  | 0x4 => some .add
  | 0x5 => some .subtract
  | 0x7 => some .subtractFrom
  | _ => none

def Shift.ofCode? : Nibble → Option Shift
  | 0x6 => some .right
  | 0xE => some .left
  | _ => none

namespace Instruction

/-- family `8`: an operation on two registers, or a shift, which ignores the second register -/
def ofCombineDigits? (x y n : Nibble) : Option Instruction :=
  match Arithmetic.ofCode? n with
  | some operation => some (.combine operation x y)
  | none => (Shift.ofCode? n).map fun direction => .shift direction x

/-- family `F`: the last digit decides, and for `5` the third one as well -/
def ofTransferDigits? (x y n : Nibble) : Option Instruction :=
  match n with
  | 0x3 => some (.storeDecimal x)
  | 0x5 =>
    match y with
    | 0x1 => some (.setDelay x)
    | 0x5 => some (.storeRegisters x)
    | 0x6 => some (.loadRegisters x)
    | _ => none
  | 0x7 => some (.readDelay x)
  | 0x8 => some (.setSound x)
  | 0x9 => some (.pointAtGlyph x)
  | 0xA => some (.awaitKey x)
  | 0xE => some (.addIndex x)
  | _ => none

def ofDigits? (family x y n : Nibble) : Option Instruction :=
  let address := Address.ofNibbles x y n
  let byte := byteOfNibbles y n
  match family with
  | 0x0 =>
    if address = 0x0E0 then some .clearScreen
    else if address = 0x0EE then some .ret
    else some (.systemJump address)
  | 0x1 => some (.jump address)
  | 0x2 => some (.call address)
  | 0x3 => some (.skip (.equalsConstant x byte))
  | 0x4 => some (.skip (.differsFromConstant x byte))
  | 0x5 => some (.skip (.equals x y))
  | 0x6 => some (.setConstant x byte)
  | 0x7 => some (.addConstant x byte)
  | 0x8 => ofCombineDigits? x y n
  | 0x9 => some (.skip (.differs x y))
  | 0xA => some (.setIndex address)
  | 0xB => some (.jumpOffset address)
  | 0xC => some (.random x byte)
  | 0xD => some (.draw x y n)
  | 0xE =>
    match n with
    | 0x1 => some (.skip (.notPressed x))
    | 0xE => some (.skip (.pressed x))
    | _ => none
  | _ => ofTransferDigits? x y n

def decode? (opcode : UInt16) : Option Instruction :=
  ofDigits? (.ofOpcode opcode 0) (.ofOpcode opcode 1) (.ofOpcode opcode 2) (.ofOpcode opcode 3)

def decode (opcode : UInt16) : Except UnknownOpcode Instruction :=
  match decode? opcode with
  | some instruction => .ok instruction
  | none => .error ⟨opcode⟩

end Instruction

/-! ## encoding -/

def Arithmetic.code : Arithmetic → Nibble
  | .copy => 0x0
  | .or => 0x1
  | .and => 0x2
  | .xor => 0x3
  | .add => 0x4
  | .subtract => 0x5
  | .subtractFrom => 0x7

def Shift.code : Shift → Nibble
  | .right => 0x6
  | .left => 0xE

def Condition.encode : Condition → UInt16
  | .equalsConstant x constant => opcodeOfByte 0x3 x constant
  | .differsFromConstant x constant => opcodeOfByte 0x4 x constant
  | .equals x y => opcodeOfDigits 0x5 x y 0x0
  | .differs x y => opcodeOfDigits 0x9 x y 0x0
  | .pressed x => opcodeOfDigits 0xE x 0x9 0xE
  | .notPressed x => opcodeOfDigits 0xE x 0xA 0x1

def Instruction.encode : Instruction → UInt16
  | .systemJump target => opcodeOfAddress 0x0 target
  | .clearScreen => 0x00E0
  | .ret => 0x00EE
  | .jump target => opcodeOfAddress 0x1 target
  | .call target => opcodeOfAddress 0x2 target
  | .skip condition => condition.encode
  | .setConstant x constant => opcodeOfByte 0x6 x constant
  | .addConstant x constant => opcodeOfByte 0x7 x constant
  | .combine operation x y => opcodeOfDigits 0x8 x y operation.code
  | .shift direction x => opcodeOfDigits 0x8 x 0x0 direction.code
  | .setIndex address => opcodeOfAddress 0xA address
  | .jumpOffset address => opcodeOfAddress 0xB address
  | .random x mask => opcodeOfByte 0xC x mask
  | .draw x y rows => opcodeOfDigits 0xD x y rows
  | .readDelay x => opcodeOfDigits 0xF x 0x0 0x7
  | .awaitKey x => opcodeOfDigits 0xF x 0x0 0xA
  | .setDelay x => opcodeOfDigits 0xF x 0x1 0x5
  | .setSound x => opcodeOfDigits 0xF x 0x1 0x8
  | .addIndex x => opcodeOfDigits 0xF x 0x1 0xE
  | .pointAtGlyph x => opcodeOfDigits 0xF x 0x2 0x9
  | .storeDecimal x => opcodeOfDigits 0xF x 0x3 0x3
  | .storeRegisters last => opcodeOfDigits 0xF last 0x5 0x5
  | .loadRegisters last => opcodeOfDigits 0xF last 0x6 0x5

def Instruction.bytes (i : Instruction) : List UInt8 := bytesOfOpcode i.encode

end Chip8
