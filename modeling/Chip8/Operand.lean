import Chip8.Numeral

/-!
# Operands of an instruction

Registers and keys are numbered by one hexadecimal digit, an address takes three of them.  The
types hold exactly the values that fit, so that an instruction cannot name a register or an
address that does not exist; `checked` is the way in from a number that may not fit, `masked` and
`ofOpcode` the ways in that drop the bits above.

* `Nibble`, `Address`, `Register`, `Key`    the operands;
* `OperandError`                            why a number is none of them;
* `bytesOfOpcode`, `opcodeOfBytes`          an opcode as it stands in memory.
-/

namespace Chip8

/-- one hexadecimal digit -/
abbrev Nibble := Fin 16

/-- an address that an opcode can hold: three hexadecimal digits -/
abbrev Address := Fin 4096

/-- a data register, `V0` to `VF` -/
abbrev Register := Fin 16

/-- a key of the keypad, `K0` to `KF` -/
abbrev Key := Fin 16

-- the literals of operands, and of places in an opcode, rest on these, in all modules alike
instance Nibble.neZero : @NeZero Nat Zero.ofOfNat0 16 := Nat.instNeZeroSucc
instance Address.neZero : @NeZero Nat Zero.ofOfNat0 4096 := Nat.instNeZeroSucc
instance Place.neZero : @NeZero Nat Zero.ofOfNat0 4 := Nat.instNeZeroSucc

/-- why a number is no operand -/
inductive OperandError
  | exceeds (value bound : Nat)
  | noRegister (value : Nat)
  | noKey (value : Nat)
  deriving DecidableEq, Repr

def OperandError.message : OperandError → String
  | .exceeds value bound =>
    "value " ++ Numeral.decimal value ++ " exceeds the maximum value " ++ Numeral.decimal bound
  | .noRegister value =>
    "No discriminant in enum `DataRegister` matches the value `" ++ Numeral.decimal value ++ "`"
  | .noKey value =>
    "No discriminant in enum `Key` matches the value `" ++ Numeral.decimal value ++ "`"

/-! ## digits and addresses -/

def Nibble.checked (value : Nat) : Except OperandError Nibble :=
  if h : value < 16 then .ok ⟨value, h⟩ else .error (.exceeds value 15)

/-- the low digit of a number -/
def Nibble.masked (value : Nat) : Nibble := Fin.ofNat 16 value

/-- the digit of an opcode at a place, place 0 being the most significant -/
def Nibble.ofOpcode (opcode : UInt16) (place : Fin 4) : Nibble :=
  Nibble.masked (opcode.toNat >>> (4 * (3 - place.val)))

def Address.checked (value : Nat) : Except OperandError Address :=
  if h : value < 4096 then .ok ⟨value, h⟩ else .error (.exceeds value 4095)

/-- the low three digits of an opcode -/
def Address.ofOpcode (opcode : UInt16) : Address := Fin.ofNat 4096 opcode.toNat

def Address.ofNibbles (high middle low : Nibble) : Address :=
  ⟨high.val * 256 + middle.val * 16 + low.val, by omega⟩

def byteOfNibbles (high low : Nibble) : UInt8 := UInt8.ofNat (high.val * 16 + low.val)

/-! ## words as bytes -/

/-- the two bytes of an opcode, the higher one first -/
def bytesOfOpcode (opcode : UInt16) : List UInt8 :=
  [UInt8.ofNat (opcode.toNat / 256), UInt8.ofNat opcode.toNat]

def opcodeOfBytes (high low : UInt8) : UInt16 := UInt16.ofNat (high.toNat * 256 + low.toNat)

theorem opcodeOfBytes_bytesOfOpcode (opcode : UInt16) :
    opcodeOfBytes (UInt8.ofNat (opcode.toNat / 256)) (UInt8.ofNat opcode.toNat) = opcode := by
  apply UInt16.toNat_inj.mp
  have h := opcode.toNat_lt
  simp only [opcodeOfBytes, UInt8.toNat_ofNat', UInt16.toNat_ofNat']
  omega

/-! ## registers -/

namespace Register

/-- the register that receives flags -/
def flag : Register := 15

def checked (value : Nat) : Except OperandError Register :=
  if h : value < 16 then .ok ⟨value, h⟩ else .error (.noRegister value)

def name (r : Register) : String := "V" ++ Numeral.hex r.val

def all : List Register := List.finRange 16

/-- the registers `V0` to `r` -/
def upTo (r : Register) : List Register := all.take (r.val + 1)

end Register

/-! ## keys -/

namespace Key

def checked (value : Nat) : Except OperandError Key :=
  if h : value < 16 then .ok ⟨value, h⟩ else .error (.noKey value)

def name (k : Key) : String := "K" ++ Numeral.hex k.val

def all : List Key := List.finRange 16

end Key

end Chip8
