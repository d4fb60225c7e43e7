import Chip8.Instruction.Basic

/-!
# Mnemonics: instructions as assembly text

A name, then the operands behind a blank, with a comma between them.  Addresses and bytes are
written in hexadecimal with a fixed number of digits, the rows of a sprite in decimal.

* `Instruction.text`    the line of assembly for an instruction.
-/

namespace Chip8

def Address.text (address : Address) : String := Numeral.hexMarked 3 address.val

def byteText (byte : UInt8) : String := Numeral.hexMarked 2 byte.toNat

def mnemonic (name : String) (operands : List String) : String :=
  match operands with
  | [] => name
  | _ => name ++ " " ++ ", ".intercalate operands

def Condition.text : Condition → String
  | .equalsConstant x constant => mnemonic "SE" [x.name, byteText constant]
  | .differsFromConstant x constant => mnemonic "SNE" [x.name, byteText constant]
  | .equals x y => mnemonic "SE" [x.name, y.name]
  | .differs x y => mnemonic "SNE" [x.name, y.name]
  | .pressed x => mnemonic "SKP" [x.name]
  | .notPressed x => mnemonic "SKNP" [x.name]

def Arithmetic.name : Arithmetic → String
  | .copy => "LD"
  | .or => "OR"
  | .and => "AND"
  | .xor => "XOR"
  | .add => "ADD"
  | .subtract => "SUB"
  | .subtractFrom => "SUBN"

def Shift.name : Shift → String
  | .right => "SHR"
  | .left => "SHL"

def Instruction.text : Instruction → String
  | .systemJump target => mnemonic "SYS" [target.text]
  | .clearScreen => mnemonic "CLS" []
  | .ret => mnemonic "RET" []
  | .jump target => mnemonic "JP" [target.text]
  | .call target => mnemonic "CALL" [target.text]
  | .skip condition => condition.text
  | .setConstant x constant => mnemonic "LD" [x.name, byteText constant]
  | .addConstant x constant => mnemonic "ADD" [x.name, byteText constant]
  | .combine operation x y => mnemonic operation.name [x.name, y.name]
  | .shift direction x => mnemonic direction.name [x.name]
  | .setIndex address => mnemonic "LD" ["I", address.text]
  | .jumpOffset address => mnemonic "JP" ["V0", address.text]
  | .random x mask => mnemonic "RND" [x.name, byteText mask]
  | .draw x y rows => mnemonic "DRW" [x.name, y.name, Numeral.decimal rows.val]
  | .readDelay x => mnemonic "LD" [x.name, "DT"]
  | .awaitKey x => mnemonic "LD" [x.name, "K"]
  | .setDelay x => mnemonic "LD" ["DT", x.name]
  | .setSound x => mnemonic "LD" ["ST", x.name]
  | .addIndex x => mnemonic "ADD" ["I", x.name]
  | .pointAtGlyph x => mnemonic "LD" ["F", x.name]
  | .storeDecimal x => mnemonic "LD" ["B", x.name]
  | .storeRegisters last => mnemonic "LD" ["[I]", last.name]
  | .loadRegisters last => mnemonic "LD" [last.name, "[I]"]

end Chip8
