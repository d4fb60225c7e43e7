/-!
# Numerals: how numbers are written and read

A number is written in a base from 2 to 16, most significant digit first, with no leading zero but
the lone `0`.  `Format` says how the digits become a field of text: the case of the letters, a
`0x` in front, and what fills the field up to its width.

* `render`            the text of a number in a format;
* `decimal`, `hex`    the two bare formats, and `hexPadded` for a fixed number of digits;
* `read`              a number at most `bound` from its digits, with the reason if there is none.
-/

namespace Chip8.Numeral

/-! ## writing -/

inductive Letters
  | lower
  | upper
  deriving DecidableEq, Repr

/-- what a field is filled up with: zeros stand between the mark and the digits, blanks outside
of both -/
inductive Fill
  | zeros
  | blanksBefore
  | blanksAfter
  deriving DecidableEq, Repr

structure Format where
  base : Nat := 10
  letters : Letters := .lower
  /-- a `0x` stands in front of the digits -/
  marked : Bool := false
  fill : Fill := .blanksBefore
  /-- the least number of characters of the field, the mark included -/
  width : Nat := 0
  deriving DecidableEq, Repr

def digits (base : Nat) (letters : Letters) (n : Nat) : List Char :=
  match letters with
  | .lower => Nat.toDigits base n
  | .upper => (Nat.toDigits base n).map Char.toUpper

/-- the field of text that `fmt` makes of a number -/
def Format.characters (fmt : Format) (n : Nat) : List Char :=
  let mark := if fmt.marked then ['0', 'x'] else []
  let ds := digits fmt.base fmt.letters n
  let missing := fmt.width - (mark.length + ds.length)
  match fmt.fill with
  | .zeros => mark ++ List.replicate missing '0' ++ ds
  | .blanksBefore => List.replicate missing ' ' ++ mark ++ ds
  | .blanksAfter => mark ++ ds ++ List.replicate missing ' '

def Format.render (fmt : Format) (n : Nat) : String := String.ofList (fmt.characters n)

def decimal (n : Nat) : String := Format.render {} n

def hex (n : Nat) : String := Format.render { base := 16, letters := .upper } n

def hexPadded (count n : Nat) : String :=
  Format.render { base := 16, letters := .upper, fill := .zeros, width := count } n

/-- a `0x` and at least `count` hexadecimal digits with capital letters -/
def hexMarked (count n : Nat) : String :=
  Format.render
    { base := 16, letters := .upper, marked := true, fill := .zeros, width := count + 2 } n

/-! ## reading -/

/-- why a text is no number within the bound -/
inductive ReadError
  | empty
  | invalidDigit
  | tooLarge
  deriving DecidableEq, Repr

def ReadError.message : ReadError → String
  | .empty => "cannot parse integer from empty string"
  | .invalidDigit => "invalid digit found in string"
  | .tooLarge => "number too large to fit in target type"

/-- the value of a digit, letters in either case -/
def digitValue? (base : Nat) (c : Char) : Option Nat :=
  let value? :=
    if '0' ≤ c ∧ c ≤ '9' then some (c.toNat - '0'.toNat)
    else if 'a' ≤ c ∧ c ≤ 'f' then some (c.toNat - 'a'.toNat + 10)
    else if 'A' ≤ c ∧ c ≤ 'F' then some (c.toNat - 'A'.toNat + 10)
    else none
  value?.filter (· < base)

/-- reads the digits after those that made `value`; at each one it must be a digit first, and
only then is the number compared with the bound -/
def readDigits (base bound value : Nat) : List Char → Except ReadError Nat
  | [] => .ok value
  | c :: rest =>
    match digitValue? base c with
    | none => .error .invalidDigit
    | some d =>
      if bound < value * base + d then .error .tooLarge
      else readDigits base bound (value * base + d) rest

/-- reads a number at most `bound`; one plus sign may stand in front, a sign alone is no number -/
def read (base bound : Nat) : List Char → Except ReadError Nat
  | [] => .error .empty
  | ['+'] => .error .invalidDigit
  | '+' :: rest => readDigits base bound 0 rest
  | cs => readDigits base bound 0 cs

end Chip8.Numeral
