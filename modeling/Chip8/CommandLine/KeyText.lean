import Chip8.Operand

/-!
# Keys as text

A key is written as a hexadecimal number.  Marks in front of it are dropped: first every `0x`, then
every `0X`.

* `Key.ofText`    the key of a text, or why it names none.
-/

namespace Chip8

inductive KeyTextError
  | unreadable (text : String) (reason : Numeral.ReadError)
  | noSuchKey (text : String)
  deriving DecidableEq, Repr

def KeyTextError.message : KeyTextError → String
  | .unreadable text reason => text ++ ": " ++ reason.message
  | .noSuchKey text => text ++ " is not a key of the hex keypad"

/-- drops every mark at the front, a mark being a zero and the letter `x` -/
def dropMarks (x : Char) : List Char → List Char
  | '0' :: c :: rest => if c = x then dropMarks x rest else '0' :: c :: rest
  | cs => cs

def keyDigits (cs : List Char) : List Char := dropMarks 'X' (dropMarks 'x' cs)

def Key.ofText (text : String) : Except KeyTextError Key :=
  match Numeral.read 16 255 (keyDigits text.toList) with
  | .error reason => .error (.unreadable text reason)
  | .ok value => if h : value < 16 then .ok ⟨value, h⟩ else .error (.noSuchKey text)

end Chip8
