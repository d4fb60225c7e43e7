import Chip8.Numeral
import Chip8.Text.ExtendingMark
import Chip8.Text.Unprintable

/-!
# Quoted text

A text between quotation marks, as error messages cite it: what stands between them can be read on
one line, and each of its characters is seen.  Quotation marks and backslashes are written behind a
backslash, the blanks that break or end a line by their letters, and all else that has no form of
its own by its number.
-/

namespace Chip8.Text

def byNumber (c : Char) : List Char :=
  "\\u\x7b".toList ++ Numeral.digits 16 .lower c.toNat ++ "\x7d".toList

def quotedChar (c : Char) : List Char :=
  if c = '"' ∨ c = '\\' then ['\\', c]
  else if c = '\n' then ['\\', 'n']
  else if c = '\r' then ['\\', 'r']
  else if c = '\t' then ['\\', 't']
  else if c.toNat = 0 then ['\\', '0']
  else if isExtendingMark c || isUnprintable c then byNumber c
  else [c]

def quoted (text : String) : String :=
  "\"" ++ String.ofList (text.toList.flatMap quotedChar) ++ "\""

end Chip8.Text
