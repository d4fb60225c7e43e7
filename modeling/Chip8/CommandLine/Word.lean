import Chip8.CommandLine.Setting

/-!
# The words of the command line

A value stands behind an equals sign in the word of its option, or behind the letter of a short
option, or in a word of its own.  A word that starts with a dash is always an option, never the
value of one.

* `Word.ofText`    what kind of word a word is.
-/

namespace Chip8.CommandLine

inductive Word
  | endOfOptions
  /-- an option, with its value if that stands in the same word -/
  | setting (s : Setting) (value : Option String)
  | inquiry (i : Inquiry) (value : Option String)
  | unknownOption (name : String)
  /-- the value of an option, or the file -/
  | plain (text : String)
  deriving DecidableEq, Repr

namespace Word

def ofLong (cs : List Char) : Word :=
  let name := String.ofList (cs.takeWhile (· != '='))
  let value :=
    match cs.dropWhile (· != '=') with
    | [] => none
    | _ :: value => some (String.ofList value)
  match Setting.all.find? (·.long == name), Inquiry.all.find? (·.long == name) with
  | some s, _ => .setting s value
  | none, some i => .inquiry i value
  | none, none => .unknownOption ("--" ++ name)

/-- an option with one dash in front; what follows the letter of an inquiry does not matter -/
def ofShort (letter : Char) (cs : List Char) : Word :=
  match Setting.all.find? (·.short == letter), Inquiry.all.find? (·.short == letter) with
  | some s, _ =>
    match cs with
    | [] => .setting s none
    | '=' :: value => .setting s (some (String.ofList value))
    | value => .setting s (some (String.ofList value))
  | none, some i => .inquiry i none
  | none, none => .unknownOption (String.ofList ['-', letter])

/-- a lone dash is a plain word, every other word with a dash in front is an option -/
def ofText (text : String) : Word :=
  match text.toList with
  | ['-', '-'] => .endOfOptions
  | '-' :: '-' :: cs => .ofLong cs
  | '-' :: letter :: cs => .ofShort letter cs
  | _ => .plain text

end Word

end Chip8.CommandLine
