import Chip8.Operand

/-!
# The built-in font

One glyph for each hexadecimal digit, four pixels wide and five rows high.  The glyphs stand at
the start of memory, one behind the other.
-/

namespace Chip8.Font

/-- rows, and so bytes, of a glyph -/
def glyphHeight : Nat := 5

def bytes : List UInt8 := [
  0xF0, 0x90, 0x90, 0x90, 0xF0,
  0x20, 0x60, 0x20, 0x20, 0x70,
  0xF0, 0x10, 0xF0, 0x80, 0xF0,
  0xF0, 0x10, 0xF0, 0x10, 0xF0,
  0x90, 0x90, 0xF0, 0x10, 0x10,
  0xF0, 0x80, 0xF0, 0x10, 0xF0,
  0xF0, 0x80, 0xF0, 0x90, 0xF0,
  0xF0, 0x10, 0x20, 0x40, 0x40,
  0xF0, 0x90, 0xF0, 0x90, 0xF0,
  0xF0, 0x90, 0xF0, 0x10, 0xF0,
  0xF0, 0x90, 0xF0, 0x90, 0x90,
  0xE0, 0x90, 0xE0, 0x90, 0xE0,
  0xF0, 0x80, 0x80, 0x80, 0xF0,
  0xE0, 0x90, 0x90, 0x90, 0xE0,
  0xF0, 0x80, 0xF0, 0x80, 0xF0,
  0xF0, 0x80, 0xF0, 0x80, 0x80]

def address (digit : Nibble) : UInt16 := UInt16.ofNat (glyphHeight * digit.val)

/-- sixteen glyphs of five rows -/
theorem length_bytes : bytes.length = 16 * glyphHeight := rfl

end Chip8.Font
