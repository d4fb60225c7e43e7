import Chip8.Numeral

/-!
# The screen: 64 by 32 pixels, eight of them packed into a byte

The bytes of a row stand one after the other, and in a byte the leftmost pixel is the highest bit.
Sprites are eight pixels wide; a row of a sprite covers two neighbouring bytes unless it starts at
a byte, and both directions wrap around.  `pixel` is the view through which everything about the
packed form is said.

* `pixel`                        one pixel, for any coordinates;
* `draw`                         a sprite drawn by exclusive or, and whether it hit a lit pixel;
* `rows`, `picture`, `listing`   the screen row by row, as lines of text, as a list of bytes.
-/

namespace Chip8

structure Screen where
  bytes : Vector UInt8 256
  deriving DecidableEq

namespace Screen

def width : Nat := 64

def height : Nat := 32

def widthInBytes : Nat := 8

def blank : Screen := ⟨Vector.replicate 256 0⟩

instance : Inhabited Screen := ⟨blank⟩

/-! ## pixels -/

/-- the byte that holds the pixel at `x`, `y`; coordinates off the screen wrap around -/
def cell (x y : Nat) : Fin 256 := ⟨8 * (y % 32) + x % 64 / 8, by omega⟩

def pixel (s : Screen) (x y : Nat) : Bool := s.bytes[cell x y].toNat.testBit (7 - x % 8)

def isBlank (s : Screen) : Bool := s.bytes.toList.all (· == 0)

/-! ## drawing -/

/-- flips the pixels of a byte where `bits` is set; also says whether one of them was on -/
def flip (s : Screen) (k : Fin 256) (bits : UInt8) : Screen × Bool :=
  (⟨s.bytes.set k (s.bytes[k] ^^^ bits)⟩, s.bytes[k] &&& bits != 0)

/-- draws one row of a sprite: its upper bits fall into the byte of `x`, what is left of it into
the next byte of the row -/
def drawRow (s : Screen) (x y : Nat) (row : UInt8) : Screen × Bool :=
  let left := s.flip (cell x y) (UInt8.ofNat (row.toNat >>> (x % 8)))
  let right := left.1.flip (cell (x + 8) y) (UInt8.ofNat (row.toNat <<< (8 - x % 8)))
  (right.1, left.2 || right.2)

/-- draws the rows of a sprite below each other, with `x`, `y` as the upper left corner; also says
whether a pixel that was on has been hit -/
def draw (s : Screen) (x y : Nat) : List UInt8 → Screen × Bool
  | [] => (s, false)
  | row :: rest =>
    let first := s.drawRow x y row
    let others := first.1.draw x (y + 1) rest
    (others.1, first.2 || others.2)

@[simp] theorem draw_nil (s : Screen) (x y : Nat) : s.draw x y [] = (s, false) := rfl

/-- a sprite in two parts is drawn part by part, the flags are joined -/
theorem draw_append (s : Screen) (x y : Nat) (a b : List UInt8) :
    s.draw x y (a ++ b) =
      (((s.draw x y a).1.draw x (y + a.length) b).1,
        (s.draw x y a).2 || ((s.draw x y a).1.draw x (y + a.length) b).2) := by
  induction a generalizing s y with
  | nil => simp
  | cons row rest ih =>
    simp only [List.cons_append, draw, ih, List.length_cons, Bool.or_assoc]
    rw [show y + 1 + rest.length = y + (rest.length + 1) by omega]

/-! ## views -/

def bits (byte : UInt8) : List Bool :=
  (List.range 8).reverse.map fun i => byte.toNat.testBit i

def rowBytes (s : Screen) (y : Nat) : List UInt8 := (s.bytes.toList.drop (8 * y)).take 8

def rows (s : Screen) : List (List Bool) :=
  (List.range 32).map fun y => (s.rowBytes y).flatMap bits

def mark (lit : Bool) : Char := if lit then '#' else '_'

def picture (s : Screen) : String :=
  "Screen(\n" ++ String.ofList (s.rows.flatMap fun row => row.map mark ++ ['\n']) ++ ")"

def listing (s : Screen) : String :=
  "Screen([" ++ ", ".intercalate (s.bytes.toList.map fun b => Numeral.decimal b.toNat) ++ "])"

/-- the rows, with their bytes, in which a screen differs from an older one -/
def changedRows (old new : Screen) : List (Nat × List UInt8) :=
  (List.range 32).filterMap fun y =>
    if old.rowBytes y = new.rowBytes y then none else some (y, new.rowBytes y)

end Screen

end Chip8
