import Chip8.Proofs.Screen.Draw

/-!
# Strict drawing: nothing out of range

Shifts and differences of numbers give some value in every case, and an index is made to fit by its
type.  Here they are strict: an index outside of its array, a slice that does not lie in it, a shift
by the width or more and a difference below zero break off, with nothing as the result.  Drawing is
written once more with strict operations only, and never breaks off.

* `element`, `replace`, `slice`             strict access to an array;
* `difference`, `shiftLeft`, `shiftRight`   strict arithmetic;
* `drawByte`, `drawRow`, `drawRows`         strict drawing;
* `draw_eq`                                 it draws what `Screen.draw` draws.
-/

namespace Chip8.Strict
variable {α : Type} {n : Nat}

/-! ## strict operations -/

def element (v : Vector α n) (i : Nat) : Option α := if h : i < n then some v[i] else none

def replace (v : Vector α n) (i : Nat) (a : α) : Option (Vector α n) :=
  if h : i < n then some (v.set i a) else none

/-- the elements `start` to `stop - 1` -/
def slice (v : Vector α n) (start stop : Nat) : Option (List α) :=
  if start ≤ stop ∧ stop ≤ n then some ((v.toList.take stop).drop start) else none

def difference (a b : Nat) : Option Nat := if b ≤ a then some (a - b) else none

def shiftLeft (byte : UInt8) (places : Nat) : Option UInt8 :=
  if places < 8 then some (byte <<< UInt8.ofNat places) else none

def shiftRight (byte : UInt8) (places : Nat) : Option UInt8 :=
  if places < 8 then some (byte >>> UInt8.ofNat places) else none

theorem element_of_lt (v : Vector α n) {i : Nat} (h : i < n) : element v i = some v[i] := dif_pos h

theorem replace_of_lt (v : Vector α n) {i : Nat} (a : α) (h : i < n) :
    replace v i a = some (v.set i a) := dif_pos h

theorem slice_of_le (v : Vector α n) {start stop : Nat} (h : start ≤ stop) (hn : stop ≤ n) :
    slice v start stop = some ((v.toList.take stop).drop start) := if_pos ⟨h, hn⟩

theorem difference_of_le {a b : Nat} (h : b ≤ a) : difference a b = some (a - b) := if_pos h

theorem shiftLeft_of_lt (byte : UInt8) {places : Nat} (h : places < 8) :
    shiftLeft byte places = some (UInt8.ofNat (byte.toNat <<< places)) := by
  have hp : places % 256 % 8 = places := by omega
  rw [shiftLeft, if_pos h, Option.some.injEq]
  apply UInt8.toNat_inj.mp
  rw [UInt8.toNat_shiftLeft, UInt8.toNat_ofNat', UInt8.toNat_ofNat', hp]

theorem shiftRight_of_lt (byte : UInt8) {places : Nat} (h : places < 8) :
    shiftRight byte places = some (UInt8.ofNat (byte.toNat >>> places)) := by
  have hp : places % 256 % 8 = places := by omega
  have hs : byte.toNat >>> places < 256 :=
    Nat.lt_of_le_of_lt (Nat.shiftRight_le byte.toNat places) byte.toNat_lt
  rw [shiftRight, if_pos h, Option.some.injEq]
  apply UInt8.toNat_inj.mp
  rw [UInt8.toNat_shiftRight, UInt8.toNat_ofNat', UInt8.toNat_ofNat', hp, Nat.mod_eq_of_lt hs]

/-! ## drawing -/

/-- flips the pixels of a byte, found by its column of bytes and its row -/
def drawByte (s : Screen) (column row : Nat) (bits : UInt8) : Option (Screen × Bool) := do
  let k := column + row * Screen.widthInBytes
  let byte ← element s.bytes k
  let bytes ← replace s.bytes k (byte ^^^ bits)
  return (⟨bytes⟩, byte &&& bits != 0)

/-- one row of a sprite at a pixel of the screen; what is left of it behind the byte of `x` goes
into the next byte, unless it starts at a byte -/
def drawRow (s : Screen) (x y : Nat) (row : UInt8) : Option (Screen × Bool) := do
  let offset := x % 8
  let left ← drawByte s (x / 8) y (← shiftRight row offset)
  if offset = 0 then return left
  let rest ← shiftLeft row (← difference 8 offset)
  let right ← drawByte left.1 ((x / 8 + 1) % Screen.widthInBytes) y rest
  return (right.1, left.2 || right.2)

/-- the rows of a sprite from the one with number `i` on -/
def drawRows (s : Screen) (x y i : Nat) : List UInt8 → Option (Screen × Bool)
  | [] => some (s, false)
  | row :: rest => do
    let first ← drawRow s x ((y + i) % Screen.height) row
    let others ← drawRows first.1 x y (i + 1) rest
    return (others.1, first.2 || others.2)

def draw (s : Screen) (x y : UInt8) (sprite : List UInt8) : Option (Screen × Bool) :=
  drawRows s (x.toNat % Screen.width) (y.toNat % Screen.height) 0 sprite

theorem drawByte_eq (s : Screen) {column row : Nat} (bits : UInt8) {k : Fin 256}
    (hk : column + row * Screen.widthInBytes = k.val) :
    drawByte s column row bits = some (s.flip k bits) := by
  unfold drawByte
  simp only [hk, element_of_lt s.bytes k.isLt, replace_of_lt s.bytes _ k.isLt]
  rfl

theorem drawRow_eq (s : Screen) (x y : Nat) (row : UInt8) :
    drawRow s (x % Screen.width) (y % Screen.height) row = some (s.drawRow x y row) := by
  have hl : x % 64 / 8 + y % 32 * 8 = (Screen.cell x y).val := by
    simp only [Screen.cell]
    omega
  have hr : (x % 64 / 8 + 1) % Screen.widthInBytes + y % 32 * Screen.widthInBytes =
      (Screen.cell (x + 8) y).val := by
    simp only [Screen.cell, Screen.widthInBytes]
    omega
  have ho : x % 64 % 8 = x % 8 := by omega
  have h8 : x % 8 < 8 := Nat.mod_lt x (by omega)
  unfold drawRow Screen.width Screen.height
  simp only [ho, shiftRight_of_lt row h8, drawByte_eq s _ hl]
  by_cases hz : x % 8 = 0
  · -- at a byte the row fits into it, a shift by eight would be too large
    rw [s.drawRow_of_aligned y row hz]
    simp [hz]
  · have hs : 8 - x % 8 < 8 := by omega
    simp only [hz, if_false, difference_of_le (Nat.le_of_lt h8), Option.bind_eq_bind,
      Option.bind_some, shiftLeft_of_lt row hs, drawByte_eq _ _ hr]
    rfl

theorem drawRows_eq (s : Screen) (x y i : Nat) (sprite : List UInt8) :
    drawRows s (x % Screen.width) (y % Screen.height) i sprite = some (s.draw x (y + i) sprite) := by
  induction sprite generalizing s i with
  | nil => rfl
  | cons row rest ih =>
    have hy : (y % Screen.height + i) % Screen.height = (y + i) % Screen.height :=
      Nat.mod_add_mod y Screen.height i
    rw [drawRows, hy, drawRow_eq]
    simp only [Option.bind_eq_bind, Option.bind_some, ih]
    rfl

/-- **Drawing stays in range**: no index, no shift and no difference breaks off. -/
theorem draw_eq (s : Screen) (x y : UInt8) (sprite : List UInt8) :
    draw s x y sprite = some (s.draw x.toNat y.toNat sprite) := drawRows_eq s x.toNat y.toNat 0 sprite

end Chip8.Strict
