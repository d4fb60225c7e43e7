import Chip8.Font

/-!
# Memory: 4096 bytes

The font stands at the start, a program is loaded at `programStart` and may take the rest.

* `byte`         the byte at an address;
* `write`        bytes put down from an address on;
* `Covers`       a range of addresses lies in memory, which is asked before every access;
* `ofProgram`    the memory a program starts with.
-/

namespace Chip8

structure Memory where
  cells : Vector UInt8 4096
  deriving DecidableEq

namespace Memory

def size : Nat := 4096

def programStart : Nat := 0x200

def maxProgramLength : Nat := size - programStart

/-- the byte at an address; there is nothing but zeros behind the end -/
def byte (m : Memory) (address : Nat) : UInt8 := m.cells[address]?.getD 0

def set (m : Memory) (address : Nat) (value : UInt8) : Memory :=
  ⟨m.cells.setIfInBounds address value⟩

def write (m : Memory) (start : Nat) : List UInt8 → Memory
  | [] => m
  | value :: rest => (m.set start value).write (start + 1) rest

def read (m : Memory) (start count : Nat) : List UInt8 :=
  (List.range count).map fun k => m.byte (start + k)

/-- the addresses `start` to `start + count - 1` lie in memory -/
def Covers (start count : Nat) : Prop := start + count ≤ size

instance (start count : Nat) : Decidable (Covers start count) :=
  inferInstanceAs (Decidable (start + count ≤ size))

def zeros : Memory := ⟨Vector.replicate 4096 0⟩

def initial : Memory := zeros.write 0 Font.bytes

def ofProgram (program : List UInt8) : Memory := initial.write programStart program

theorem length_font_le : Font.bytes.length ≤ programStart := by
  rw [Font.length_bytes]
  decide

/-- the addresses, with the new bytes, at which a memory differs from an older one -/
def changes (old new : Memory) : List (Nat × UInt8) :=
  (List.range size).filterMap fun address =>
    if old.byte address = new.byte address then none else some (address, new.byte address)

/-! ## the operations through `byte` -/

/-- a memory is known by its bytes -/
theorem ext_byte {m n : Memory} (h : ∀ address < size, m.byte address = n.byte address) :
    m = n := by
  obtain ⟨a⟩ := m
  obtain ⟨b⟩ := n
  congr 1
  apply Vector.ext
  intro i hi
  have := h i hi
  simpa [byte, hi] using this

theorem byte_set (m : Memory) (address : Nat) (value : UInt8) (k : Nat) :
    (m.set address value).byte k = if k = address ∧ k < size then value else m.byte k := by
  unfold byte set size
  simp only [Vector.getElem?_setIfInBounds]
  by_cases hk : k < 4096
  · by_cases h : address = k
    · simp [h, hk]
    · simp [h, hk, Ne.symm h]
  · by_cases h : address = k
    · simp [h, hk]
    · simp [h, hk]

/-- a byte of a written range is the byte put there, every other one is as before -/
theorem byte_write (m : Memory) (start : Nat) (values : List UInt8) (k : Nat) :
    (m.write start values).byte k =
      if start ≤ k ∧ k < start + values.length ∧ k < size then values.getD (k - start) 0
      else m.byte k := by
  induction values generalizing m start with
  | nil => simp [write]; omega
  | cons value rest ih =>
    rw [write, ih, byte_set]
    by_cases hk : k < size
    · by_cases h : start = k
      · subst h
        simp only [List.length_cons, Nat.sub_self, List.getD_cons_zero]
        rw [if_neg (by omega), if_pos ⟨trivial, hk⟩, if_pos (by omega)]
      · by_cases hr : start + 1 ≤ k ∧ k < start + 1 + rest.length
        · have e : k - start = (k - (start + 1)) + 1 := by omega
          simp only [List.length_cons]
          rw [if_pos ⟨hr.1, hr.2, hk⟩, if_pos ⟨by omega, by omega, hk⟩, e]
          simp
        · simp only [List.length_cons]
          rw [if_neg (by omega), if_neg (by omega), if_neg (by omega)]
    · rw [if_neg (by omega), if_neg (by omega), if_neg (by omega)]

@[simp] theorem length_read (m : Memory) (start count : Nat) :
    (m.read start count).length = count := by
  simp [read]

end Memory

end Chip8
