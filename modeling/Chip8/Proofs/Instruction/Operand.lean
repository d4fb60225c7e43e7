import Mathlib.Data.List.FinRange
import Chip8.Instruction.Mnemonic
import Chip8.Proofs.Instruction.Opcode
import Chip8.Proofs.Numeral

/-!
# Operands in assembly

An operand of an instruction is written as a register, as a number or as a word.  Bytes and
addresses begin with a mark, and are told apart by how many digits they have; whatever else there is
has no mark, and is so little that it can be looked up.

* `Reads`                        reading that takes just what is written, as what it was;
* `lookUp`, `reads_mapM`         reading one of finitely many things, and a list of things;
* `Operand`, `Operand.text`      an operand, and how it is written;
* `Operand.ofChars?`             the operand that is written like this;
* `Operand.reads`                these two belong together.
-/

namespace Chip8

/-! ## reading what is written -/

section
variable {α β : Type} {read : β → Option α} {write : α → β}

/-- what is written is read as what it was, and nothing else is read -/
def Reads (read : β → Option α) (write : α → β) : Prop := ∀ b a, read b = some a ↔ b = write a

theorem Reads.injective (h : Reads read write) : Function.Injective write := by
  intro a b he
  have ha := (h (write a) a).mpr rfl
  have hb := (h (write a) b).mpr he
  exact Option.some.inj (ha.symm.trans hb)

/-- what is written one after the other is read one after the other -/
theorem reads_mapM (h : Reads read write) : Reads (List.mapM read) (List.map write) := by
  intro bs as
  induction bs generalizing as with
  | nil => cases as <;> simp
  | cons b bs ih =>
    rw [List.mapM_cons]
    cases as with
    | nil => simp [Option.bind_eq_some_iff]
    | cons a as => simp [Option.bind_eq_some_iff, h b, ih]

variable [DecidableEq β]

/-- the one among finitely many things that is written like this -/
def lookUp (write : α → β) (all : List α) (b : β) : Option α := all.find? fun a => write a = b

/-- **Things that are written differently are found by how they are written.** -/
theorem lookUp_eq_some_iff {all : List α} (h : (all.map write).Nodup) {a : α} {b : β} :
    lookUp write all b = some a ↔ a ∈ all ∧ b = write a := by
  unfold lookUp
  constructor
  · intro hf
    have he : write a = b := by simpa using List.find?_some hf
    exact ⟨List.mem_of_find?_eq_some hf, he.symm⟩
  · rintro ⟨ha, rfl⟩
    have hs : (all.find? fun c => write c = write a).isSome :=
      List.find?_isSome.mpr ⟨a, ha, by simp⟩
    obtain ⟨c, hc⟩ := Option.isSome_iff_exists.mp hs
    have he : write c = write a := by simpa using List.find?_some hc
    rw [hc, List.inj_on_of_nodup_map h (List.mem_of_find?_eq_some hc) ha he]

/-- looked up among all things there are -/
theorem reads_lookUp {all : List α} (h : (all.map write).Nodup) (ha : ∀ a, a ∈ all) :
    Reads (lookUp write all) write :=
  fun _ a => (lookUp_eq_some_iff h).trans (and_iff_right (ha a))

end

/-! ## operands -/

/-- what an operand names by a word -/
inductive Keyword
  | index
  /-- the memory behind the index -/
  | block
  | delay
  | sound
  | key
  | glyph
  | decimal
  deriving DecidableEq, Repr

def Keyword.text : Keyword → String
  | .index => "I"
  | .block => "[I]"
  | .delay => "DT"
  | .sound => "ST"
  | .key => "K"
  | .glyph => "F"
  | .decimal => "B"

def Keyword.all : List Keyword := [.index, .block, .delay, .sound, .key, .glyph, .decimal]

inductive Operand
  | register (x : Register)
  | rows (count : Nibble)
  | keyword (word : Keyword)
  | byte (value : UInt8)
  | address (value : Address)
  deriving DecidableEq, Repr

namespace Operand
open Numeral

def text : Operand → String
  | .register x => x.name
  | .rows count => decimal count.val
  | .keyword word => word.text
  | .byte value => byteText value
  | .address value => value.text

/-- the characters of the text -/
def chars (o : Operand) : List Char := o.text.toList

/-! ## how operands are written -/

theorem chars_byte (high low : Nibble) :
    (byte (byteOfNibbles high low)).chars = '0' :: 'x' :: [high, low].map hexDigit := by
  have hv : (byteOfNibbles high low).toNat = ofHexDigits [high, low] := by
    show (UInt8.ofNat (high.val * 16 + low.val)).toNat = 16 * (16 * 0 + high.val) + low.val
    rw [UInt8.toNat_ofNat']
    omega
  rw [← toList_hexMarked (List.cons_ne_nil high [low]), ← hv]
  rfl

theorem chars_address (high middle low : Nibble) :
    (address (Address.ofNibbles high middle low)).chars =
      '0' :: 'x' :: [high, middle, low].map hexDigit := by
  have hv : (Address.ofNibbles high middle low).val = ofHexDigits [high, middle, low] := by
    show high.val * 256 + middle.val * 16 + low.val =
      16 * (16 * (16 * 0 + high.val) + middle.val) + low.val
    omega
  rw [← toList_hexMarked (List.cons_ne_nil high [middle, low]), ← hv]
  rfl

/-! ## reading operands -/

def hexDigit? : Char → Option Nibble := lookUp hexDigit (List.finRange 16)

theorem reads_hexDigit : Reads hexDigit? hexDigit := reads_lookUp (by decide) List.mem_finRange

/-- the number that marked digits stand for; how many there are says what it is for -/
def ofNibbles? : List Nibble → Option Operand
  | [high, low] => some (.byte (byteOfNibbles high low))
  | [high, middle, low] => some (.address (Address.ofNibbles high middle low))
  | _ => none

/-- the operands without a mark: registers, rows of a sprite and words -/
def unmarked : List Operand :=
  (List.finRange 16).map .register ++ (List.finRange 16).map .rows ++ Keyword.all.map .keyword

def ofChars? : List Char → Option Operand
  | '0' :: 'x' :: digits => (digits.mapM hexDigit?).bind ofNibbles?
  | cs => lookUp chars unmarked cs

theorem nodup_unmarked : (unmarked.map chars).Nodup := by decide

theorem not_marked {o : Operand} (h : o ∈ unmarked) (digits : List Char) :
    o.chars ≠ '0' :: 'x' :: digits := by
  have hm : ∀ o ∈ unmarked, o.chars.take 2 ≠ ['0', 'x'] := by decide
  exact fun he => hm o h (congrArg (List.take 2) he)

theorem chars_of_ofNibbles? {ns : List Nibble} {o : Operand} (h : ofNibbles? ns = some o) :
    o.chars = '0' :: 'x' :: ns.map hexDigit := by
  unfold ofNibbles? at h
  split at h
  · cases h
    exact chars_byte _ _
  · cases h
    exact chars_address _ _ _
  · cases h

/-- an operand has no mark, or it is a number with its digits behind the mark -/
theorem mem_unmarked_or (o : Operand) : o ∈ unmarked ∨ ∃ ns, ofNibbles? ns = some o := by
  cases o with
  | register x => exact .inl (by simp [unmarked])
  | rows count => exact .inl (by simp [unmarked])
  | keyword word => exact .inl (by cases word <;> simp [unmarked, Keyword.all])
  | byte value =>
    obtain ⟨high, low, rfl⟩ := exists_byteOfNibbles value
    exact .inr ⟨[high, low], rfl⟩
  | address value =>
    obtain ⟨high, middle, low, rfl⟩ := value.exists_ofNibbles
    exact .inr ⟨[high, middle, low], rfl⟩

/-- **An operand is read from its text, and from no other.** -/
theorem reads : Reads ofChars? chars := by
  intro cs o
  unfold ofChars?
  split
  · next digits =>
    -- a mark: the digits are known one by one, and their number decides
    constructor
    · intro h
      obtain ⟨ns, hd, ho⟩ := Option.bind_eq_some_iff.mp h
      rw [(reads_mapM reads_hexDigit digits ns).mp hd, chars_of_ofNibbles? ho]
    · intro h
      obtain hu | ⟨ns, ho⟩ := o.mem_unmarked_or
      · exact absurd h.symm (not_marked hu digits)
      · rw [chars_of_ofNibbles? ho] at h
        have hd : digits = ns.map hexDigit := (List.cons.inj (List.cons.inj h).2).2
        rw [(reads_mapM reads_hexDigit digits ns).mpr hd]
        exact ho
  · next hm =>
    -- no mark, so it cannot have been a byte or an address
    rw [lookUp_eq_some_iff nodup_unmarked]
    refine and_iff_right_of_imp fun h => ?_
    obtain hu | ⟨ns, ho⟩ := o.mem_unmarked_or
    · exact hu
    · exact absurd (h.trans (chars_of_ofNibbles? ho)) (hm _)

/-- no text of an operand has a comma in it -/
theorem comma_notMem_chars (o : Operand) : ',' ∉ o.chars := by
  obtain hu | ⟨ns, ho⟩ := o.mem_unmarked_or
  · have hc : ∀ o ∈ unmarked, ',' ∉ o.chars := by decide
    exact hc o hu
  · have hd : ∀ d : Nibble, hexDigit d ≠ ',' := by decide
    rw [chars_of_ofNibbles? ho]
    intro h
    simp [hd] at h

end Operand

end Chip8
