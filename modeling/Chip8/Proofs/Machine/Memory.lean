import Chip8.Proofs.Machine.Frame
import Chip8.Proofs.Machine.Strict

/-!
# What stands in memory, address by address

A machine starts with the font, its program and zeros.  From then on two instructions write memory:
one puts the decimal digits of a register behind the index, the other the registers themselves.

* `Memory.image`            the byte at an address before the first instruction;
* `byte_ofProgram`          so it is in the memory of a program that fits;
* `Instruction.stores?`     the byte that an instruction puts at an address, if it puts one there;
* `byte_execute`            behind an instruction an address holds that byte, or what it held before.
-/

namespace Chip8

/-! ## before the first instruction -/

namespace Memory

/-- the byte at an address before the first instruction: the font, the program, or nothing -/
def image (program : List UInt8) (address : Nat) : UInt8 :=
  if address < Font.bytes.length then Font.bytes.getD address 0
  else if programStart ≤ address ∧ address < programStart + program.length then
    program.getD (address - programStart) 0
  else 0

theorem byte_zeros (address : Nat) : zeros.byte address = 0 := by
  unfold zeros byte
  by_cases h : address < 4096
  · simp [h]
  · simp [h]

theorem byte_initial (address : Nat) :
    initial.byte address = if address < Font.bytes.length then Font.bytes.getD address 0 else 0 := by
  rw [initial, byte_write, byte_zeros]
  by_cases h : address < Font.bytes.length
  · have hs : address < size := Nat.lt_trans h (by decide)
    rw [if_pos h, if_pos ⟨Nat.zero_le _, by omega, hs⟩, Nat.sub_zero]
  · rw [if_neg h, if_neg (by omega)]

/-- **The memory of a program that fits is its image.** -/
theorem byte_ofProgram {program : List UInt8} (h : program.length ≤ maxProgramLength)
    (address : Nat) : (ofProgram program).byte address = image program address := by
  have hf := length_font_le
  have hl : programStart + program.length ≤ size := Nat.add_le_of_le_sub' (by decide) h
  rw [ofProgram, byte_write, byte_initial, image]
  by_cases hp : programStart ≤ address ∧ address < programStart + program.length
  · rw [if_pos ⟨hp.1, hp.2, by omega⟩, if_neg (by omega), if_pos hp]
  · rw [if_neg (by omega), if_neg hp]

end Memory

/-! ## what an instruction puts in memory -/

/-- a decimal digit of a byte, the one with number 0 being that of the hundreds -/
def decimalDigit (value : UInt8) (number : Nat) : UInt8 :=
  UInt8.ofNat (value.toNat / Nat.pow 10 (2 - number) % 10)

/-- the byte that the instruction puts at an address, if it puts one there: the digits of a register
stand behind the index one after the other, and so do the registers -/
def Instruction.stores? (m : Machine) (address : Nat) : Instruction → Option UInt8
  | .storeDecimal x =>
    if m.index.toNat ≤ address ∧ address < m.index.toNat + 3 then
      some (decimalDigit (m.register x) (address - m.index.toNat))
    else none
  | .storeRegisters last =>
    if h : m.index.toNat ≤ address ∧ address < m.index.toNat + (last.val + 1) then
      some (m.register ⟨address - m.index.toNat, by omega⟩)
    else none
  | _ => none

theorem getD_decimalDigits (value : UInt8) {number : Nat} (h : number < 3) :
    (decimalDigits value).getD number 0 = decimalDigit value number := by
  have hv := value.toNat_lt
  apply UInt8.toNat_inj.mp
  match number, h with
  | 0, _ => simp [decimalDigits, decimalDigit]; omega
  | 1, _ => simp [decimalDigits, decimalDigit]; omega
  | 2, _ => simp [decimalDigits, decimalDigit]; omega

theorem getD_registersUpTo (m : Machine) (last : Register) {number : Nat} (hn : number < 16)
    (h : number ≤ last.val) : (m.registersUpTo last).getD number 0 = m.register ⟨number, hn⟩ := by
  have hl : number < last.val + 1 := Nat.lt_succ_of_le h
  have hb : number < Register.all.length := by
    rw [Register.all, List.length_finRange]
    exact hn
  have hx : Register.all[number]? = some ⟨number, hn⟩ :=
    List.getElem?_eq_some_iff.mpr ⟨hb, List.getElem_finRange _⟩
  rw [List.getD_eq_getElem?_getD, Machine.registersUpTo, List.getElem?_map, Register.upTo,
    List.getElem?_take_of_lt hl, hx]
  rfl

theorem stores?_of_not_writes {i : Instruction} (h : i.writes .memory = false) (m : Machine)
    (address : Nat) : i.stores? m address = none := by
  cases i with
  | storeDecimal x => cases h
  | storeRegisters last => cases h
  | _ => rfl

/-- the effect of the two instructions that store -/
theorem byte_of_covered (values : Machine → List UInt8) {core after : Core} {flow : Flow}
    {count : Nat} (hl : (values core.machine).length = count)
    (h : (do Action.covered count; Action.update fun m => m.store (values m)).run core =
      .ok flow after) (address : Nat) :
    after.machine.memory.byte address =
      if core.machine.index.toNat ≤ address ∧ address < core.machine.index.toNat + count then
        (values core.machine).getD (address - core.machine.index.toNat) 0
      else core.machine.memory.byte address := by
  rw [EStateM.run_bind, Action.run_covered] at h
  by_cases hc : Memory.Covers core.machine.index.toNat count
  · rw [if_pos hc] at h
    cases h
    have hs : core.machine.index.toNat + count ≤ Memory.size := hc
    show (core.machine.memory.write _ _).byte address = _
    rw [Memory.byte_write, hl]
    by_cases ha : core.machine.index.toNat ≤ address ∧ address < core.machine.index.toNat + count
    · rw [if_pos ha, if_pos ⟨ha.1, ha.2, by omega⟩]
    · rw [if_neg ha, if_neg (by omega)]
  · rw [if_neg hc] at h
    cases h

/-- **An address holds what the instruction puts there, or what it held before.** -/
theorem byte_execute {i : Instruction} {core after : Core} {flow : Flow}
    (h : i.execute.run core = .ok flow after) (address : Nat) :
    after.machine.memory.byte address =
      (i.stores? core.machine address).getD (core.machine.memory.byte address) := by
  cases hw : i.writes .memory with
  | false =>
    have hm : after.machine.memory = core.machine.memory :=
      Instruction.execute_keeps hw core flow after h
    rw [hm, stores?_of_not_writes hw]
    rfl
  | true =>
    obtain ⟨x, rfl⟩ | ⟨last, rfl⟩ := writes_memory hw
    · have hl : (decimalDigits (core.machine.register x)).length = 3 := rfl
      rw [byte_of_covered (fun m => decimalDigits (m.register x)) hl h,
        Instruction.stores?]
      split
      · exact getD_decimalDigits _ (by omega)
      · rfl
    · have hl := Strict.length_registersUpTo core.machine last
      rw [byte_of_covered (fun m => m.registersUpTo last) hl h, Instruction.stores?]
      split
      · exact getD_registersUpTo _ last _ (by omega)
      · rfl

end Chip8
