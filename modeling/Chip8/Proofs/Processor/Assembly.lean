import Chip8.Proofs.Instruction.Opcode
import Chip8.Proofs.Machine.Memory
import Chip8.Proofs.Processor.Faults

/-!
# Programs as lists of instructions

A program that is written as instructions is put into memory as their opcodes, two bytes each, from
the start of programs on.  There the opcodes are found again, and with them the instructions.

* `assemble`                 the bytes of instructions one after the other;
* `fetch_assemble`           the opcode that is fetched at a place of the program;
* `assembly_read_back`       the instruction there, and which instructions are read as others.
-/

namespace Chip8

/-- the opcodes of the instructions one after the other, as bytes -/
def assemble (program : List Instruction) : List UInt8 := program.flatMap Instruction.bytes

/-! ## bytes -/

theorem length_assemble (program : List Instruction) :
    (assemble program).length = 2 * program.length := by
  induction program with
  | nil => rfl
  | cons i rest ih =>
    have hc : (assemble (i :: rest)).length = 2 + (assemble rest).length := List.length_append
    rw [hc, ih, List.length_cons]
    omega

/-- the higher byte of an opcode stands before the lower one -/
theorem getD_assemble {program : List Instruction} {k : Nat} {i : Instruction}
    (h : program[k]? = some i) :
    (assemble program).getD (2 * k) 0 = UInt8.ofNat (i.encode.toNat / 256) ∧
    (assemble program).getD (2 * k + 1) 0 = UInt8.ofNat i.encode.toNat := by
  induction program generalizing k with
  | nil => cases h
  | cons j rest ih =>
    cases k with
    | zero =>
      cases h
      exact ⟨rfl, rfl⟩
    | succ k => exact ih h

namespace Memory

/-- a program that fits stands in memory from the start of programs on -/
theorem byte_programStart_add {program : List UInt8} (h : program.length ≤ maxProgramLength)
    {k : Nat} (hk : k < program.length) :
    (ofProgram program).byte (programStart + k) = program.getD k 0 := by
  have hf := length_font_le
  rw [byte_ofProgram h, image, if_neg (by omega), if_pos ⟨by omega, by omega⟩,
    Nat.add_sub_cancel_left]

end Memory

/-! ## opcodes -/

section
variable {program : List Instruction} {k : Nat} {i : Instruction}

theorem fits_assemble (h : program.length ≤ 1792) :
    (assemble program).length ≤ Memory.maxProgramLength := by
  have hm : Memory.maxProgramLength = 3584 := rfl
  rw [length_assemble, hm]
  omega

theorem wordAt_assemble (h : program.length ≤ 1792) (hi : program[k]? = some i) :
    (Machine.ofProgram (assemble program)).wordAt (Memory.programStart + 2 * k) = i.encode := by
  have hk : k < program.length := (List.getElem?_eq_some_iff.mp hi).1
  have hl := length_assemble program
  obtain ⟨hhigh, hlow⟩ := getD_assemble hi
  have h0 := Memory.byte_programStart_add (fits_assemble h) (k := 2 * k) (by omega)
  have h1 := Memory.byte_programStart_add (fits_assemble h) (k := 2 * k + 1) (by omega)
  show opcodeOfBytes ((Memory.ofProgram (assemble program)).byte _)
    ((Memory.ofProgram (assemble program)).byte _) = _
  rw [Nat.add_assoc, h0, h1, hhigh, hlow, opcodeOfBytes_bytesOfOpcode]

/-- **What is fetched in an assembled program is the opcode of the instruction there.** -/
theorem fetch_assemble (h : program.length ≤ 1792) (hi : program[k]? = some i) :
    { Machine.ofProgram (assemble program) with
      programCounter := UInt16.ofNat (Memory.programStart + 2 * k) }.fetch = .ok i.encode := by
  have hk : k < program.length := (List.getElem?_eq_some_iff.mp hi).1
  have hp : Memory.programStart = 512 := rfl
  have hc : (UInt16.ofNat (Memory.programStart + 2 * k)).toNat = Memory.programStart + 2 * k := by
    rw [UInt16.toNat_ofNat']
    omega
  have hs : Memory.Covers (Memory.programStart + 2 * k) Machine.opcodeLength := by
    show 512 + 2 * k + 2 ≤ 4096
    omega
  rw [Machine.fetch_eq, hc, if_pos hs]
  exact congrArg Except.ok (wordAt_assemble h hi)

end

/-! ## instructions -/

namespace Instruction

/-- **Assembled programs are read back.**  Up to 1792 instructions, with none of the two jumps among
them whose opcodes stand for another instruction, make a program that fits; at every place of it the
opcode is fetched that is decoded to the instruction there.  Apart from these two jumps every
instruction is read back from its opcode, and no two instructions have the same one. -/
theorem assembly_read_back :
    (∀ program : List Instruction, program.length ≤ 1792 →
      (∀ i ∈ program, i ≠ .systemJump 0x0E0 ∧ i ≠ .systemJump 0x0EE) →
      ∃ m, Machine.load (assemble program) = .ok m ∧
        ∀ k i, program[k]? = some i →
          ∃ opcode, { m with programCounter := UInt16.ofNat (0x200 + 2 * k) }.fetch = .ok opcode ∧
            decode opcode = .ok i) ∧
    (∀ i, decode i.encode = .ok i ↔ i ≠ .systemJump 0x0E0 ∧ i ≠ .systemJump 0x0EE) ∧
    (∀ i j, (i, j) ∈ homographs → decode i.encode = .ok j) ∧
    ∀ i j, i.encode = j.encode ↔ i = j ∨ (i, j) ∈ homographs ∨ (j, i) ∈ homographs := by
  refine ⟨?_, ?_, ?_, fun i j => encode_eq_iff⟩
  · intro program hl hn
    refine ⟨Machine.ofProgram (assemble program), if_pos (fits_assemble hl), ?_⟩
    intro k i hi
    have hs : i.spelled = i := spelled_eq_self_iff.mpr (hn i (List.mem_of_getElem? hi))
    refine ⟨i.encode, fetch_assemble hl hi, ?_⟩
    rw [decode_encode, hs]
  · intro i
    rw [decode_encode, Except.ok.injEq, spelled_eq_self_iff]
  · intro i j h
    rw [decode_encode, spelled_of_mem h]

/-- the last instruction of three is the one fetched at 0x204 -/
theorem assembly_read_back_third :
    ∃ m, Machine.load (assemble [.clearScreen, .draw 0 0 5, .ret]) = .ok m ∧
      ∃ opcode, { m with programCounter := 0x204 }.fetch = .ok opcode ∧ decode opcode = .ok .ret := by
  obtain ⟨m, hl, hf⟩ := assembly_read_back.1 [.clearScreen, .draw 0 0 5, .ret] (by decide)
    (by decide)
  exact ⟨m, hl, hf 2 .ret rfl⟩

end Instruction

end Chip8
