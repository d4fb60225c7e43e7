import Chip8.Proofs.Instruction.Canonical
import Chip8.Proofs.Processor.Patch

/-!
# Canonical opcodes in memory

An opcode at the program counter may be replaced by the canonical one of its instruction.  The next
step is the same, unless its instruction reads or writes the opcode that it was fetched from.

* `Machine.wordAt_patched`       a word put at an address stands there;
* `decodeNext_canonical`         the next instruction is the same with the canonical opcode;
* `opcodes_canonical`            which opcodes are decoded, to what, and that they may be replaced.
-/

namespace Chip8

/-- **A word put at an address stands there**, if both its bytes are in memory. -/
theorem Machine.wordAt_patched (m : Machine) {address : Nat} (word : UInt16)
    (h : Memory.Covers address opcodeLength) :
    (m.patched address (bytesOfOpcode word)).wordAt address = word := by
  have hs : address + 2 ≤ Memory.size := h
  have hn : (bytesOfOpcode word).length = 2 := rfl
  have hh : (m.memory.write address (bytesOfOpcode word)).byte address =
      UInt8.ofNat (word.toNat / 256) := by
    rw [Memory.byte_write_inside _ ⟨Nat.le_refl _, by omega⟩ (by omega), Nat.sub_self]
    rfl
  have hl : (m.memory.write address (bytesOfOpcode word)).byte (address + 1) =
      UInt8.ofNat word.toNat := by
    rw [Memory.byte_write_inside _ ⟨Nat.le_add_right _ _, by omega⟩ (by omega),
      Nat.add_sub_cancel_left]
    rfl
  show opcodeOfBytes ((m.memory.write _ _).byte _) ((m.memory.write _ _).byte _) = word
  rw [hh, hl, opcodeOfBytes_bytesOfOpcode]

namespace Processor
open Chip8.Instruction

theorem decodeNext_canonical {m : Machine} {opcode c : UInt16} (hf : m.fetch = .ok opcode)
    (hc : canonical opcode = .ok c) :
    decodeNext (m.patched m.programCounter.toNat (bytesOfOpcode c)) = decodeNext m := by
  cases hd : decode opcode with
  | error u =>
    rw [canonical, hd] at hc
    cases hc
  | ok i =>
    rw [canonical_of_decode hd] at hc
    cases hc
    rw [Machine.fetch_eq] at hf
    by_cases hm : Memory.Covers m.programCounter.toNat Machine.opcodeLength
    · rw [if_pos hm, Except.ok.injEq] at hf
      have hi : m.instructionAt m.programCounter.toNat = some i := by
        rw [Machine.instructionAt_of_covers hm, hf]
        exact decode_eq_ok_iff.mp hd
      rw [decodeNext_ok_iff.mpr hi]
      refine decodeNext_ok_iff.mpr ?_
      rw [show (m.patched _ _).programCounter = m.programCounter from rfl,
        Machine.instructionAt_of_covers hm, m.wordAt_patched _ hm]
      exact decode_eq_ok_iff.mp (decode_encode_of_decode hd)
    · rw [if_neg hm] at hf
      cases hf

/-- **Opcodes may be replaced by canonical ones.**  The canonical opcode of one that is decoded is
decoded to the same instruction and is its own canonical opcode; it has the same digits apart from an
unused one, and the opcodes of the instruction are those that differ in no other way.  Just the
opcodes of no instruction are refused.  With the canonical opcode at the program counter a step has
the same outcome and leaves the same behind, apart from the opcode, unless the instruction executed
accesses one of its bytes. -/
theorem opcodes_canonical :
    (∀ opcode i, decode opcode = .ok i →
      canonical opcode = .ok i.encode ∧ decode i.encode = .ok i ∧
      canonical i.encode = .ok i.encode ∧
      (∀ place, Nibble.ofOpcode i.encode place ≠ .ofOpcode opcode place → Unused opcode place) ∧
      ∀ other, decode other = .ok i ↔ SameWhereUsed other opcode) ∧
    (∀ opcode u, decode opcode = .error u ↔
      u = ⟨opcode⟩ ∧
        Unassigned (.ofOpcode opcode 0) (.ofOpcode opcode 2) (.ofOpcode opcode 3)) ∧
    ∀ (p : Processor) opcode c, p.machine.fetch = .ok opcode → canonical opcode = .ok c →
      (∀ i, p.step.1 = .executed i →
        ¬ i.Accesses p.machine p.machine.programCounter.toNat ∧
        ¬ i.Accesses p.machine (p.machine.programCounter.toNat + 1)) →
      (p.patched p.machine.programCounter.toNat (bytesOfOpcode c)).step =
        (p.step.1, p.step.2.patched p.machine.programCounter.toNat (bytesOfOpcode c)) := by
  refine ⟨fun opcode i hd => ?_, fun opcode u => decode_eq_error_iff, fun p opcode c hf hc ha => ?_⟩
  · have he : decode i.encode = .ok i := decode_encode_of_decode hd
    have hd? : decode? opcode = some i := decode_eq_ok_iff.mp hd
    refine ⟨canonical_of_decode hd, he, canonical_of_decode he, sameWhereUsed_encode hd?, ?_⟩
    intro other
    rw [decode_eq_ok_iff]
    exact decode?_eq_iff hd?
  · refine step_patched (decodeNext_canonical hf hc) fun i hi address hr => ?_
    have hl : (bytesOfOpcode c).length = 2 := rfl
    have hb : address = p.machine.programCounter.toNat ∨
        address = p.machine.programCounter.toNat + 1 := by
      have hn := hr.2
      have hp := hr.1
      omega
    obtain rfl | rfl := hb
    · exact (ha i hi).1
    · exact (ha i hi).2

/-- a processor about to store the digits of a register, by an opcode with another third digit -/
def shelved : Processor :=
  start { Machine.ofProgram [0xFA, 0x73] with index := 0x300 } (Generator.ofSeed 0)

theorem opcodes_canonical_shelved :
    shelved.machine.fetch = .ok 0xFA73 ∧ canonical 0xFA73 = .ok 0xFA33 ∧
    shelved.step.1 = .executed (.storeDecimal 0xA) ∧
    (shelved.patched 0x200 [0xFA, 0x33]).step =
      (shelved.step.1, shelved.step.2.patched 0x200 [0xFA, 0x33]) := by
  have hw : shelved.machine.wordAt 0x200 = 0xFA73 := by decide +kernel
  have hf : shelved.machine.fetch = .ok 0xFA73 := by
    rw [Machine.fetch_eq]
    exact (if_pos (by decide)).trans (congrArg Except.ok hw)
  have hs : shelved.step.1 = .executed (.storeDecimal 0xA) := by decide +kernel
  obtain ⟨hc, -, -, -⟩ := opcodes_canonical.1 0xFA73 (.storeDecimal 0xA) rfl
  refine ⟨hf, hc, hs, opcodes_canonical.2.2 shelved 0xFA73 0xFA33 hf hc fun i hi => ?_⟩
  rw [hs] at hi
  cases hi
  constructor
  · rintro ⟨n, -, hn⟩
    exact absurd hn.1 (by decide)
  · rintro ⟨n, -, hn⟩
    exact absurd hn.1 (by decide)

end Processor

end Chip8
