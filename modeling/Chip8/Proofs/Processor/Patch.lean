import Chip8.Proofs.Machine.Block
import Chip8.Proofs.Processor.Faults
import Chip8.Proofs.Processor.Overlook

/-!
# Bytes that an instruction does not access

An instruction reads and writes the bytes behind the index that it asks for, and no others.  With
other bytes elsewhere it does the same.

* `Memory.InRange`, `Memory.Apart`     addresses of a range, ranges without a common address;
* `Memory.write_comm`                  writes to such ranges in either order;
* `Machine.patched`                    the machine with other bytes from an address on;
* `Instruction.Accesses`               the addresses that an instruction reads or writes;
* `Instruction.execute_patched`        it overlooks the bytes at all other addresses;
* `step_patched`                       and so does a step, while the next instruction is the same.
-/

namespace Chip8

/-! ## ranges of addresses -/

namespace Memory
variable {start count start' : Nat} {bytes bytes' : List UInt8}

def InRange (start count address : Nat) : Prop := start ≤ address ∧ address < start + count

/-- the ranges have no address in common -/
def Apart (start count start' count' : Nat) : Prop :=
  ∀ address, InRange start count address → ¬ InRange start' count' address

theorem Apart.symm {count' : Nat} (h : Apart start count start' count') :
    Apart start' count' start count :=
  fun address h' hr => h address hr h'

theorem byte_write_inside (m : Memory) {address : Nat} (h : InRange start bytes.length address)
    (ha : address < size) : (m.write start bytes).byte address = bytes.getD (address - start) 0 := by
  rw [byte_write, if_pos ⟨h.1, h.2, ha⟩]

theorem byte_write_outside (m : Memory) {address : Nat} (h : ¬ InRange start bytes.length address) :
    (m.write start bytes).byte address = m.byte address := by
  rw [byte_write, if_neg fun hw => h ⟨hw.1, hw.2.1⟩]

theorem read_write_of_apart (m : Memory) (h : Apart start' count start bytes.length) :
    (m.write start bytes).read start' count = m.read start' count := by
  refine List.map_congr_left fun k hk => ?_
  have hk : k < count := List.mem_range.mp hk
  exact m.byte_write_outside (h (start' + k) ⟨by omega, by omega⟩)

/-- writes to ranges that are apart may be done in either order -/
theorem write_comm (m : Memory) (h : Apart start bytes.length start' bytes'.length) :
    (m.write start bytes).write start' bytes' = (m.write start' bytes').write start bytes := by
  apply ext_byte
  intro address ha
  by_cases hr : InRange start bytes.length address
  · rw [byte_write_outside _ (h address hr), byte_write_inside _ hr ha, byte_write_inside _ hr ha]
  · rw [byte_write_outside _ hr]
    by_cases hr' : InRange start' bytes'.length address
    · rw [byte_write_inside _ hr' ha, byte_write_inside _ hr' ha]
    · rw [byte_write_outside _ hr', byte_write_outside _ hr', byte_write_outside _ hr]

end Memory

/-! ## machines with other bytes -/

section
variable {start : Nat} {bytes : List UInt8}

namespace Machine

/-- the machine with other bytes from an address on -/
def patched (m : Machine) (start : Nat) (bytes : List UInt8) : Machine :=
  { m with memory := m.memory.write start bytes }

theorem patched_setFlag (m : Machine) (flag : Option UInt8) :
    (m.patched start bytes).setFlag flag = (m.setFlag flag).patched start bytes := by
  cases flag <;> rfl

theorem patched_store (m : Machine) {values : List UInt8}
    (h : Memory.Apart m.index.toNat values.length start bytes.length) :
    (m.patched start bytes).store values = (m.store values).patched start bytes :=
  congrArg (fun memory => { m with memory }) (m.memory.write_comm h.symm)

theorem patched_drawSprite (m : Machine) {x y : Register} {rows : Nibble}
    (h : Memory.Apart m.index.toNat rows.val start bytes.length) :
    (m.patched start bytes).drawSprite x y rows = (m.drawSprite x y rows).patched start bytes := by
  have hr : (m.patched start bytes).memory.read (m.patched start bytes).index.toNat rows.val =
      m.memory.read m.index.toNat rows.val := m.memory.read_write_of_apart h
  rw [drawSprite, hr]
  rfl

theorem patched_loadRegisters (m : Machine) {last : Register}
    (h : Memory.Apart m.index.toNat (last.val + 1) start bytes.length) :
    (m.patched start bytes).loadRegisters last = (m.loadRegisters last).patched start bytes := by
  have hb : ∀ x : Register, x ≤ last →
      (m.patched start bytes).memory.byte (m.index.toNat + x.val) =
        m.memory.byte (m.index.toNat + x.val) := by
    intro x hx
    have hv : x.val ≤ last.val := hx
    exact m.memory.byte_write_outside (h _ ⟨by omega, by omega⟩)
  have hr : (fun x : Register => if x ≤ last then
      (m.patched start bytes).memory.byte (m.index.toNat + x.val) else m.register x) =
      fun x => if x ≤ last then m.memory.byte (m.index.toNat + x.val) else m.register x := by
    funext x
    by_cases hx : x ≤ last
    · rw [if_pos hx, if_pos hx, hb x hx]
    · rw [if_neg hx, if_neg hx]
  exact congrArg (fun g => { m.patched start bytes with registers := Vector.ofFn g }) hr

end Machine

def Core.patched (core : Core) (start : Nat) (bytes : List UInt8) : Core :=
  { core with machine := core.machine.patched start bytes }

theorem aside_patched (start : Nat) (bytes : List UInt8) : Core.Aside (·.patched start bytes) where
  programCounter _ := rfl
  index _ := rfl
  stack _ := rfl
  setProgramCounter _ _ := rfl
  setStack _ _ := rfl

theorem Action.overlooks_patched {f : Machine → Machine}
    (hf : ∀ m, f (m.patched start bytes) = (f m).patched start bytes) :
    Overlooks (·.patched start bytes) (update f) :=
  overlooks_update fun core => congrArg (Core.mk · core.generator) (hf core.machine)

/-- an instruction that asks for bytes does the same if its change does, where they are there -/
theorem Action.run_covered_update_patched {core : Core} {count : Nat} {f : Machine → Machine}
    (hf : Memory.Covers core.machine.index.toNat count →
      f (core.machine.patched start bytes) = (f core.machine).patched start bytes) :
    (do covered count; update f).run (core.patched start bytes) =
      resultWhen (·.patched start bytes) ((do covered count; update f).run core) := by
  rw [EStateM.run_bind, EStateM.run_bind, overlooks_covered (aside_patched start bytes), run_covered]
  by_cases hc : Memory.Covers core.machine.index.toNat count
  · rw [if_pos hc]
    exact congrArg (fun m => EStateM.Result.ok Flow.next (Core.mk m core.generator)) (hf hc)
  · rw [if_neg hc]
    rfl

end

/-! ## the instructions -/

namespace Instruction
open Chip8.Action

variable {start : Nat} {bytes : List UInt8} {i : Instruction}

/-- the instruction reads or writes the byte at an address -/
def Accesses (m : Machine) (address : Nat) (i : Instruction) : Prop :=
  ∃ n, i.span? = some n ∧ Memory.InRange m.index.toNat n address

/-- **An instruction that asks for no bytes overlooks all of them.** -/
theorem execute_overlooks (h : i.span? = none) : Overlooks (·.patched start bytes) i.execute := by
  have hg := aside_patched start bytes
  cases i with
  | draw x y rows => cases h
  | storeDecimal x => cases h
  | storeRegisters last => cases h
  | loadRegisters last => cases h
  | systemJump target => exact overlooks_jumpTo hg _
  | jump target => exact overlooks_jumpTo hg _
  | jumpOffset address => exact .of_machine (fun _ => overlooks_jumpTo hg _) fun _ => rfl
  | call target => exact (overlooks_pushReturn hg).bind fun _ => overlooks_jumpTo hg _
  | ret => exact (overlooks_popReturn hg).bind (overlooks_jumpTo hg)
  | skip condition =>
    refine .of_machine (fun _ => overlooks_pure _) fun core => ?_
    cases condition <;> rfl
  | random x mask => exact Overlooks.bind (fun _ => rfl) fun _ => overlooks_patched fun _ => rfl
  | combine operation x y =>
    refine overlooks_patched fun m => ?_
    rw [Machine.combine, Machine.patched_setFlag]
    rfl
  | _ => exact overlooks_patched fun _ => rfl

/-- bytes that are not accessed are apart from those that the instruction asks for -/
theorem apart_of_not_accesses {m : Machine} {n : Nat} (hn : i.span? = some n)
    (h : ∀ address, Memory.InRange start bytes.length address → ¬ i.Accesses m address) :
    Memory.Apart m.index.toNat n start bytes.length :=
  fun address ha hr => h address hr ⟨n, hn, ha⟩

/-- **An instruction overlooks the bytes that it does not access.**  One that faults accesses
nothing. -/
theorem execute_patched {core : Core}
    (h : ∀ flow after, i.execute.run core = .ok flow after →
      ∀ address, Memory.InRange start bytes.length address → ¬ i.Accesses core.machine address) :
    i.execute.run (core.patched start bytes) =
      resultWhen (·.patched start bytes) (i.execute.run core) := by
  cases hn : i.span? with
  | none => exact execute_overlooks hn core
  | some n =>
    cases i with
    | draw x y rows =>
      exact run_covered_update_patched fun hc =>
        Machine.patched_drawSprite _ (apart_of_not_accesses rfl (h _ _ (run_covered_update hc _)))
    | storeDecimal x =>
      exact run_covered_update_patched fun hc =>
        Machine.patched_store _ (apart_of_not_accesses rfl (h _ _ (run_covered_update hc _)))
    | storeRegisters last =>
      refine run_covered_update_patched fun hc => core.machine.patched_store ?_
      rw [Strict.length_registersUpTo]
      exact apart_of_not_accesses rfl (h _ _ (run_covered_update hc _))
    | loadRegisters last =>
      exact run_covered_update_patched fun hc =>
        Machine.patched_loadRegisters _ (apart_of_not_accesses rfl (h _ _ (run_covered_update hc _)))
    | _ => cases hn

end Instruction

/-! ## a step -/

namespace Processor
open Chip8.Action

variable {start : Nat} {bytes : List UInt8}

/-- the processor with other bytes from an address on -/
def patched (p : Processor) (start : Nat) (bytes : List UInt8) : Processor :=
  { p with machine := p.machine.patched start bytes }

/-- **A step overlooks the bytes that are not accessed**, while the next instruction is the same
with them. -/
theorem step_patched {p : Processor}
    (hd : decodeNext (p.machine.patched start bytes) = decodeNext p.machine)
    (h : ∀ i, p.step.1 = .executed i →
      ∀ address, Memory.InRange start bytes.length address → ¬ i.Accesses p.machine address) :
    (p.patched start bytes).step = (p.step.1, p.step.2.patched start bytes) := by
  refine step_changed (g := (·.patched start bytes)) rfl fun hh hw =>
    executeNext_changed (aside_patched start bytes) p.core hd ?_
  exact fun i hi => i.execute_patched fun flow after hx => h i (executed_of_run hh hw hi hx)

end Processor

end Chip8
