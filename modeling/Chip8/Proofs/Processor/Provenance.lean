import Chip8.Proofs.Machine.Memory
import Chip8.Proofs.Processor.Bounds
import Chip8.Proofs.Processor.Log

/-!
# Where the bytes in memory come from

Only the two instructions that store change memory, so between two restarts a byte of memory has
been put there by the last of them that covered its address, or was there from the start.  This
goes for the bytes of instructions too: a program may write over itself.

* `Entry.stored?`        the byte that a call has put at an address;
* `lastWritten`          the one put there last, or the one from the start;
* `byte_call`, `byte_after`    so it is in memory;
* `memory_provenance`    the same for fonts, programs, faults and the instructions executed.
-/

namespace Chip8.Processor

/-- the byte that the call has put at an address, if it has put one there -/
def Entry.stored? (address : Nat) (e : Entry) : Option UInt8 :=
  e.answer.executed?.bind (·.stores? e.found.machine address)

/-- the byte that the calls have put at an address last, or else the one from before them -/
def lastWritten (p : Processor) (calls : List Call) (address : Nat) : UInt8 :=
  ((p.log calls).filterMap (Entry.stored? address)).getLast?.getD (p.machine.memory.byte address)

/-- two such bytes as an opcode -/
def lastWrittenOpcode (p : Processor) (calls : List Call) (address : Nat) : UInt16 :=
  opcodeOfBytes (p.lastWritten calls address) (p.lastWritten calls (address + 1))

variable {p q : Processor} {calls : List Call}

theorem lastWritten_concat (p : Processor) (calls : List Call) (c : Call) (address : Nat) :
    p.lastWritten (calls ++ [c]) address =
      (Entry.stored? address ⟨p.after calls, ((p.after calls).call c).1⟩).getD
        (p.lastWritten calls address) := by
  rw [lastWritten, log_concat, getLast?_filterMap_concat, lastWritten]

theorem lastWritten_of_uncovered {address : Nat}
    (h : ∀ e ∈ p.log calls, e.stored? address = none) :
    p.lastWritten calls address = p.machine.memory.byte address := by
  rw [lastWritten, List.filterMap_eq_nil_iff.mpr h]
  rfl

/-! ## one call -/

theorem byte_step {i : Instruction} (h : p.step = (.executed i, q)) (address : Nat) :
    q.machine.memory.byte address =
      (i.stores? p.machine address).getD (p.machine.memory.byte address) := by
  obtain ⟨-, flow, after, hx, rfl⟩ := step_executed h
  have hm : (after.machine.proceed flow).memory = after.machine.memory :=
    @same_proceed .memory after.machine after.generator flow
  show (after.machine.proceed flow).memory.byte address = _
  rw [hm]
  exact byte_execute hx address

/-- **An address holds what the call has put there, or what it held before.** -/
theorem byte_call (p : Processor) {c : Call} (hc : c.restarts = false) (address : Nat) :
    (p.call c).2.machine.memory.byte address =
      (Entry.stored? address ⟨p, (p.call c).1⟩).getD (p.machine.memory.byte address) := by
  cases he : (p.call c).1.executed? with
  | none =>
    have ht : c.touches .memory = false := by cases c <;> rfl
    have hm : (p.call c).2.machine.memory = p.machine.memory :=
      call_same .memory hc ht fun i hi => by rw [he] at hi; cases hi
    rw [hm, Entry.stored?, he]
    rfl
  | some i =>
    obtain ⟨rfl, hs⟩ := step_of_executed? he
    rw [Entry.stored?, he]
    exact byte_step hs address

/-! ## many calls -/

/-- **An address holds what has been put there last.** -/
theorem byte_after (hc : ∀ c ∈ calls, c.restarts = false) (address : Nat) :
    (p.after calls).machine.memory.byte address = p.lastWritten calls address := by
  induction calls using List.reverseRecOn with
  | nil => rfl
  | append_singleton calls c ih =>
    have hi := ih fun d hd => hc d (List.mem_append_left [c] hd)
    have hl : c.restarts = false := hc c (List.mem_append_right calls List.mem_cons_self)
    rw [after_concat, byte_call _ hl, hi, lastWritten_concat]

theorem memory_of_faulted {fault : Fault} (h : p.step.1 = .faulted fault) :
    p.step.2.machine.memory = p.machine.memory :=
  step_same .memory fun i hi => by rw [h] at hi; cases hi

theorem length_of_load {program : List UInt8} {g : Generator} (h : load program g = .ok p) :
    program.length ≤ Memory.maxProgramLength := by
  unfold load Machine.load at h
  split at h
  · next hl => exact hl
  · cases h

/-- what is executed is decoded from the bytes put last at its address -/
theorem decode?_lastWritten (hc : ∀ c ∈ calls, c.restarts = false) {i : Instruction}
    (h : (p.after calls).step = (.executed i, q)) :
    let address := (p.after calls).machine.programCounter.toNat
    address + 2 ≤ Memory.size ∧ Instruction.decode? (p.lastWrittenOpcode calls address) = some i := by
  obtain ⟨hd, -⟩ := step_executed h
  have hm : Memory.Covers (p.after calls).machine.programCounter.toNat Machine.opcodeLength :=
    covers_of_decodeNext hd
  have hi := decodeNext_ok_iff.mp hd
  rw [Machine.instructionAt_of_covers hm, Machine.wordAt, byte_after hc, byte_after hc] at hi
  exact ⟨hm, hi⟩

/-- **Memory is what has been written.**  Whatever the calls, as long as none of them is a reset
that succeeds: an address holds the byte that an executed store has put there last, or what it held
at the start.  So font and program are intact wherever no store has been; a step that faults writes
nothing; and the next instruction executed is the one that the bytes put last at its address make. -/
theorem memory_provenance (p : Processor) {calls : List Call}
    (hc : ∀ c ∈ calls, c.restarts = false) :
    (∀ address, (p.after calls).machine.memory.byte address = p.lastWritten calls address) ∧
    (∀ program g, load program g = .ok p →
      ∀ address, (∀ e ∈ p.log calls, e.stored? address = none) →
        (p.after calls).machine.memory.byte address = Memory.image program address) ∧
    (∀ fault, (p.after calls).step.1 = .faulted fault →
      (p.after calls).step.2.machine.memory = (p.after calls).machine.memory) ∧
    ∀ i, (p.after calls).step.1 = .executed i →
      let address := (p.after calls).machine.programCounter.toNat
      address + 2 ≤ Memory.size ∧
        Instruction.decode? (p.lastWrittenOpcode calls address) = some i := by
  refine ⟨fun address => byte_after hc address, fun program g hp address hu => ?_,
    fun fault hf => memory_of_faulted hf, fun i hi => ?_⟩
  · have hl := length_of_load hp
    obtain rfl := eq_start_of_load hp
    rw [byte_after hc, lastWritten_of_uncovered hu]
    exact Memory.byte_ofProgram hl address
  · exact decode?_lastWritten hc (Prod.ext hi rfl)

/-- puts the first byte of `LD V1, 0x07` behind the store that does so, and then stores behind
memory -/
def overwriting : List UInt8 :=
  [0x60, 0x61, 0xA2, 0x06, 0xF0, 0x55, 0x00, 0x07, 0xAF, 0xFF, 0xF1, 0x55]

def overwriter : Processor := start (Machine.ofProgram overwriting) (Generator.ofSeed 0)

def overwriterCalls : List Call := [.step, .key 3 true, .step, .tick, .step]

/-- the byte written and the one of the program make the instruction that is executed -/
theorem memory_provenance_overwriter :
    let p := overwriter.after overwriterCalls
    let q := overwriter.after (overwriterCalls ++ [.step, .step])
    load overwriting (Generator.ofSeed 0) = .ok overwriter ∧
    p.machine.memory.byte 0x206 = overwriter.lastWritten overwriterCalls 0x206 ∧
    p.machine.memory.byte 0x207 = 0x07 ∧
    Instruction.decode? (overwriter.lastWrittenOpcode overwriterCalls 0x206) =
      some (.setConstant 1 7) ∧
    q.step.1 = .faulted (.outOfBounds 0x20A 0x1000) ∧
    q.step.2.machine.memory = q.machine.memory := by
  have hl : load overwriting (Generator.ofSeed 0) = .ok overwriter := rfl
  obtain ⟨hb, hu, -, hi⟩ := @memory_provenance overwriter overwriterCalls (by decide)
  obtain ⟨-, -, hf, -⟩ :=
    @memory_provenance overwriter (overwriterCalls ++ [.step, .step]) (by decide)
  -- one evaluation for all that is computed
  have h : (overwriter.after overwriterCalls).machine.programCounter.toNat = 0x206 ∧
      (overwriter.after overwriterCalls).step.1 = .executed (.setConstant 1 7) ∧
      (∀ e ∈ overwriter.log overwriterCalls, e.stored? 0x207 = none) ∧
      (overwriter.after (overwriterCalls ++ [.step, .step])).step.1 =
        .faulted (.outOfBounds 0x20A 0x1000) := by
    decide +kernel
  obtain ⟨hc, he, hn, hs⟩ := h
  have hd := (hi _ he).2
  rw [hc] at hd
  exact ⟨hl, hb _, hu overwriting _ hl 0x207 hn, hd, hs, hf _ hs⟩

end Chip8.Processor
