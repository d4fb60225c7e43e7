import Chip8.Proofs.Processor.Strict

/-!
# When a step faults, and with what

A running processor faults if there is no instruction at the program counter, if the call stack is
full or empty where it is needed otherwise, or if an instruction asks for bytes behind the end of
memory.  Nothing else faults.

* `Machine.instructionAt`    the instruction that two bytes of memory are;
* `Instruction.span?`        how many bytes behind the index an instruction asks for;
* `Instruction.Refused`      the machines on which an instruction faults;
* `Machine.Faults`           the machines on which a step does;
* `step_faulted_iff`, `step_executed_iff`    a step faults just there, and else executes;
* `step_faults_exactly`      all of it together, and that nothing in a step is out of range.
-/

namespace Chip8

/-! ## the instruction at an address -/

namespace Machine

/-- two bytes of memory as a word, higher byte first -/
def wordAt (m : Machine) (address : Nat) : UInt16 :=
  opcodeOfBytes (m.memory.byte address) (m.memory.byte (address + 1))

/-- the instruction that stands at an address, if both bytes are in memory and it is one -/
def instructionAt (m : Machine) (address : Nat) : Option Instruction :=
  if Memory.Covers address opcodeLength then Instruction.decode? (m.wordAt address) else none

theorem instructionAt_of_covers {m : Machine} {address : Nat}
    (h : Memory.Covers address opcodeLength) :
    m.instructionAt address = Instruction.decode? (m.wordAt address) := if_pos h

theorem instructionAt_of_behind {m : Machine} {address : Nat} (h : Memory.size < address + 2) :
    m.instructionAt address = none := if_neg (Nat.not_le.mpr h)

theorem instructionAt_congr {m n : Machine} (h : n.memory = m.memory) (address : Nat) :
    n.instructionAt address = m.instructionAt address := by
  unfold instructionAt wordAt
  rw [h]

theorem fetch_eq (m : Machine) :
    m.fetch =
      if Memory.Covers m.programCounter.toNat opcodeLength then .ok (m.wordAt m.programCounter.toNat)
      else .error (.outOfBounds m.programCounter (m.programCounter.toNat + 1)) := rfl

end Machine

/-! ## which instructions fault -/

/-- the number of bytes from the index on that an instruction reads or writes, if it does so -/
def Instruction.span? : Instruction → Option Nat
  | .draw _ _ rows => some rows.val
  | .storeDecimal _ => some 3
  | .storeRegisters last | .loadRegisters last => some (last.val + 1)
  | _ => none

/-- the instruction cannot be executed on the machine, and this is what is said about it -/
inductive Instruction.Refused (m : Machine) : Instruction → Fault → Prop
  | full (target : Address) (h : m.stack.capacity ≤ m.stack.size) :
    Refused m (.call target) (.stackOverflow m.programCounter)
  | empty (h : m.stack.size = 0) : Refused m .ret (.stackUnderflow m.programCounter)
  | behind (i : Instruction) (n : Nat) (hn : i.span? = some n)
      (h : Memory.size < m.index.toNat + n) :
    Refused m i (.outOfBounds m.programCounter (m.index.toNat + n - 1))

namespace Action
variable {α β : Type} {P : Machine → Fault → Prop}

/-- the action faults on these machines, with these faults, and on no others -/
def FaultsOn (P : Machine → Fault → Prop) (a : Action α) : Prop :=
  ∀ core fault, (∃ after, a.run core = .error fault after) ↔ P core.machine fault

theorem Total.faultsOn {a : Action α} (ha : Total a) (hP : ∀ m fault, ¬ P m fault) :
    FaultsOn P a := by
  intro core fault
  obtain ⟨x, mid, hx⟩ := ha core
  constructor
  · rintro ⟨after, h⟩
    rw [hx] at h
    cases h
  · intro h
    exact absurd h (hP core.machine fault)

/-- what cannot fault adds no fault -/
theorem FaultsOn.bind {a : Action α} {f : α → Action β} (ha : FaultsOn P a)
    (hf : ∀ x, Total (f x)) : FaultsOn P (a >>= f) := by
  intro core fault
  rw [← ha core fault]
  constructor
  · rintro ⟨after, h⟩
    rw [EStateM.run_bind] at h
    cases hx : a.run core with
    | ok x mid =>
      rw [hx] at h
      obtain ⟨y, last, hy⟩ := hf x mid
      change (f x).run mid = _ at h
      rw [hy] at h
      cases h
    | error e mid =>
      rw [hx] at h
      cases h
      exact ⟨after, rfl⟩
  · rintro ⟨after, h⟩
    refine ⟨after, ?_⟩
    rw [EStateM.run_bind, h]

theorem FaultsOn.congr {Q : Machine → Fault → Prop} {a : Action α} (ha : FaultsOn P a)
    (h : ∀ m fault, Q m fault ↔ P m fault) : FaultsOn Q a :=
  fun core fault => (ha core fault).trans (h core.machine fault).symm

theorem covered_faultsOn (count : Nat) :
    FaultsOn (fun m fault => Memory.size < m.index.toNat + count ∧
      fault = .outOfBounds m.programCounter (m.index.toNat + count - 1)) (covered count) := by
  intro core fault
  rw [run_covered]
  by_cases hc : Memory.Covers core.machine.index.toNat count
  · have hn : ¬ Memory.size < core.machine.index.toNat + count := Nat.not_lt.mpr hc
    simp [hc, hn]
  · have hn : Memory.size < core.machine.index.toNat + count := Nat.not_le.mp hc
    simp [hc, hn, Machine.outOfBounds, eq_comm]

theorem pushReturn_faultsOn :
    FaultsOn (fun m fault => m.stack.capacity ≤ m.stack.size ∧
      fault = .stackOverflow m.programCounter) pushReturn := by
  intro core fault
  rw [run_pushReturn]
  by_cases hl : core.machine.stack.size < core.machine.stack.capacity
  · simp [CallStack.push, hl, Nat.not_le.mpr hl]
  · simp [CallStack.push, hl, Nat.not_lt.mp hl, eq_comm]

theorem popReturn_faultsOn :
    FaultsOn (fun m fault => m.stack.size = 0 ∧ fault = .stackUnderflow m.programCounter)
      popReturn := by
  intro core fault
  rw [run_popReturn]
  cases he : core.machine.stack.entries with
  | nil => simp [CallStack.pop, CallStack.size, he, eq_comm]
  | cons address rest => simp [CallStack.pop, CallStack.size, he]

end Action

namespace Instruction
open Chip8.Action

theorem refused_call_iff {m : Machine} {target : Address} {fault : Fault} :
    (call target).Refused m fault ↔
      m.stack.capacity ≤ m.stack.size ∧ fault = .stackOverflow m.programCounter := by
  constructor
  · rintro (⟨-, h⟩ | h | ⟨-, n, hn, h⟩)
    · exact ⟨h, rfl⟩
    · cases hn
  · rintro ⟨h, rfl⟩
    exact .full target h

theorem refused_ret_iff {m : Machine} {fault : Fault} :
    ret.Refused m fault ↔ m.stack.size = 0 ∧ fault = .stackUnderflow m.programCounter := by
  constructor
  · rintro (h | h | ⟨-, n, hn, h⟩)
    · exact ⟨h, rfl⟩
    · cases hn
  · rintro ⟨h, rfl⟩
    exact .empty h

theorem refused_span_iff {m : Machine} {i : Instruction} {n : Nat} {fault : Fault}
    (hn : i.span? = some n) :
    i.Refused m fault ↔ Memory.size < m.index.toNat + n ∧
      fault = .outOfBounds m.programCounter (m.index.toNat + n - 1) := by
  constructor
  · rintro (⟨target, h⟩ | h | ⟨_, k, hk, h⟩)
    · cases hn
    · cases hn
    · cases hn.symm.trans hk
      exact ⟨h, rfl⟩
  · rintro ⟨h, rfl⟩
    exact .behind i n hn h

/-- no fault comes from an instruction that needs neither the stack nor bytes behind the index -/
theorem not_refused {m : Machine} {i : Instruction} {fault : Fault} (hn : i.span? = none)
    (hc : ∀ target, i ≠ .call target) (hr : i ≠ .ret) : ¬ i.Refused m fault := by
  rintro (⟨target, h⟩ | h | ⟨_, k, hk, h⟩)
  · exact hc target rfl
  · exact hr rfl
  · cases hn.symm.trans hk

theorem covered_update_faultsOn {i : Instruction} {n : Nat} (hn : i.span? = some n)
    (f : Machine → Machine) :
    FaultsOn (fun m fault => i.Refused m fault) (do covered n; update f) :=
  ((covered_faultsOn n).bind fun _ => total_update f).congr fun _ _ => refused_span_iff hn

/-- **An instruction faults where it is refused.** -/
theorem execute_faultsOn (i : Instruction) :
    FaultsOn (fun m fault => i.Refused m fault) i.execute := by
  cases i with
  | call target =>
    exact (pushReturn_faultsOn.bind fun _ => total_jumpTo _).congr fun _ _ => refused_call_iff
  | ret => exact (popReturn_faultsOn.bind total_jumpTo).congr fun _ _ => refused_ret_iff
  | draw x y rows => exact covered_update_faultsOn rfl _
  | storeDecimal x => exact covered_update_faultsOn rfl _
  | storeRegisters last => exact covered_update_faultsOn rfl _
  | loadRegisters last => exact covered_update_faultsOn rfl _
  | jumpOffset address =>
    exact Total.faultsOn (fun _ => ⟨_, _, rfl⟩) fun _ _ => not_refused rfl nofun nofun
  | skip condition =>
    exact Total.faultsOn (fun _ => ⟨_, _, rfl⟩) fun _ _ => not_refused rfl nofun nofun
  | random x mask =>
    exact Total.faultsOn (total_randomByte.bind fun _ => total_update _) fun _ _ =>
      not_refused rfl nofun nofun
  | systemJump target => exact (total_jumpTo _).faultsOn fun _ _ => not_refused rfl nofun nofun
  | jump target => exact (total_jumpTo _).faultsOn fun _ _ => not_refused rfl nofun nofun
  | _ => exact (total_update _).faultsOn fun _ _ => not_refused rfl nofun nofun

end Instruction

/-! ## the next instruction -/

/-- a step on the machine faults, and this is what is said about it -/
inductive Machine.Faults (m : Machine) : Fault → Prop
  | fetch (h : Memory.size < m.programCounter.toNat + 2) :
    m.Faults (.outOfBounds m.programCounter (m.programCounter.toNat + 1))
  | unknown (h : m.programCounter.toNat + 2 ≤ Memory.size)
      (hd : Instruction.decode? (m.wordAt m.programCounter.toNat) = none) :
    m.Faults (.unknownOpcode (m.wordAt m.programCounter.toNat) m.programCounter)
  | refused (i : Instruction) (fault : Fault)
      (hi : m.instructionAt m.programCounter.toNat = some i) (h : i.Refused m fault) :
    m.Faults fault

/-- where there is an instruction, only that it is refused is a fault -/
theorem Machine.Faults.refused_of_instructionAt {m : Machine} {fault : Fault} {i : Instruction}
    (h : m.Faults fault) (hi : m.instructionAt m.programCounter.toNat = some i) :
    i.Refused m fault := by
  cases h with
  | fetch h =>
    rw [Machine.instructionAt_of_behind h] at hi
    cases hi
  | unknown h hd =>
    rw [Machine.instructionAt_of_covers h, hd] at hi
    cases hi
  | refused j fault hj h =>
    cases hi.symm.trans hj
    exact h

namespace Processor
open Chip8.Action

/-- what is at the program counter: nothing, an opcode of no instruction, or an instruction -/
theorem decodeNext_cases (m : Machine) :
    (Memory.size < m.programCounter.toNat + 2 ∧
      m.instructionAt m.programCounter.toNat = none ∧
      decodeNext m = .error (.outOfBounds m.programCounter (m.programCounter.toNat + 1))) ∨
    (m.programCounter.toNat + 2 ≤ Memory.size ∧
      Instruction.decode? (m.wordAt m.programCounter.toNat) = none ∧
      m.instructionAt m.programCounter.toNat = none ∧
      decodeNext m = .error (.unknownOpcode (m.wordAt m.programCounter.toNat) m.programCounter)) ∨
    ∃ i, m.programCounter.toNat + 2 ≤ Memory.size ∧
      Instruction.decode? (m.wordAt m.programCounter.toNat) = some i ∧
      m.instructionAt m.programCounter.toNat = some i ∧ decodeNext m = .ok i := by
  unfold decodeNext Machine.instructionAt
  rw [Machine.fetch_eq]
  by_cases hc : Memory.Covers m.programCounter.toNat Machine.opcodeLength
  · right
    rw [if_pos hc, if_pos hc]
    dsimp only
    cases hd : Instruction.decode? (m.wordAt m.programCounter.toNat) with
    | none => exact .inl ⟨hc, rfl, rfl, rfl⟩
    | some i => exact .inr ⟨i, hc, rfl, rfl, rfl⟩
  · left
    rw [if_neg hc, if_neg hc]
    exact ⟨Nat.not_le.mp hc, rfl, rfl⟩

theorem decodeNext_ok_iff {m : Machine} {i : Instruction} :
    decodeNext m = .ok i ↔ m.instructionAt m.programCounter.toNat = some i := by
  obtain ⟨-, hi, hd⟩ | ⟨-, -, hi, hd⟩ | ⟨j, -, -, hi, hd⟩ := decodeNext_cases m
  · rw [hi, hd]
    exact iff_of_false nofun nofun
  · rw [hi, hd]
    exact iff_of_false nofun nofun
  · rw [hi, hd, Except.ok.injEq, Option.some.injEq]

/-- **What faults in a step.** -/
theorem executeNext_faultsOn : FaultsOn Machine.Faults executeNext := by
  intro core fault
  rw [run_executeNext]
  obtain ⟨hc, hi, hd⟩ | ⟨hc, hn, hi, hd⟩ | ⟨i, hc, hs, hi, hd⟩ := decodeNext_cases core.machine
  · rw [hd]
    constructor
    · rintro ⟨after, h⟩
      cases h
      exact .fetch hc
    · rintro (_ | ⟨h, -⟩ | ⟨j, _, hj, -⟩)
      · exact ⟨core, rfl⟩
      · exact absurd h (Nat.not_le.mpr hc)
      · cases hi.symm.trans hj
  · rw [hd]
    constructor
    · rintro ⟨after, h⟩
      cases h
      exact .unknown hc hn
    · rintro (h | _ | ⟨j, _, hj, -⟩)
      · exact absurd hc (Nat.not_le.mpr h)
      · exact ⟨core, rfl⟩
      · cases hi.symm.trans hj
  · rw [hd]
    dsimp only
    constructor
    · rintro ⟨after, h⟩
      cases hx : i.execute.run core with
      | ok flow last =>
        rw [hx] at h
        cases h
      | error e last =>
        rw [hx] at h
        cases h
        exact .refused i fault hi ((i.execute_faultsOn core fault).mp ⟨_, hx⟩)
    · rintro (h | ⟨-, h⟩ | ⟨j, _, hj, h⟩)
      · exact absurd hc (Nat.not_le.mpr h)
      · cases hs.symm.trans h
      · cases hi.symm.trans hj
        obtain ⟨after, hx⟩ := (i.execute_faultsOn core fault).mpr h
        exact ⟨after, by rw [hx]⟩

variable {p : Processor} {fault : Fault} {i : Instruction}

theorem step_faulted_iff (hh : p.halted = none) (hw : p.isWaiting = false) :
    p.step.1 = .faulted fault ↔ p.machine.Faults fault := by
  rw [step_of_running hh hw]
  refine Iff.trans ?_ (executeNext_faultsOn p.core fault)
  cases executeNext.run p.core with
  | ok j last => exact iff_of_false nofun nofun
  | error e last => simp

theorem step_executed_iff (hh : p.halted = none) (hw : p.isWaiting = false) :
    p.step.1 = .executed i ↔
      p.machine.instructionAt p.machine.programCounter.toNat = some i ∧
        ∀ fault, ¬ p.machine.Faults fault := by
  have hf : (∀ fault, ¬ p.machine.Faults fault) ↔ ∀ fault, p.step.1 ≠ .faulted fault :=
    forall_congr' fun fault => not_congr (step_faulted_iff hh hw).symm
  rw [hf, ← decodeNext_ok_iff]
  cases p.stepCase with
  | halted e he hs => cases hh.symm.trans he
  | waiting hn hp hs => cases hw.symm.trans hp
  | faulted e hn hp hpc hs =>
    rw [hs]
    refine iff_of_false nofun fun h => h.2 e rfl
  | executed j flow after hn hp hd hx hs =>
    rw [hs, hd]
    simp

/-- **A step faults on the machines that fault, with their faults.**  On every other machine it
executes the instruction at the program counter.  And in no step an index, a slice, a shift or a
difference is out of range. -/
theorem step_faults_exactly (hh : p.halted = none) (hw : p.isWaiting = false) :
    (∀ fault, p.step.1 = .faulted fault ↔ p.machine.Faults fault) ∧
    (∀ i, p.step.1 = .executed i ↔
      p.machine.instructionAt p.machine.programCounter.toNat = some i ∧
        ∀ fault, ¬ p.machine.Faults fault) ∧
    ((∃ fault, p.machine.Faults fault) ∨ ∃ i, p.step.1 = .executed i) ∧
    Strict.step p = some p.step := by
  refine ⟨fun fault => step_faulted_iff hh hw, fun i => step_executed_iff hh hw, ?_,
    Strict.step_eq p⟩
  cases p.stepCase with
  | halted e he hs => cases hh.symm.trans he
  | waiting hn hp hs => cases hw.symm.trans hp
  | faulted e hn hp hpc hs => exact .inl ⟨e, (step_faulted_iff hh hw).mp (congrArg Prod.fst hs)⟩
  | executed i flow after hn hp hd hx hs => exact .inr ⟨i, congrArg Prod.fst hs⟩

/-- a machine that is about to draw no rows at all, with the index one byte too far for that -/
def rowless : Processor :=
  start { Machine.ofProgram [] with
    memory := Memory.zeros.write Memory.programStart [0xD0, 0x00], index := 0x1001 }
    (Generator.ofSeed 0)

theorem step_faults_exactly_rowless :
    rowless.halted = none ∧ rowless.isWaiting = false ∧
    rowless.step.1 = .faulted (.outOfBounds 0x200 0x1000) ∧
    Strict.step rowless = some rowless.step := by
  have hh : rowless.halted = none := rfl
  have hw : rowless.isWaiting = false := rfl
  have hi : rowless.machine.instructionAt 0x200 = some (.draw 0 0 0) := by decide +kernel
  have hf : rowless.machine.Faults (.outOfBounds 0x200 0x1000) :=
    .refused _ _ hi (.behind _ 0 rfl (by decide))
  obtain ⟨hs, -, -, ht⟩ := step_faults_exactly hh hw
  exact ⟨hh, hw, (hs _).mpr hf, ht⟩

end Processor

end Chip8
