import Chip8.Proofs.Machine.Strict
import Chip8.Proofs.Processor.Step

/-!
# Strict steps: nothing out of range

A step once more, with strict fetching, decoding and executing.

* `fetch`, `decode?`    the next opcode and its instruction, in strict operations;
* `step`                a step, or nothing if it breaks off;
* `step_eq`             it does not, and is the step of the processor.
-/

namespace Chip8.Strict
open Chip8.Action

/-! ## the next instruction -/

/-- the opcode at the program counter -/
def fetch : Work UInt16 := do
  let m ← plain machine
  let range ← memoryRange m.programCounter Machine.opcodeLength
  let bytes ← checked (slice m.memory.cells range.1 range.2)
  let high ← checked bytes[0]?
  let low ← checked bytes[1]?
  return opcodeOfBytes high low

/-- a digit of an opcode, the one with number 0 being the least significant -/
def digit (opcode : UInt16) (number : Nat) : Option Nibble :=
  let places := 4 * number
  if places < 16 then some (Nibble.masked (opcode >>> UInt16.ofNat places).toNat) else none

/-- the instruction of an opcode, if there is one; nothing at all if a shift breaks off -/
def decode? (opcode : UInt16) : Option (Option Instruction) := do
  let family ← digit opcode 3
  let x ← digit opcode 2
  let y ← digit opcode 1
  let n ← digit opcode 0
  return Instruction.ofDigits? family x y n

def executeNext : Work Instruction := do
  let m ← plain machine
  let opcode ← fetch
  match ← checked (decode? opcode) with
  | none => plain (fault (.unknownOpcode opcode m.programCounter))
  | some instruction =>
    let flow ← execute instruction
    plain (change (·.proceed flow))
    return instruction

theorem fetch_eq (core : Core) :
    fetch.run core =
      match core.machine.fetch with
      | .ok opcode => .ok opcode core
      | .error fault => .error (.fault fault) core := by
  have hr : fetch.run core =
      (memoryRange core.machine.programCounter Machine.opcodeLength >>= fun range => do
        let bytes ← checked (slice core.machine.memory.cells range.1 range.2)
        let high ← checked bytes[0]?
        let low ← checked bytes[1]?
        return opcodeOfBytes high low).run core := rfl
  rw [hr, EStateM.run_bind, run_memoryRange, Machine.fetch]
  by_cases hc : Memory.Covers core.machine.programCounter.toNat Machine.opcodeLength
  · rw [if_pos hc, if_pos hc]
    dsimp only
    rw [slice_cells hc]
    rfl
  · rw [if_neg hc, if_neg hc]

theorem digit_eq (opcode : UInt16) (place : Fin 4) :
    digit opcode (3 - place.val) = some (Nibble.ofOpcode opcode place) := by
  have hp : 4 * (3 - place.val) < 16 := by omega
  have hm : 4 * (3 - place.val) % 2 ^ 16 % 16 = 4 * (3 - place.val) := by omega
  rw [digit, if_pos hp, UInt16.toNat_shiftRight, UInt16.toNat_ofNat', hm]
  rfl

theorem decode?_eq (opcode : UInt16) : decode? opcode = some (Instruction.decode? opcode) := by
  have h3 : digit opcode 3 = _ := digit_eq opcode 0
  have h2 : digit opcode 2 = _ := digit_eq opcode 1
  have h1 : digit opcode 1 = _ := digit_eq opcode 2
  have h0 : digit opcode 0 = _ := digit_eq opcode 3
  rw [decode?, h3, h2, h1, h0]
  rfl

theorem executeNext_eq : executeNext = plain Processor.executeNext := by
  funext core
  show executeNext.run core = (plain Processor.executeNext).run core
  have hr : executeNext.run core = (fetch >>= fun opcode => do
      match ← checked (decode? opcode) with
      | none => plain (fault (.unknownOpcode opcode core.machine.programCounter))
      | some instruction =>
        let flow ← execute instruction
        plain (change (·.proceed flow))
        return instruction).run core := rfl
  rw [hr, EStateM.run_bind, fetch_eq, run_plain, Processor.run_executeNext, Processor.decodeNext]
  cases core.machine.fetch with
  | error fault => rfl
  | ok opcode =>
    dsimp only
    rw [decode?_eq]
    cases Instruction.decode? opcode with
    | none => rfl
    | some i =>
      simp only [checked_some, pure_bind, execute_eq, EStateM.run_bind, run_plain]
      cases i.execute.run core with
      | error fault after => rfl
      | ok flow after => rfl

/-! ## a step -/

/-- a step in strict operations, or nothing if one of them breaks off -/
def step (p : Processor) : Option (Outcome × Processor) :=
  match p.halted with
  | some fault => some (.faulted fault, p)
  | none =>
    if p.isWaiting then some (.waiting, p)
    else
      match executeNext.run p.core with
      | .ok instruction core =>
        some (.executed instruction,
          { p with machine := core.machine, generator := core.generator })
      | .error (.fault fault) core =>
        some (.faulted fault, ⟨core.machine, core.generator, some fault⟩)
      | .error .broken _ => none

/-- **No step breaks off.** -/
theorem step_eq (p : Processor) : step p = some p.step := by
  unfold step Processor.step
  rw [executeNext_eq, run_plain]
  cases p.halted with
  | some fault => rfl
  | none =>
    cases p.isWaiting with
    | true => rfl
    | false =>
      cases Processor.executeNext.run p.core with
      | ok i after => rfl
      | error fault after => rfl

end Chip8.Strict
