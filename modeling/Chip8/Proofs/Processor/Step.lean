import Chip8.Processor
import Chip8.Proofs.Machine.Atomic
import Chip8.Proofs.Machine.Frame

/-!
# What a step can do

A step repeats a fault, waits, faults, or executes an instruction; `StepCase` says for each of the
four under which condition it happens and what it leaves behind.  Everything else about steps is
read off these four cases.

* `StepCase`, `stepCase`      the four cases, and that there is no other;
* `executeNext_atomic`        a fault of fetching, decoding or executing leaves everything as it was;
* `step_repeat`               a step that executes nothing would be repeated for ever;
* `step_same`                 a step changes only what its instruction writes.
-/

namespace Chip8.Processor
open Chip8.Action

/-! ## the next instruction -/

theorem run_executeNext (core : Core) :
    executeNext.run core =
      match decodeNext core.machine with
      | .error fault => .error fault core
      | .ok i =>
        match i.execute.run core with
        | .error fault after => .error fault after
        | .ok flow after => .ok i { after with machine := after.machine.proceed flow } := by
  simp only [executeNext, EStateM.run_bind, run_machine]
  cases decodeNext core.machine with
  | error fault => rfl
  | ok i =>
    simp only [liftExcept, EStateM.run_pure]
    cases i.execute.run core with
    | error fault after => rfl
    | ok flow after => rfl

theorem programCounter_of_decodeNext {m : Machine} {fault : Fault}
    (h : decodeNext m = .error fault) : fault.programCounter = m.programCounter := by
  unfold decodeNext Machine.fetch at h
  split at h
  · next e =>
    cases h
    dsimp only at e
    split at e
    · cases e
    · cases e
      rfl
  · split at h
    · cases h
    · cases h
      rfl

theorem covers_of_decodeNext {m : Machine} {i : Instruction} (h : decodeNext m = .ok i) :
    Memory.Covers m.programCounter.toNat Machine.opcodeLength := by
  unfold decodeNext Machine.fetch at h
  dsimp only at h
  by_cases hc : Memory.Covers m.programCounter.toNat Machine.opcodeLength
  · exact hc
  · rw [if_neg hc] at h
    cases h

/-- **A fault leaves everything as it was, wherever it comes from.** -/
theorem executeNext_atomic : Atomic executeNext := by
  intro core fault after h
  rw [run_executeNext] at h
  cases hd : decodeNext core.machine with
  | error e =>
    rw [hd] at h
    cases h
    exact ⟨rfl, programCounter_of_decodeNext hd⟩
  | ok i =>
    rw [hd] at h
    dsimp only at h
    cases hx : i.execute.run core with
    | error e last =>
      rw [hx] at h
      cases h
      exact i.execute_atomic core fault after hx
    | ok flow last =>
      rw [hx] at h
      cases h

theorem executeNext_ok {core last : Core} {i : Instruction}
    (h : executeNext.run core = .ok i last) :
    decodeNext core.machine = .ok i ∧ ∃ flow after, i.execute.run core = .ok flow after ∧
      last = ⟨after.machine.proceed flow, after.generator⟩ := by
  rw [run_executeNext] at h
  cases hd : decodeNext core.machine with
  | error e =>
    rw [hd] at h
    cases h
  | ok j =>
    rw [hd] at h
    dsimp only at h
    cases hx : j.execute.run core with
    | error e after =>
      rw [hx] at h
      cases h
    | ok flow after =>
      rw [hx] at h
      cases h
      exact ⟨rfl, flow, after, hx, rfl⟩

/-! ## the cases -/

inductive StepCase (p : Processor) : Prop
  | halted (fault : Fault) (hh : p.halted = some fault) (hs : p.step = (.faulted fault, p))
  | waiting (hh : p.halted = none) (hw : p.isWaiting = true) (hs : p.step = (.waiting, p))
  | faulted (fault : Fault) (hh : p.halted = none) (hw : p.isWaiting = false)
      (hpc : fault.programCounter = p.machine.programCounter)
      (hs : p.step = (.faulted fault, { p with halted := some fault }))
  | executed (i : Instruction) (flow : Flow) (after : Core) (hh : p.halted = none)
      (hw : p.isWaiting = false) (hd : decodeNext p.machine = .ok i)
      (hx : i.execute.run p.core = .ok flow after)
      (hs : p.step = (.executed i, { p with
        machine := after.machine.proceed flow, generator := after.generator }))

theorem step_of_halted {p : Processor} {fault : Fault} (hh : p.halted = some fault) :
    p.step = (.faulted fault, p) := by
  unfold step
  rw [hh]

theorem step_of_waiting {p : Processor} (hh : p.halted = none) (hw : p.isWaiting = true) :
    p.step = (.waiting, p) := by
  unfold step
  rw [hh]
  exact if_pos hw

theorem step_of_running {p : Processor} (hh : p.halted = none) (hw : p.isWaiting = false) :
    p.step =
      match executeNext.run p.core with
      | .ok instruction core =>
        (.executed instruction, { p with machine := core.machine, generator := core.generator })
      | .error fault core => (.faulted fault, ⟨core.machine, core.generator, some fault⟩) := by
  unfold step
  rw [hh]
  exact if_neg (by simp [hw])

/-- **There is no other case.** -/
theorem stepCase (p : Processor) : StepCase p := by
  cases hh : p.halted with
  | some fault => exact .halted fault hh (step_of_halted hh)
  | none =>
    cases hw : p.isWaiting with
    | true => exact .waiting hh hw (step_of_waiting hh hw)
    | false =>
      have hs := step_of_running hh hw
      cases he : executeNext.run p.core with
      | error fault after =>
        obtain ⟨rfl, hpc⟩ := executeNext_atomic _ _ _ he
        rw [he] at hs
        exact .faulted fault hh hw hpc hs
      | ok i last =>
        obtain ⟨hd, flow, after, hx, rfl⟩ := executeNext_ok he
        rw [he] at hs
        exact .executed i flow after hh hw hd hx hs

/-! ## consequences -/

/-- what is executed has been decoded at the program counter, and has not faulted -/
theorem step_executed {p q : Processor} {i : Instruction} (h : p.step = (.executed i, q)) :
    decodeNext p.machine = .ok i ∧ ∃ flow after, i.execute.run p.core = .ok flow after ∧
      q = { p with machine := after.machine.proceed flow, generator := after.generator } := by
  cases p.stepCase with
  | halted fault hh hs => rw [hs] at h; cases h
  | waiting hh hw hs => rw [hs] at h; cases h
  | faulted fault hh hw hpc hs => rw [hs] at h; cases h
  | executed j flow after hh hw hd hx hs =>
    rw [hs] at h
    cases h
    exact ⟨hd, flow, after, hx, rfl⟩

/-- what is decoded at the program counter and does not fault is executed -/
theorem executed_of_run {p : Processor} {i : Instruction} {flow : Flow} {after : Core}
    (hh : p.halted = none) (hw : p.isWaiting = false) (hd : decodeNext p.machine = .ok i)
    (hx : i.execute.run p.core = .ok flow after) : p.step.1 = .executed i := by
  have hc : decodeNext p.core.machine = .ok i := hd
  rw [step_of_running hh hw, run_executeNext, hc]
  dsimp only
  rw [hx]

theorem running_of_executed {p q : Processor} {i : Instruction} (h : p.step = (.executed i, q)) :
    p.isWaiting = false ∧ p.halted = none ∧ q.halted = none := by
  cases p.stepCase with
  | halted fault hh hs => rw [hs] at h; cases h
  | waiting hh hw hs => rw [hs] at h; cases h
  | faulted fault hh hw hpc hs => rw [hs] at h; cases h
  | executed j flow after hh hw hd hx hs =>
    rw [hs] at h
    cases h
    exact ⟨hw, hh, hh⟩

/-- a step that executes nothing would be repeated for ever -/
theorem step_repeat {p : Processor} (h : ∀ i, p.step.1 ≠ .executed i) : p.step.2.step = p.step := by
  cases p.stepCase with
  | halted fault hh hs => rw [hs, hs]
  | waiting hh hw hs => rw [hs, hs]
  | faulted fault hh hw hpc hs => rw [hs]; exact step_of_halted rfl
  | executed i flow after hh hw hd hx hs => exact absurd (congrArg Prod.fst hs) (h i)

theorem same_proceed {part : Part} (m : Machine) (g : Generator) (flow : Flow) :
    part.Same ⟨m, g⟩ ⟨m.proceed flow, g⟩ := by
  cases flow <;> cases part <;> rfl

/-- **A step changes only what its instruction writes**, and nothing if it executes none. -/
theorem step_same {p : Processor} (part : Part)
    (h : ∀ i, p.step.1 = .executed i → i.writes part = false) :
    part.Same p.core p.step.2.core := by
  cases p.stepCase with
  | halted fault hh hs => rw [hs]; exact Part.Same.refl
  | waiting hh hw hs => rw [hs]; exact Part.Same.refl
  | faulted fault hh hw hpc hs => rw [hs]; exact Part.Same.refl
  | executed i flow after hh hw hd hx hs =>
    have hi := Instruction.execute_keeps (h i (congrArg Prod.fst hs)) _ _ _ hx
    rw [hs]
    exact hi.trans (same_proceed after.machine after.generator flow)

theorem step_same_or_writes (p : Processor) (part : Part) :
    part.Same p.core p.step.2.core ∨ ∃ i, p.step.1 = .executed i ∧ i.writes part = true := by
  by_cases h : ∃ i, p.step.1 = .executed i ∧ i.writes part = true
  · exact .inr h
  · left
    refine step_same part fun i hi => ?_
    cases hw : i.writes part with
    | false => rfl
    | true => exact absurd ⟨i, hi, hw⟩ h

end Chip8.Processor
