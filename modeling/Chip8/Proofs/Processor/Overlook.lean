import Chip8.Proofs.Machine.Overlook
import Chip8.Proofs.Processor.Step

/-!
# Changes of the state that a step does not notice

A step overlooks a change if the next instruction is the same on the changed state and overlooks it.

* `Processor.changed`        the processor with a change of machine and generator;
* `executeNext_changed`      the next instruction executed on a changed state;
* `step_changed`             a step of the changed processor.
-/

namespace Chip8

theorem Core.Aside.proceed {g : Core → Core} (hg : Aside g) (core : Core) (flow : Flow) :
    { g core with machine := (g core).machine.proceed flow } =
      g { core with machine := core.machine.proceed flow } := by
  cases flow with
  | jumped => rfl
  | next =>
    rw [Machine.proceed, hg.programCounter, hg.setProgramCounter]
    rfl
  | skip =>
    rw [Machine.proceed, hg.programCounter, hg.setProgramCounter]
    rfl

namespace Processor
open Chip8.Action

variable {g : Core → Core}

/-- the processor with a change of its machine and its generator -/
def changed (p : Processor) (g : Core → Core) : Processor :=
  ⟨(g p.core).machine, (g p.core).generator, p.halted⟩

theorem executeNext_changed (hg : Core.Aside g) (core : Core)
    (hd : decodeNext (g core).machine = decodeNext core.machine)
    (hx : ∀ i, decodeNext core.machine = .ok i →
      i.execute.run (g core) = resultWhen g (i.execute.run core)) :
    executeNext.run (g core) = resultWhen g (executeNext.run core) := by
  rw [run_executeNext, run_executeNext, hd]
  cases he : decodeNext core.machine with
  | error fault => rfl
  | ok i =>
    dsimp only
    rw [hx i he]
    cases i.execute.run core with
    | error fault after => rfl
    | ok flow after =>
      simp only [resultWhen, hg.proceed]

/-- **A step overlooks what executing the next instruction overlooks.** -/
theorem step_changed {p : Processor} (hw : (p.changed g).isWaiting = p.isWaiting)
    (hx : p.halted = none → p.isWaiting = false →
      executeNext.run (g p.core) = resultWhen g (executeNext.run p.core)) :
    (p.changed g).step = (p.step.1, p.step.2.changed g) := by
  cases hh : p.halted with
  | some fault =>
    have hhg : (p.changed g).halted = some fault := hh
    rw [step_of_halted hh, step_of_halted hhg]
  | none =>
    have hhg : (p.changed g).halted = none := hh
    cases hp : p.isWaiting with
    | true => rw [step_of_waiting hh hp, step_of_waiting hhg (hw.trans hp)]
    | false =>
      have hc : (p.changed g).core = g p.core := rfl
      rw [step_of_running hh hp, step_of_running hhg (hw.trans hp), hc, hx hh hp]
      cases executeNext.run p.core with
      | ok i core => rfl
      | error fault core => rfl

end Processor

end Chip8
