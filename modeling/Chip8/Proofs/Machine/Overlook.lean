import Chip8.Machine.Execute

/-!
# Changes of the state that an action does not notice

Something may be changed beside an action that it neither asks for nor sets.  On the changed state it
does the same, and it leaves the change as it is.

* `Core.Aside`              the change is not one of program counter, index or call stack;
* `Action.resultWhen`       the result of an action, with the state behind it changed;
* `Action.Overlooks`        the action does the same on the changed state;
* `Overlooks.bind`, `overlooks_update`, `overlooks_covered`, ...    the parts of instructions.
-/

namespace Chip8

/-- the change is not one of the program counter, the index or the call stack -/
structure Core.Aside (g : Core → Core) : Prop where
  programCounter core : (g core).machine.programCounter = core.machine.programCounter
  index core : (g core).machine.index = core.machine.index
  stack core : (g core).machine.stack = core.machine.stack
  setProgramCounter core programCounter :
    { g core with machine := { (g core).machine with programCounter } } =
      g { core with machine := { core.machine with programCounter } }
  setStack core stack :
    { g core with machine := { (g core).machine with stack } } =
      g { core with machine := { core.machine with stack } }

namespace Action
variable {α β : Type} {g : Core → Core}

/-- the result of an action, with the state behind it changed -/
def resultWhen (g : Core → Core) : EStateM.Result Fault Core α → EStateM.Result Fault Core α
  | .ok x after => .ok x (g after)
  | .error fault after => .error fault (g after)

/-- on a changed state the action does the same, and it leaves the change as it is -/
def Overlooks (g : Core → Core) (a : Action α) : Prop :=
  ∀ core, a.run (g core) = resultWhen g (a.run core)

theorem Overlooks.bind {a : Action α} {f : α → Action β} (ha : Overlooks g a)
    (hf : ∀ x, Overlooks g (f x)) : Overlooks g (a >>= f) := by
  intro core
  rw [EStateM.run_bind, EStateM.run_bind, ha core]
  cases a.run core with
  | ok x mid => exact hf x mid
  | error fault mid => rfl

theorem Overlooks.of_machine {f : Machine → Action α} (hf : ∀ m, Overlooks g (f m))
    (hg : ∀ core, f (g core).machine = f core.machine) : Overlooks g (machine >>= f) := by
  intro core
  show (f (g core).machine).run (g core) = _
  rw [hg]
  exact hf core.machine core

theorem overlooks_pure (x : α) : Overlooks g (pure x : Action α) := fun _ => rfl

theorem overlooks_update {f : Machine → Machine}
    (hf : ∀ core, { g core with machine := f (g core).machine } =
      g { core with machine := f core.machine }) : Overlooks g (update f) := by
  intro core
  rw [run_update, run_update, hf]
  rfl

/-! ## changes aside -/

theorem overlooks_jumpTo (hg : Core.Aside g) (target : UInt16) : Overlooks g (jumpTo target) := by
  intro core
  rw [run_jumpTo, run_jumpTo, hg.setProgramCounter]
  rfl

theorem overlooks_covered (hg : Core.Aside g) (count : Nat) : Overlooks g (covered count) := by
  intro core
  simp only [run_covered, Machine.outOfBounds, hg.index, hg.programCounter]
  split
  · rfl
  · rfl

theorem overlooks_pushReturn (hg : Core.Aside g) : Overlooks g pushReturn := by
  intro core
  rw [run_pushReturn, run_pushReturn, hg.stack, hg.programCounter]
  cases core.machine.stack.push (core.machine.programCounter + 2) with
  | ok stack =>
    dsimp only
    rw [hg.setStack]
    rfl
  | error full => rfl

theorem overlooks_popReturn (hg : Core.Aside g) : Overlooks g popReturn := by
  intro core
  rw [run_popReturn, run_popReturn, hg.stack, hg.programCounter]
  cases core.machine.stack.pop with
  | none => rfl
  | some top =>
    dsimp only
    rw [hg.setStack]
    rfl

end Action

end Chip8
