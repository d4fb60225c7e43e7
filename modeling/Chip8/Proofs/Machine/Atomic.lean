import Chip8.Machine.Execute

/-!
# Faults leave nothing behind

An action keeps the changes made before a fault, so an instruction is undone by a fault only if it
checks before it changes.  The property passes from the parts of an instruction to the whole:

* `Action.Total`      the action never faults;
* `Action.Atomic`     a fault finds everything as it was, and tells the program counter;
* `Atomic.bind`       an atomic action, then one that cannot fault, is atomic;
* `Instruction.execute_atomic`    so is every instruction.
-/

namespace Chip8

namespace Action
variable {α β : Type} {a : Action α} {f : α → Action β}

def Total (a : Action α) : Prop := ∀ core, ∃ x after, a.run core = .ok x after

/-- a fault of the action has changed nothing, and it tells where the program counter stands -/
def Atomic (a : Action α) : Prop :=
  ∀ core fault after, a.run core = .error fault after →
    after = core ∧ fault.programCounter = core.machine.programCounter

/-! ## from the parts to the whole -/

theorem Total.bind (ha : Total a) (hf : ∀ x, Total (f x)) : Total (a >>= f) := by
  intro core
  obtain ⟨x, mid, hx⟩ := ha core
  obtain ⟨y, after, hy⟩ := hf x mid
  refine ⟨y, after, ?_⟩
  rw [EStateM.run_bind, hx]
  exact hy

theorem Total.atomic (ha : Total a) : Atomic a := by
  intro core fault after h
  obtain ⟨x, mid, hx⟩ := ha core
  rw [hx] at h
  cases h

/-- **Checks first, then changes.** -/
theorem Atomic.bind (ha : Atomic a) (hf : ∀ x, Total (f x)) : Atomic (a >>= f) := by
  intro core fault after h
  rw [EStateM.run_bind] at h
  cases hx : a.run core with
  | ok x mid =>
    rw [hx] at h
    obtain ⟨y, last, hy⟩ := hf x mid
    change (f x).run mid = _ at h
    rw [hy] at h
    cases h
  | error e mid =>
    rw [hx] at h
    cases h
    exact ha core fault after hx

theorem Atomic.of_machine {f : Machine → Action α} (hf : ∀ m, Atomic (f m)) :
    Atomic (machine >>= f) :=
  fun core => hf core.machine core

/-! ## the actions of instructions -/

theorem total_pure (x : α) : Total (pure x : Action α) := fun core => ⟨x, core, rfl⟩

theorem total_update (f : Machine → Machine) : Total (update f) := fun _ => ⟨_, _, rfl⟩

theorem total_jumpTo (target : UInt16) : Total (jumpTo target) := fun _ => ⟨_, _, rfl⟩

theorem total_randomByte : Total randomByte := fun _ => ⟨_, _, rfl⟩

theorem covered_atomic (count : Nat) : Atomic (covered count) := by
  intro core fault after h
  rw [run_covered] at h
  split at h
  · cases h
  · cases h
    exact ⟨rfl, rfl⟩

theorem pushReturn_atomic : Atomic pushReturn := by
  intro core fault after h
  rw [run_pushReturn] at h
  split at h
  · cases h
  · cases h
    exact ⟨rfl, rfl⟩

theorem popReturn_atomic : Atomic popReturn := by
  intro core fault after h
  rw [run_popReturn] at h
  split at h
  · cases h
  · cases h
    exact ⟨rfl, rfl⟩

end Action

namespace Instruction
open Chip8.Action

/-- **No instruction changes anything before a check that it does not pass.** -/
theorem execute_atomic (i : Instruction) : Atomic i.execute := by
  cases i with
  | systemJump target => exact (total_jumpTo _).atomic
  | jump target => exact (total_jumpTo _).atomic
  | jumpOffset address => exact Atomic.of_machine fun _ => (total_jumpTo _).atomic
  | call target => exact pushReturn_atomic.bind fun _ => total_jumpTo _
  | ret => exact popReturn_atomic.bind total_jumpTo
  | skip condition => exact Atomic.of_machine fun _ => (total_pure _).atomic
  | random x mask => exact (total_randomByte.bind fun _ => total_update _).atomic
  | draw x y rows => exact (covered_atomic _).bind fun _ => total_update _
  | storeDecimal x => exact (covered_atomic _).bind fun _ => total_update _
  | storeRegisters last => exact (covered_atomic _).bind fun _ => total_update _
  | loadRegisters last => exact (covered_atomic _).bind fun _ => total_update _
  | _ => exact (total_update _).atomic

end Instruction

end Chip8
