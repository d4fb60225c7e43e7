import Chip8.Generator
import Chip8.Machine.Basic

/-!
# Actions: what an instruction does, change by change

An instruction works in place on the machine and on the random generator beside it.  An action is
a part of that work.  A fault ends it on the spot, and what has been changed before stays changed:
what a fault leaves behind is decided by the order of checks and changes, not by the type.

* `Core`, `Action`                                   what is worked on, and the work;
* `Action.machine`, `Action.change`, `Action.randomByte`    reading, changing, drawing a byte;
* `Action.fault`, `Action.covered`                   stopping, and the check before an access;
* `Action.pushReturn`, `Action.popReturn`            the call stack;
* `Action.update`, `Action.jumpTo`                   the last change of an instruction.
-/

namespace Chip8

/-- where execution goes on after an instruction -/
inductive Flow
  | next
  | skip
  /-- where the instruction has put the program counter -/
  | jumped
  deriving DecidableEq, Repr

structure Core where
  machine : Machine
  generator : Generator

/-- a part of an instruction; the changes made before a fault are kept -/
abbrev Action := EStateM Fault Core

namespace Action

/-! ## single changes -/

def machine : Action Machine := return (← get).machine

def change (f : Machine → Machine) : Action Unit :=
  modify fun core => { core with machine := f core.machine }

def randomByte : Action UInt8 :=
  modifyGet fun core => (core.generator.next.1, { core with generator := core.generator.next.2 })

def fault {α : Type} (f : Fault) : Action α := throw f

@[simp] theorem run_machine (core : Core) : machine.run core = .ok core.machine core := rfl

@[simp] theorem run_change (f : Machine → Machine) (core : Core) :
    (change f).run core = .ok () { core with machine := f core.machine } := rfl

@[simp] theorem run_randomByte (core : Core) :
    randomByte.run core =
      .ok core.generator.next.1 { core with generator := core.generator.next.2 } := rfl

@[simp] theorem run_fault {α : Type} (f : Fault) (core : Core) :
    (fault f : Action α).run core = .error f core := rfl

/-! ## checks, and changes that may fault -/

def covered (count : Nat) : Action Unit := do
  let m ← machine
  unless Memory.Covers m.index.toNat count do fault (m.outOfBounds m.index count)

/-- puts the address of the next instruction on the call stack, with the program counter still at
the call -/
def pushReturn : Action Unit := do
  let m ← machine
  match m.stack.push (m.programCounter + 2) with
  | .ok stack => change ({ · with stack })
  | .error _ => fault (.stackOverflow m.programCounter)

def popReturn : Action UInt16 := do
  let m ← machine
  match m.stack.pop with
  | some (address, stack) =>
    change ({ · with stack })
    return address
  | none => fault (.stackUnderflow m.programCounter)

theorem run_covered (count : Nat) (core : Core) :
    (covered count).run core =
      if Memory.Covers core.machine.index.toNat count then .ok () core
      else .error (core.machine.outOfBounds core.machine.index count) core := by
  by_cases h : Memory.Covers core.machine.index.toNat count
  · simp [covered, h]
  · simp [covered, h]

theorem run_pushReturn (core : Core) :
    pushReturn.run core =
      match core.machine.stack.push (core.machine.programCounter + 2) with
      | .ok stack => .ok () { core with machine := { core.machine with stack } }
      | .error _ => .error (.stackOverflow core.machine.programCounter) core := by
  simp only [pushReturn, EStateM.run_bind, run_machine]
  cases core.machine.stack.push (core.machine.programCounter + 2) with
  | ok stack => rfl
  | error full => rfl

theorem run_popReturn (core : Core) :
    popReturn.run core =
      match core.machine.stack.pop with
      | some (address, stack) => .ok address { core with machine := { core.machine with stack } }
      | none => .error (.stackUnderflow core.machine.programCounter) core := by
  simp only [popReturn, EStateM.run_bind, run_machine]
  cases core.machine.stack.pop with
  | none => rfl
  | some top => rfl

/-! ## the end of an instruction -/

/-- changes the machine and goes on at the next instruction -/
def update (f : Machine → Machine) : Action Flow := do
  change f
  return .next

def jumpTo (target : UInt16) : Action Flow := do
  change ({ · with programCounter := target })
  return .jumped

@[simp] theorem run_update (f : Machine → Machine) (core : Core) :
    (update f).run core = .ok .next { core with machine := f core.machine } := rfl

@[simp] theorem run_jumpTo (target : UInt16) (core : Core) :
    (jumpTo target).run core =
      .ok .jumped { core with machine := { core.machine with programCounter := target } } := rfl

end Action

end Chip8
