import Chip8.Machine.Execute

/-!
# The processor: one instruction at a time

A processor is a machine with its random generator and the fault that has stopped it, if one has.
A step executes the instruction at the program counter, unless the machine waits for a key or has
been stopped.

* `Processor.step`          one step and its outcome;
* `Processor.setKey`        a key pressed or released; a press ends a wait;
* `Processor.tickTimers`    one tick of the timers;
* `Processor.reset`         a fresh start with another program;
* `Processor.run`           steps until one does not execute.
-/

namespace Chip8

structure Processor where
  machine : Machine
  generator : Generator
  halted : Option Fault

inductive Outcome
  | executed (instruction : Instruction)
  /-- nothing, a key is awaited -/
  | waiting
  /-- nothing, the instruction faults or an earlier one did -/
  | faulted (fault : Fault)
  deriving DecidableEq, Repr

namespace Outcome

/-- the words for a step in which nothing was executed because a key is awaited -/
def waitingText : String := "(waiting)"

end Outcome

namespace Processor

def start (machine : Machine) (generator : Generator) : Processor := ⟨machine, generator, none⟩

def load (program : List UInt8) (generator : Generator) : Except ProgramTooLong Processor :=
  (Machine.load program).map (start · generator)

def isWaiting (p : Processor) : Bool := p.machine.awaiting.isSome

/-! ## a step -/

def decodeNext (m : Machine) : Except Fault Instruction :=
  match m.fetch with
  | .error fault => .error fault
  | .ok opcode =>
    match Instruction.decode? opcode with
    | some instruction => .ok instruction
    | none => .error (.unknownOpcode opcode m.programCounter)

/-- decodes the instruction at the program counter, executes it and moves the program counter on -/
def executeNext : Action Instruction := do
  let instruction ← liftExcept (decodeNext (← Action.machine))
  let flow ← instruction.execute
  Action.change (·.proceed flow)
  return instruction

def core (p : Processor) : Core := ⟨p.machine, p.generator⟩

/-- one step: a stopped processor repeats its fault, a waiting one does nothing, any other executes
the instruction at the program counter and is stopped if that faults -/
def step (p : Processor) : Outcome × Processor :=
  match p.halted with
  | some fault => (.faulted fault, p)
  | none =>
    if p.isWaiting then (.waiting, p)
    else
      match executeNext.run p.core with
      | .ok instruction core =>
        (.executed instruction, { p with machine := core.machine, generator := core.generator })
      | .error fault core => (.faulted fault, ⟨core.machine, core.generator, some fault⟩)

/-! ## between the steps -/

/-- presses or releases a key; the first key pressed during a wait goes to the waiting register,
and then the answer is true -/
def setKey (p : Processor) (k : Key) (pressed : Bool) : Bool × Processor :=
  let machine := p.machine.setKey k pressed
  match machine.awaiting, pressed with
  | some x, true =>
    (true, { p with
      machine := { machine with awaiting := none }.setRegister x (UInt8.ofNat k.val) })
  | _, _ => (false, { p with machine })

/-- one tick of the timers, which also goes on while nothing is executed -/
def tickTimers (p : Processor) : Processor := { p with machine := p.machine.tickTimers }

/-- starts afresh with another program; the random generator goes on where it is -/
def reset (p : Processor) (program : List UInt8) : Except ProgramTooLong Processor :=
  load program p.generator

/-! ## many steps -/

/-- up to `n` steps after `count` ones that executed, up to the first one that does not execute:
the number that executed, the outcome of the last one, and the processor behind it -/
def runFrom (count : Nat) (last : Option Outcome) (p : Processor) :
    Nat → Nat × Option Outcome × Processor
  | 0 => (count, last, p)
  | n + 1 =>
    match p.step with
    | (.executed instruction, q) => runFrom (count + 1) (some (.executed instruction)) q n
    | (outcome, q) => (count, some outcome, q)

def run (p : Processor) (n : Nat) : Nat × Option Outcome × Processor := runFrom 0 none p n

def tickMany (p : Processor) : Nat → Processor
  | 0 => p
  | n + 1 => p.tickTimers.tickMany n

end Processor

end Chip8
