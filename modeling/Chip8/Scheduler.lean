import Chip8.Event
import Chip8.Pace
import Chip8.Processor

/-!
# The scheduler: instructions against the clock, and the events of both

The timers count down at a fixed frequency however many instructions are executed.  A scheduler
runs a number of instructions for each tick of the timers, and tells in events what has happened:
the screen at most once in a batch of instructions, the tone whenever the sound timer starts or
stops.

* `Scheduler.runCycles`     a batch of instructions;
* `Scheduler.tickTimers`    a tick of the timers;
* `Scheduler.runTick`       a batch of the pace's size, then a tick;
* `Scheduler.setKey`, `Scheduler.reset`    what comes from outside.
-/

namespace Chip8

structure Scheduler where
  processor : Processor
  pace : Pace
  tonePlaying : Bool

structure Reply where
  events : List Event
  /-- the fault that has ended it -/
  fault : Option Fault
  scheduler : Scheduler

/-- goes on with another call, unless there was a fault -/
def Reply.andThen (r : Reply) (call : Scheduler → Reply) : Reply :=
  match r.fault with
  | some _ => r
  | none =>
    let second := call r.scheduler
    { second with events := r.events ++ second.events }

namespace Scheduler

def start (processor : Processor) (pace : Pace) : Scheduler := ⟨processor, pace, false⟩

/-! ## events of an instruction -/

def wantsTone (s : Scheduler) : Bool := s.processor.machine.soundTimer != 0

/-- tells the speaker whether to play, if that has changed -/
def syncTone (s : Scheduler) : List Event × Scheduler :=
  if s.wantsTone = s.tonePlaying then ([], s)
  else ([if s.wantsTone then .toneStarted else .toneStopped], { s with tonePlaying := s.wantsTone })

def eventsOf : Instruction → List Event
  | .clearScreen => [.screenCleared]
  | .awaitKey _ => [.keyAwaited]
  | _ => []

def redraws : Instruction → Bool
  | .clearScreen | .draw .. => true
  | _ => false

/-! ## a batch of instructions -/

structure Batch where
  scheduler : Scheduler
  events : Array Event
  redraw : Bool

/-- the batch after an instruction that has left this processor -/
def Batch.record (b : Batch) (instruction : Instruction) (processor : Processor) : Batch :=
  let synced := { b.scheduler with processor }.syncTone
  { scheduler := synced.2
    events := b.events.appendList (eventsOf instruction ++ synced.1)
    redraw := b.redraw || redraws instruction }

/-- up to `n` more instructions; a wait for a key and a fault end the batch -/
def Batch.run (b : Batch) : Nat → Batch × Option Fault
  | 0 => (b, none)
  | n + 1 =>
    match b.scheduler.processor.step with
    | (.executed instruction, processor) => (b.record instruction processor).run n
    | (.waiting, _) => (b, none)
    | (.faulted fault, processor) =>
      ({ b with scheduler := { b.scheduler with processor } }, some fault)

def Batch.allEvents (b : Batch) : List Event :=
  b.events.toList ++
    if b.redraw then [.screenUpdated b.scheduler.processor.machine.screen] else []

/-- up to `n` instructions; if one of them has changed the screen it is shown once, at the end,
also after a fault -/
def runCycles (s : Scheduler) (n : Nat) : Reply :=
  let (b, fault) := Batch.run ⟨s, #[], false⟩ n
  ⟨b.allEvents, fault, b.scheduler⟩

/-! ## the clock -/

def tickTimers (s : Scheduler) : Reply :=
  let synced := { s with processor := s.processor.tickTimers }.syncTone
  ⟨synced.1, none, synced.2⟩

/-- the instructions for one tick, then the tick unless there was a fault -/
def runTick (s : Scheduler) : Reply :=
  (s.runCycles s.pace.instructionsPerTick.toNat).andThen tickTimers

def tickMany : Nat → Scheduler → Reply
  | 0, s => ⟨[], none, s⟩
  | n + 1, s => s.tickTimers.andThen (tickMany n)

/-- `n` times the instructions for a tick and the tick, up to the first fault -/
def runTicks : Nat → Scheduler → Reply
  | 0, s => ⟨[], none, s⟩
  | n + 1, s => s.runTick.andThen (runTicks n)

/-! ## from outside -/

/-- presses or releases a key, which is not told -/
def setKey (s : Scheduler) (k : Key) (pressed : Bool) : Scheduler :=
  { s with processor := (s.processor.setKey k pressed).2 }

/-- starts afresh with another program: the screen is told to be blank, a tone stops -/
def reset (s : Scheduler) (program : List UInt8) : Except ProgramTooLong Reply :=
  (s.processor.reset program).map fun processor =>
    let synced := { s with processor }.syncTone
    ⟨.screenCleared :: synced.1, none, synced.2⟩

end Scheduler

end Chip8
