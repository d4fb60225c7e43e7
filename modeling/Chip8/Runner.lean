import Chip8.Scheduler

/-!
# The runner: a scheduler that runs on its own and takes messages from a queue

A runner repeats rounds.  In a round it handles all messages that are queued, in order, and then
runs the scheduler for one tick; it ends when a tick faults, which it tells in its last event, or
when it finds the queue empty with nobody left to fill it.

* `Runner.start`    refused if the clock does not tick;
* `Runner.send`, `Runner.disconnect`    the other end of the queue;
* `Runner.handle`, `Runner.tick`        the two things a runner does;
* `Runner.round`    one round.
-/

namespace Chip8

inductive StartError
  | zeroTimerFrequency
  deriving DecidableEq, Repr

def StartError.message : StartError → String
  | .zeroTimerFrequency => "the timer frequency must be at least 1 Hz"

/-- a bare name, there are no fields to show -/
def StartError.record : StartError → String
  | .zeroTimerFrequency => "ZeroTimerFrequency"

inductive Ending
  /-- nobody was left to send anything -/
  | disconnected
  | faulted (fault : Fault)
  deriving DecidableEq, Repr

structure Runner where
  scheduler : Scheduler
  /-- the messages that have not been handled, the oldest first -/
  queue : List Control
  /-- somebody is left who can send messages -/
  connected : Bool
  events : Array Event
  ending : Option Ending

namespace Runner

def ofScheduler (scheduler : Scheduler) : Runner := ⟨scheduler, [], true, #[], none⟩

/-- a runner for a processor, provided that its clock ticks -/
def start (processor : Processor) (pace : Pace) : Except StartError Runner :=
  if pace.timerFrequency = 0 then .error .zeroTimerFrequency
  else .ok (ofScheduler (Scheduler.start processor pace))

/-! ## the other end of the queue -/

/-- puts a message at the end of the queue, which takes none once the other end is gone -/
def send (r : Runner) (message : Control) : Runner :=
  if r.connected then { r with queue := r.queue ++ [message] } else r

def disconnect (r : Runner) : Runner := { r with connected := false }

/-! ## a round -/

/-- takes over what a call of the scheduler has left behind -/
def absorb (r : Runner) (reply : Reply) : Runner :=
  { r with scheduler := reply.scheduler, events := r.events.appendList reply.events }

/-- handles a message; a program that does not fit is ignored -/
def handle (r : Runner) : Control → Runner
  | .key k pressed => { r with scheduler := r.scheduler.setKey k pressed }
  | .reset program =>
    match r.scheduler.reset program with
    | .ok reply => r.absorb reply
    | .error _ => r

def handleQueue (r : Runner) : Runner := { r.queue.foldl handle r with queue := [] }

def tick (r : Runner) : Runner :=
  let reply := r.scheduler.runTick
  let ticked := r.absorb reply
  match reply.fault with
  | none => ticked
  | some fault =>
    { ticked with events := ticked.events.push (.stopped fault), ending := some (.faulted fault) }

/-- one round; nothing happens after the end -/
def round (r : Runner) : Runner :=
  match r.ending with
  | some _ => r
  | none =>
    let handled := r.handleQueue
    if handled.connected then handled.tick else { handled with ending := some .disconnected }

def rounds (r : Runner) : Nat → Runner
  | 0 => r
  | n + 1 =>
    match r.ending with
    | some _ => r
    | none => r.round.rounds n

end Runner

end Chip8
