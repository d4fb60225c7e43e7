import Chip8.Proofs.Scheduler.Batch

/-!
# Calls of a scheduler

Whoever owns a scheduler runs batches and ticks, sets keys and resets it, in any order.  Every call
comes down to calls of the processor, one after the other.

* `Call`, `call`           one of these, and its reply;
* `after`, `history`       the scheduler behind a list of calls, and all the events told;
* `moves`, `allMoves`      the calls of the processor that they make;
* `processor_after`        the processor of the scheduler is the one behind these.
-/

namespace Chip8.Scheduler

inductive Call
  | runCycles (n : Nat)
  | runTick
  | tickTimers
  | key (k : Key) (pressed : Bool)
  | reset (program : List UInt8)
  deriving DecidableEq, Repr

/-- one call; a reset with a program that does not fit tells nothing and changes nothing -/
def call (s : Scheduler) : Call → Reply
  | .runCycles n => s.runCycles n
  | .runTick => s.runTick
  | .tickTimers => s.tickTimers
  | .key k pressed => ⟨[], none, s.setKey k pressed⟩
  | .reset program =>
    match s.reset program with
    | .ok reply => reply
    | .error _ => ⟨[], none, s⟩

def after (s : Scheduler) : List Call → Scheduler
  | [] => s
  | c :: calls => (s.call c).scheduler.after calls

def history (s : Scheduler) : List Call → List Event
  | [] => []
  | c :: calls => (s.call c).events ++ (s.call c).scheduler.history calls

/-! ## lists of calls -/

theorem after_append (s : Scheduler) (a b : List Call) :
    s.after (a ++ b) = (s.after a).after b := by
  induction a generalizing s with
  | nil => rfl
  | cons c a ih => exact ih (s.call c).scheduler

theorem history_append (s : Scheduler) (a b : List Call) :
    s.history (a ++ b) = s.history a ++ (s.after a).history b := by
  induction a generalizing s with
  | nil => rfl
  | cons c a ih => rw [List.cons_append, history, history, ih, List.append_assoc, after]

/-! ## what they ask of the processor -/

def batchSize (s : Scheduler) : Nat := s.pace.instructionsPerTick.toNat

/-- the calls of the processor that make up a call; the steps of a batch are all counted, also those
left out because nothing more is executed -/
def moves (s : Scheduler) : Call → List Processor.Call
  | .runCycles n => List.replicate n .step
  | .runTick =>
    List.replicate s.batchSize .step ++
      match (s.runCycles s.batchSize).fault with
      | some _ => []
      | none => [.tick]
  | .tickTimers => [.tick]
  | .key k pressed => [.key k pressed]
  | .reset program => [.reset program]

def allMoves (s : Scheduler) : List Call → List Processor.Call
  | [] => []
  | c :: calls => s.moves c ++ (s.call c).scheduler.allMoves calls

/-! ## each call by itself -/

theorem tickTimers_eq (s : Scheduler) :
    s.tickTimers =
      { events := toneChange s.tonePlaying s.processor.tickTimers.sounds
        fault := none
        scheduler := ⟨s.processor.tickTimers, s.pace, s.processor.tickTimers.sounds⟩ } := by
  simp only [tickTimers, syncTone_eq]

theorem runTick_eq (s : Scheduler) :
    s.runTick =
      match (s.runCycles s.batchSize).fault with
      | some _ => s.runCycles s.batchSize
      | none =>
        let ticked := (s.runCycles s.batchSize).scheduler.tickTimers
        { ticked with events := (s.runCycles s.batchSize).events ++ ticked.events } := rfl

theorem call_reset (s : Scheduler) (program : List UInt8) :
    s.call (.reset program) =
      if (Processor.Call.reset program).restarts then
        let fresh := Processor.start (Machine.ofProgram program) s.processor.generator
        ⟨.screenCleared :: toneChange s.tonePlaying fresh.sounds, none,
          ⟨fresh, s.pace, fresh.sounds⟩⟩
      else ⟨[], none, s⟩ := by
  by_cases h : program.length ≤ Memory.maxProgramLength
  · simp [call, reset, Processor.reset_eq, Processor.Call.restarts, h, syncTone_eq, Except.map]
  · simp [call, reset, Processor.reset_eq, Processor.Call.restarts, h, Except.map]

theorem processor_call (s : Scheduler) (c : Call) :
    (s.call c).scheduler.processor = s.processor.after (s.moves c) := by
  cases c with
  | runCycles n =>
    show (s.runCycles n).scheduler.processor = _
    rw [runCycles_eq]
    rfl
  | runTick =>
    show s.runTick.scheduler.processor = _
    have hb : (s.runCycles s.batchSize).scheduler.processor =
        s.processor.after (List.replicate s.batchSize .step) := by
      rw [runCycles_eq]
      rfl
    rw [runTick_eq, moves, Processor.after_append, ← hb]
    cases (s.runCycles s.batchSize).fault with
    | some fault => rfl
    | none =>
      dsimp only
      rw [tickTimers_eq]
      rfl
  | tickTimers =>
    show s.tickTimers.scheduler.processor = _
    rw [tickTimers_eq]
    rfl
  | key k pressed => rfl
  | reset program =>
    rw [call_reset, moves, Processor.after_cons, Processor.call_reset]
    split
    · rfl
    · rfl

/-- **The processor of a scheduler has been through the moves**, whatever the calls. -/
theorem processor_after (s : Scheduler) (calls : List Call) :
    (s.after calls).processor = s.processor.after (s.allMoves calls) := by
  induction calls generalizing s with
  | nil => rfl
  | cons c calls ih =>
    show ((s.call c).scheduler.after calls).processor = _
    rw [ih, processor_call, allMoves, Processor.after_append]

end Chip8.Scheduler
