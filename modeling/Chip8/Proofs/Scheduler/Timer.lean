import Chip8.Proofs.Processor.Bounds
import Chip8.Proofs.Processor.Log
import Chip8.Proofs.Scheduler.Call

/-!
# The timers: what an instruction has set, less the ticks since then

A timer is set by an instruction to the value of a register, and counts down to zero with the ticks
of the clock.  Its value is therefore known from the log: the value set last, less the ticks behind
that, and zero if none has been set since the last reset.

* `Timer`, `Entry.set?`      the two timers, and what a call has set one to;
* `Timer.lastSet`, `Timer.ticksSince`    read off a log;
* `timer_call`, `timer_after`    the law for the calls of a processor;
* `count_ticks_moves`        which calls of a scheduler tick the timers;
* `timer_history`            the law for the calls of a scheduler, at every moment in them.
-/

namespace Chip8

inductive Timer
  | delay
  | sound
  deriving DecidableEq, Repr

namespace Timer

def value (m : Machine) : Timer → UInt8
  | delay => m.delayTimer
  | sound => m.soundTimer

def part : Timer → Part
  | delay => .delayTimer
  | sound => .soundTimer

/-- the register that an instruction sets the timer to, if it does so -/
def setBy? : Timer → Instruction → Option Register
  | delay, .setDelay x => some x
  | sound, .setSound x => some x
  | _, _ => none

end Timer

/-! ## what a log says about them -/

/-- what the call has set the timer to, if it has set it -/
def Processor.Entry.set? (timer : Timer) (e : Entry) : Option UInt8 :=
  e.answer.executed?.bind fun i => (timer.setBy? i).map e.found.machine.register

def Processor.Entry.isTick (e : Entry) : Bool := e.answer == .ticked

namespace Timer
open Processor (Entry)
variable {timer : Timer}

/-- what the timer has been set to last, zero if it has not been set -/
def lastSet (timer : Timer) (log : List Entry) : UInt8 :=
  (log.filterMap (Entry.set? timer)).getLast?.getD 0

/-- the ticks behind the place at which the timer has been set last, all of them if it has not been
set -/
def ticksSince (timer : Timer) (log : List Entry) : Nat :=
  (log.rtakeWhile fun e => (e.set? timer).isNone).countP Entry.isTick

theorem lastSet_concat (timer : Timer) (log : List Entry) (e : Entry) :
    timer.lastSet (log ++ [e]) = (e.set? timer).getD (timer.lastSet log) :=
  Processor.getLast?_filterMap_concat _ log e 0

theorem ticksSince_concat (timer : Timer) (log : List Entry) (e : Entry) :
    timer.ticksSince (log ++ [e]) =
      if (e.set? timer).isNone then timer.ticksSince log + [e].countP Entry.isTick else 0 := by
  unfold ticksSince
  rw [List.rtakeWhile_concat]
  cases (e.set? timer).isNone with
  | true => simp only [if_true, List.countP_append]
  | false => rfl

theorem writes_part {i : Instruction} (h : i.writes timer.part = true) :
    ∃ x, timer.setBy? i = some x := by
  cases timer with
  | delay =>
    obtain ⟨x, rfl⟩ := writes_delayTimer h
    exact ⟨x, rfl⟩
  | sound =>
    obtain ⟨x, rfl⟩ := writes_soundTimer h
    exact ⟨x, rfl⟩

theorem value_of_same {a b : Core} (h : timer.part.Same a b) :
    timer.value b.machine = timer.value a.machine := by
  cases timer <;> exact h

theorem toNat_countDown (value : UInt8) :
    (Machine.countDown value).toNat = value.toNat - 1 := by
  unfold Machine.countDown
  split
  · next h => rw [h]; rfl
  · next h =>
    have h1 : 1 ≤ value.toNat :=
      Nat.one_le_iff_ne_zero.mpr fun hz => h (UInt8.toNat_inj.mp hz)
    exact UInt8.toNat_sub_of_le _ _ h1

end Timer

/-! ## the timers of a processor -/

namespace Processor
variable {p q : Processor} {timer : Timer}

/-- an instruction that sets the timer sets it to the register as it was found -/
theorem value_of_setBy? {i : Instruction} {x : Register} (hs : p.step = (.executed i, q))
    (hi : timer.setBy? i = some x) : timer.value q.machine = p.machine.register x := by
  obtain ⟨-, flow, after, hx, rfl⟩ := step_executed hs
  cases timer with
  | delay =>
    cases i with
    | setDelay y =>
      cases hi
      cases hx
      rfl
    | _ => cases hi
  | sound =>
    cases i with
    | setSound y =>
      cases hi
      cases hx
      rfl
    | _ => cases hi

theorem isTick_call (p : Processor) (c : Call) :
    (Entry.mk p (p.call c).1).isTick = true ↔ c = .tick := by
  cases c with
  | reset program =>
    rw [call_reset]
    split
    · exact iff_of_false nofun nofun
    · exact iff_of_false nofun nofun
  | tick => exact iff_of_true rfl rfl
  | _ => exact iff_of_false nofun nofun

/-- neither a tick nor an instruction that sets it, and nothing else touches a timer -/
theorem value_of_untouched {c : Call} (hc : c.restarts = false) (ht : c ≠ .tick)
    (hs : (Entry.mk p (p.call c).1).set? timer = none) :
    timer.value (p.call c).2.machine = timer.value p.machine := by
  have hn : c.touches timer.part = false := by
    cases timer <;> cases c <;> first | rfl | exact absurd rfl ht
  refine Timer.value_of_same (call_same timer.part hc hn fun i he => ?_)
  cases hw : i.writes timer.part with
  | false => rfl
  | true =>
    obtain ⟨x, hx⟩ := Timer.writes_part hw
    rw [Entry.set?, he, Option.bind_some, hx] at hs
    cases hs

/-- **A call sets the timer or leaves it alone, but for a tick**, unless it is a restart. -/
theorem timer_call (timer : Timer) {c : Call} (hc : c.restarts = false) :
    (timer.value (p.call c).2.machine).toNat =
      match (Entry.mk p (p.call c).1).set? timer with
      | some value => value.toNat
      | none => (timer.value p.machine).toNat - [Entry.mk p (p.call c).1].countP Entry.isTick := by
  cases hs : (Entry.mk p (p.call c).1).set? timer with
  | some value =>
    obtain ⟨i, he, hi⟩ := Option.bind_eq_some_iff.mp hs
    obtain ⟨x, hx, rfl⟩ := Option.map_eq_some_iff.mp hi
    obtain ⟨rfl, hp⟩ := step_of_executed? he
    exact congrArg UInt8.toNat (value_of_setBy? hp hx)
  | none =>
    by_cases ht : c = .tick
    · subst ht
      cases timer <;> exact Timer.toNat_countDown _
    · have hk : ¬ (Entry.mk p (p.call c).1).isTick = true := fun h => ht ((isTick_call p c).mp h)
      rw [value_of_untouched hc ht hs, List.countP_cons_of_neg hk]
      rfl

/-- **A timer is what it has been set to last, less the ticks since then.** -/
theorem timer_after (timer : Timer) (hp : timer.value p.machine = 0) (calls : List Call) :
    (timer.value (p.after calls).machine).toNat =
      (timer.lastSet (Entry.sinceReset (p.log calls))).toNat -
        timer.ticksSince (Entry.sinceReset (p.log calls)) := by
  induction calls using List.reverseRecOn with
  | nil => exact congrArg UInt8.toNat hp
  | append_singleton calls c ih =>
    rw [after_concat, log_concat, Entry.sinceReset_concat]
    cases hr : c.restarts with
    | true =>
      rw [if_pos (answer_eq_reset_iff.mpr hr)]
      cases c with
      | reset program =>
        rw [call_reset, hr]
        cases timer <;> rfl
      | _ => cases hr
    | false =>
      have hn : ((p.after calls).call c).1 ≠ .reset none := fun h => by
        rw [answer_eq_reset_iff.mp h] at hr
        cases hr
      rw [if_neg hn, timer_call timer hr, Timer.lastSet_concat, Timer.ticksSince_concat]
      -- one tick less is one tick more since it was set, also below zero
      cases (Entry.mk (p.after calls) ((p.after calls).call c).1).set? timer with
      | some value => rfl
      | none => exact (congrArg (· - _) ih).trans (Nat.sub_sub _ _ _)

theorem countP_log (p : Processor) (calls : List Call) :
    (p.log calls).countP Entry.isTick = calls.count .tick := by
  induction calls generalizing p with
  | nil => rfl
  | cons c calls ih =>
    rw [log, List.countP_cons, List.count_cons, ih]
    congr 1
    by_cases hc : c = .tick
    · rw [if_pos ((isTick_call p c).mpr hc), if_pos (beq_iff_eq.mpr hc)]
    · rw [if_neg fun h => hc ((isTick_call p c).mp h), if_neg fun h => hc (beq_iff_eq.mp h)]

end Processor

/-! ## the timers of a scheduler -/

namespace Scheduler
open Processor (Entry)

theorem fault_runTick (s : Scheduler) :
    s.runTick.fault = (s.runCycles s.batchSize).fault := by
  rw [runTick_eq]
  cases h : (s.runCycles s.batchSize).fault with
  | some fault => exact h
  | none => rfl

/-- **A call ticks the timers once or not at all**: a tick by itself does, and a batch with a tick if
it ends without a fault. -/
theorem count_ticks_moves (s : Scheduler) (c : Call) :
    (s.moves c).count .tick =
      if c = .tickTimers ∨ c = .runTick ∧ (s.call c).fault = none then 1 else 0 := by
  have hn : ∀ n, (List.replicate n Processor.Call.step).count .tick = 0 :=
    fun n => List.count_replicate.trans (if_neg nofun)
  cases c with
  | runCycles n => exact (hn n).trans (if_neg (by simp)).symm
  | tickTimers => exact (if_pos (.inl rfl)).symm
  | key k pressed => exact (if_neg (by simp)).symm
  | reset program => exact (if_neg (by simp)).symm
  | runTick =>
    have hf : (s.call .runTick).fault = (s.runCycles s.batchSize).fault := s.fault_runTick
    rw [moves, List.count_append, hn, hf]
    cases (s.runCycles s.batchSize).fault with
    | some fault => simp
    | none => simp

/-- **The timers at any moment.**  Take a scheduler of a program, and any calls.  Its processor has
been through the moves of these, and at every place in them a timer is what the last instruction
since the last reset has set it to, zero if there was none, less the ticks behind that instruction.
A tick of the scheduler is one tick; so is a batch with a tick, of any size, if it ends without a
fault; every other call is none. -/
theorem timer_history {program : List UInt8} {g : Generator} {p : Processor}
    (hp : Processor.load program g = .ok p) (pace : Pace) (calls : List Call) :
    ((start p pace).after calls).processor = p.after ((start p pace).allMoves calls) ∧
    (∀ moves, moves <+: (start p pace).allMoves calls → ∀ timer : Timer,
      let log := Entry.sinceReset (p.log moves)
      (timer.value (p.after moves).machine).toNat =
        (timer.lastSet log).toNat - timer.ticksSince log) ∧
    ∀ (s : Scheduler) (c : Call), (s.processor.log (s.moves c)).countP Entry.isTick =
      if c = .tickTimers ∨ c = .runTick ∧ (s.call c).fault = none then 1 else 0 := by
  obtain rfl := Processor.eq_start_of_load hp
  refine ⟨processor_after _ calls, fun moves _ timer => ?_, fun s c => ?_⟩
  · have hz : timer.value (Machine.ofProgram program) = 0 := by cases timer <;> rfl
    exact Processor.timer_after timer hz moves
  · rw [Processor.countP_log]
    exact s.count_ticks_moves c

/-- sets the delay timer to five and then waits in place -/
def delaying : List UInt8 := [0x60, 0x05, 0xF0, 0x15, 0x12, 0x04]

def delayer : Processor := .start (.ofProgram delaying) (.ofSeed 0)

/-- the tick before the instruction does not count -/
def delayerCalls : List Call := [.tickTimers, .runCycles 2, .runTick, .key 3 true, .tickTimers]

theorem timer_history_delayer :
    let machine := ((start delayer ⟨60, 1⟩).after delayerCalls).processor.machine
    Processor.load delaying (.ofSeed 0) = .ok delayer ∧
    (Timer.delay.value machine).toNat = 3 ∧ (Timer.sound.value machine).toNat = 0 := by
  have hl : Processor.load delaying (.ofSeed 0) = .ok delayer := rfl
  obtain ⟨ha, ht, -⟩ := timer_history hl ⟨60, 1⟩ delayerCalls
  have h : let log := Entry.sinceReset (delayer.log ((start delayer ⟨60, 1⟩).allMoves delayerCalls))
      (Timer.delay.lastSet log = 5 ∧ Timer.delay.ticksSince log = 2) ∧
      Timer.sound.lastSet log = 0 ∧ Timer.sound.ticksSince log = 3 := by
    decide +kernel
  obtain ⟨⟨hd, hdt⟩, hs, hst⟩ := h
  have hD := ht _ (List.prefix_refl _) .delay
  have hS := ht _ (List.prefix_refl _) .sound
  dsimp only at hD hS
  rw [hd, hdt] at hD
  rw [hs, hst] at hS
  rw [ha]
  exact ⟨hl, hD.trans (by decide), hS.trans (by decide)⟩

end Scheduler

end Chip8
