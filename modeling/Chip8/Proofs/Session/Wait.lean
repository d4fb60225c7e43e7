import Chip8.Proofs.Runner.Lull
import Chip8.Proofs.Runner.Serial
import Chip8.Proofs.Scheduler.Announce
import Chip8.Proofs.Session.Play

/-!
# While a key is awaited

A wait begins with an instruction that tells it, and only a message ends it.  If the timers are off
when it begins, ticks change nothing as long as it lasts, however many there are.

* `Scheduler.Resting`       a wait with nothing else going on, which a tick leaves as it is;
* `Control.endsWait`        the messages that end any wait;
* `Step.awaited`            apart from messages, a wait begins when it is told and does not end;
* `Step.resting`            with the timers off at its beginning, a wait is a resting one.
-/

namespace Chip8

/-! ## a wait with nothing else going on -/

theorem Machine.tickTimers_off {m : Machine} (hd : m.delayTimer = 0) (hs : m.soundTimer = 0) :
    m.tickTimers = m := by
  cases m
  cases hd
  cases hs
  rfl

namespace Scheduler
variable {s : Scheduler}

def timersOff (s : Scheduler) : Bool :=
  s.processor.machine.delayTimer == 0 && s.processor.machine.soundTimer == 0

/-- a key is awaited, the timers are off and no tone is playing -/
structure Resting (s : Scheduler) : Prop where
  waiting : s.isWaiting = true
  running : s.processor.halted = none
  timers : s.timersOff = true
  silent : s.tonePlaying = false

namespace Resting

theorem step (h : s.Resting) : s.processor.step = (.waiting, s.processor) :=
  Processor.step_of_waiting h.running h.waiting

theorem timers_eq (h : s.Resting) :
    s.processor.machine.delayTimer = 0 ∧ s.processor.machine.soundTimer = 0 := by
  have ht := h.timers
  simpa only [timersOff, Bool.and_eq_true, beq_iff_eq] using ht

theorem sounds (h : s.Resting) : s.processor.sounds = false := by
  rw [Processor.sounds, h.timers_eq.2]
  rfl

theorem tickTimers (h : s.Resting) : s.tickTimers = ⟨[], none, s⟩ := by
  have hp : s.processor.tickTimers = s.processor := by
    rw [Processor.tickTimers, Machine.tickTimers_off h.timers_eq.1 h.timers_eq.2]
  have ht : toneChange s.tonePlaying s.processor.sounds = [] := by
    rw [h.silent, h.sounds]
    rfl
  rw [tickTimers_eq, hp, ht, h.sounds, ← h.silent]

/-- **A tick leaves a resting wait as it is, and tells nothing.** -/
theorem runTick (h : s.Resting) : s.runTick = ⟨[], none, s⟩ := by
  have hs : s.Synced := h.silent.trans h.sounds.symm
  rw [runTick_eq, runCycles_inPlace hs ⟨h.running, .inl h.waiting⟩]
  dsimp only
  rw [h.tickTimers]
  rfl

end Resting

end Scheduler

/-! ## what ends a wait -/

/-- a key is pressed, or a program that fits starts afresh -/
def Control.endsWait : Control → Bool
  | .key _ pressed => pressed
  | .reset program => program.length ≤ Memory.maxProgramLength

namespace Scheduler
variable {s : Scheduler} {message : Control}

theorem call_endsWait (hw : s.isWaiting = true) (hm : message.endsWait = true) :
    (s.call message.call).scheduler.isWaiting = false ∧
      (s.call message.call).events.count .keyAwaited = 0 := by
  refine ⟨?_, count_keyAwaited_of_waiting hw message.call⟩
  cases message with
  | key k pressed =>
    obtain ⟨hn, -⟩ | ⟨x, -, -, hs⟩ := s.processor.setKey_cases k pressed
    · obtain hn | rfl := hn
      · rw [isWaiting, Processor.isWaiting, hn] at hw
        cases hw
      · cases hm
    · show (s.processor.setKey k pressed).2.isWaiting = false
      rw [hs]
      rfl
  | reset program =>
    have hr : (Processor.Call.reset program).restarts = true := hm
    rw [Control.call, call_reset, if_pos hr]
    rfl

end Scheduler

/-! ## waits along the moves of a thread -/

namespace Thread
variable {t u : Thread} {m : Move}

/-- **Apart from messages, a wait begins when it is told, and does not end.** -/
theorem Step.awaited (h : Step t m u) (hm : m.handled? = none) :
    ∃ told, u.runner.events.toList = t.runner.events.toList ++ told ∧
      told.count .keyAwaited + t.runner.scheduler.isWaiting.toNat =
        u.runner.scheduler.isWaiting.toNat := by
  cases h with
  | send message hc =>
    rw [Runner.send, if_pos hc]
    exact ⟨[], (List.append_nil _).symm, Nat.zero_add _⟩
  | hangUp hc => exact ⟨[], (List.append_nil _).symm, Nat.zero_add _⟩
  | handle message rest he hp hq => cases hm
  | begin he hp hq hc => exact ⟨[], (List.append_nil _).symm, Nat.zero_add _⟩
  | stop he hp hq hc => exact ⟨[], (List.append_nil _).symm, Nat.zero_add _⟩
  | execute left redraw i p he hp hs =>
    have hw : t.runner.scheduler.isWaiting = false := (Processor.running_of_executed hs).1
    refine ⟨Scheduler.eventsOf i ++ Scheduler.toneChange t.runner.scheduler.tonePlaying p.sounds,
      ?_, ?_⟩
    · rw [Runner.record_eq]
      simp
    · rw [hw, List.count_append, Scheduler.count_keyAwaited_toneChange,
        Processor.awaited_of_executed hs, Runner.record_eq]
      rfl
  | close left redraw he hp hs =>
    refine ⟨Scheduler.picture redraw t.runner.scheduler.processor.machine.screen, ?_, ?_⟩
    · simp [Runner.close]
    · rw [Scheduler.count_keyAwaited_picture, Nat.zero_add]
      rfl
  | fault left redraw fault p he hp hs =>
    refine ⟨Scheduler.picture redraw p.machine.screen ++ [.stopped fault], ?_, ?_⟩
    · simp [Runner.fail, Runner.close]
    · have hw : p.isWaiting = t.runner.scheduler.isWaiting := Processor.isWaiting_of_faulted hs
      rw [List.count_append, Scheduler.count_keyAwaited_picture, ← hw]
      exact Nat.zero_add _
  | tick he hp =>
    refine ⟨t.runner.scheduler.tickTimers.events, Runner.toList_absorb _ _, ?_⟩
    simp only [Runner.absorb, Scheduler.isWaiting_tickTimers]
    rw [Scheduler.count_keyAwaited_tickTimers, Nat.zero_add]

/-- **With the timers off at its beginning, a wait is a resting one**, up to the next message. -/
theorem Step.resting (h : Step t m u) (hm : m.handled? = none)
    (hr : t.runner.scheduler.isWaiting = true → t.runner.scheduler.Resting)
    (hb : t.runner.scheduler.isWaiting = false → u.runner.scheduler.isWaiting = true →
      u.runner.scheduler.timersOff = true)
    (hw : u.runner.scheduler.isWaiting = true) : u.runner.scheduler.Resting := by
  cases h with
  | send message hc =>
    rw [Runner.send, if_pos hc] at hw ⊢
    exact hr hw
  | hangUp hc => exact hr hw
  | handle message rest he hp hq => cases hm
  | begin he hp hq hc => exact hr hw
  | stop he hp hq hc => exact hr hw
  | execute left redraw i p he hp hs =>
    obtain ⟨ht, -, hn⟩ := Processor.running_of_executed hs
    have hoff := hb ht hw
    rw [Runner.record_eq] at hw hoff ⊢
    refine ⟨hw, hn, hoff, ?_⟩
    have hz : p.machine.soundTimer = 0 := by
      simp only [Scheduler.timersOff, Bool.and_eq_true, beq_iff_eq] at hoff
      exact hoff.2
    rw [Processor.sounds, hz]
    rfl
  | close left redraw he hp hs => exact hr hw
  | fault left redraw fault p he hp hs =>
    have ht : t.runner.scheduler.isWaiting = true :=
      (Processor.isWaiting_of_faulted hs).symm.trans hw
    rw [(hr ht).step] at hs
    cases hs
  | tick he hp =>
    have ht : t.runner.scheduler.isWaiting = true :=
      (Scheduler.isWaiting_tickTimers _).symm.trans hw
    simp only [Runner.absorb, (hr ht).tickTimers]
    exact hr ht

end Thread

end Chip8
