import Chip8.Proofs.Scheduler.Tone

/-!
# A reset: everything or nothing

A reset either leaves the scheduler that its program would have been started with, or, with a
program that does not fit, leaves everything as it was.  Of what has been before, only the tone is
still heard of, since it is told to stop.

* `after_eq`               the scheduler behind any calls, with the tone as it was told last;
* `reset_of_fits`, `reset_of_longer`    what a reset does;
* `Call.refused`           a reset that cannot succeed, which depends on its program alone;
* `replies`                all there is to be seen of a list of calls;
* `replies_kept`           nothing changes if the refused ones are left out.
-/

namespace Chip8.Scheduler

/-! ## the tone and the pace -/

/-- what the speaker has been told last, or else was told before -/
def lastTone (playing : Bool) (events : List Event) : Bool :=
  (events.filterMap Event.tone?).getLast?.getD playing

theorem lastTone_append (playing : Bool) (a b : List Event) :
    lastTone playing (a ++ b) = lastTone (lastTone playing a) b := by
  unfold lastTone
  rw [List.filterMap_append, List.getLast?_append]
  cases (b.filterMap Event.tone?).getLast? <;> rfl

theorem lastTone_of_silent {events : List Event} (h : events.filterMap Event.tone? = [])
    (playing : Bool) : lastTone playing events = playing := by
  rw [lastTone, h]
  rfl

theorem lastTone_toneChange (playing wanted : Bool) :
    lastTone playing (toneChange playing wanted) = wanted := by
  cases playing <;> cases wanted <;> rfl

theorem lastTone_told (playing : Bool) (trace : List (Instruction × Processor)) :
    lastTone playing (told playing trace) = toneAfter playing trace := by
  induction trace generalizing playing with
  | nil => rfl
  | cons x rest ih =>
    obtain ⟨i, q⟩ := x
    rw [told, lastTone_append, lastTone_append, lastTone_of_silent (tones_eventsOf i),
      lastTone_toneChange, ih, toneAfter]

variable {s : Scheduler}

theorem scheduler_runCycles (s : Scheduler) (n : Nat) :
    (s.runCycles n).scheduler =
      ⟨s.processor.stepMany n, s.pace, lastTone s.tonePlaying (s.runCycles n).events⟩ := by
  rw [runCycles_eq]
  dsimp only
  rw [lastTone_append, lastTone_told, lastTone_of_silent (tones_picture _ _)]

theorem scheduler_tickTimers (s : Scheduler) :
    s.tickTimers.scheduler =
      ⟨s.processor.tickTimers, s.pace, lastTone s.tonePlaying s.tickTimers.events⟩ := by
  rw [tickTimers_eq]
  dsimp only
  rw [lastTone_toneChange]

/-- a call changes the processor by its moves, the pace not at all, and the tone as it tells -/
theorem scheduler_call (s : Scheduler) (c : Call) :
    (s.call c).scheduler =
      ⟨s.processor.after (s.moves c), s.pace, lastTone s.tonePlaying (s.call c).events⟩ := by
  cases c with
  | runCycles n => exact s.scheduler_runCycles n
  | runTick =>
    have hb := s.scheduler_runCycles s.batchSize
    show s.runTick.scheduler = ⟨_, _, lastTone _ s.runTick.events⟩
    rw [runTick_eq, moves]
    cases (s.runCycles s.batchSize).fault with
    | some fault =>
      dsimp only
      rw [List.append_nil]
      exact hb
    | none =>
      dsimp only
      rw [scheduler_tickTimers, lastTone_append, Processor.after_append, hb]
      rfl
  | tickTimers => exact s.scheduler_tickTimers
  | key k pressed => rfl
  | reset program =>
    rw [call_reset, moves, Processor.after_cons, Processor.call_reset]
    split
    · exact congrArg (mk _ _) (lastTone_toneChange s.tonePlaying _).symm
    · rfl

/-- **The scheduler behind any calls**: the tone plays just if the speaker has been told so last. -/
theorem after_eq (s : Scheduler) (calls : List Call) :
    s.after calls =
      ⟨s.processor.after (s.allMoves calls), s.pace,
        lastTone s.tonePlaying (s.history calls)⟩ := by
  induction calls generalizing s with
  | nil => rfl
  | cons c calls ih =>
    rw [after, ih, scheduler_call, allMoves, history, Processor.after_append, lastTone_append,
      scheduler_call]

/-! ## a reset -/

/-- everything is replaced; only a tone that plays is told to stop -/
theorem reset_of_fits {program : List UInt8} (h : program.length ≤ Memory.maxProgramLength)
    (s : Scheduler) :
    s.reset program = .ok
      ⟨.screenCleared :: (if s.tonePlaying then [.toneStopped] else []), none,
        start (.start (.ofProgram program) s.processor.generator) s.pace⟩ := by
  rw [reset, Processor.reset_eq, if_pos h]
  simp only [Except.map, syncTone_eq]
  cases s.tonePlaying <;> rfl

theorem reset_of_longer {program : List UInt8} (h : Memory.maxProgramLength < program.length)
    (s : Scheduler) : s.reset program = .error ⟨program.length⟩ := by
  rw [reset, Processor.reset_eq, if_neg (Nat.not_le.mpr h)]
  rfl

theorem call_of_reset {program : List UInt8} {reply : Reply} (h : s.reset program = .ok reply) :
    s.call (.reset program) = reply := by
  rw [call, h]

/-! ## calls that are refused -/

/-- a reset with a program that does not fit -/
def Call.refused : Call → Bool
  | .reset program => Memory.maxProgramLength < program.length
  | _ => false

/-- the calls without those that are refused -/
def Call.kept (calls : List Call) : List Call := calls.filter fun c => !c.refused

/-- each call with the reply to it, which has the events, the fault and the scheduler -/
def replies (s : Scheduler) : List Call → List (Call × Reply)
  | [] => []
  | c :: calls => (c, s.call c) :: (s.call c).scheduler.replies calls

theorem call_of_refused {c : Call} (h : c.refused = true) (s : Scheduler) :
    s.call c = ⟨[], none, s⟩ := by
  cases c with
  | reset program =>
    have hl : Memory.maxProgramLength < program.length := of_decide_eq_true h
    rw [call, reset_of_longer hl]
  | _ => cases h

theorem Call.kept_of_refused {c : Call} (h : c.refused = true) (calls : List Call) :
    kept (c :: calls) = kept calls := List.filter_cons_of_neg (by simp [h])

theorem Call.kept_of_not_refused {c : Call} (h : c.refused = false) (calls : List Call) :
    kept (c :: calls) = c :: kept calls := List.filter_cons_of_pos (by simp [h])

/-- **Calls that are refused change nothing else.** -/
theorem replies_kept (s : Scheduler) (calls : List Call) :
    s.replies (Call.kept calls) = (s.replies calls).filter fun r => !r.1.refused := by
  induction calls generalizing s with
  | nil => rfl
  | cons c calls ih =>
    cases h : c.refused with
    | true =>
      rw [Call.kept_of_refused h, replies, List.filter_cons_of_neg (by simp [h]),
        call_of_refused h, ih]
    | false =>
      rw [Call.kept_of_not_refused h, replies, replies, List.filter_cons_of_pos (by simp [h]), ih]

theorem after_kept (s : Scheduler) (calls : List Call) :
    s.after (Call.kept calls) = s.after calls := by
  induction calls generalizing s with
  | nil => rfl
  | cons c calls ih =>
    cases h : c.refused with
    | true => rw [Call.kept_of_refused h, ih, after, call_of_refused h]
    | false => rw [Call.kept_of_not_refused h, after, after, ih]

theorem history_kept (s : Scheduler) (calls : List Call) :
    s.history (Call.kept calls) = s.history calls := by
  induction calls generalizing s with
  | nil => rfl
  | cons c calls ih =>
    cases h : c.refused with
    | true => rw [Call.kept_of_refused h, ih, history, call_of_refused h, List.nil_append]
    | false => rw [Call.kept_of_not_refused h, history, history, ih]

end Chip8.Scheduler
