import Chip8.Proofs.Runner.Thread

/-!
# A tick, move by move

Inside of a tick a thread stands at a number of bare steps, with what they have told; whatever the
client does in the meantime, the moves of a tick add up to the tick of the scheduler.

* `Thread.Reached`      how far a thread is with a tick of a scheduler;
* `Move.calls`          the call of the scheduler that a move completes;
* `Reached.events`      what has been told of the tick is a beginning of all it tells;
* `Reached.step`        every move completes its calls, and does nothing else to the scheduler.
-/

namespace Chip8
open Scheduler (Batch)

/-! ## batches in parts -/

namespace Processor
variable {p : Processor}

/-- a processor that is idle behind `n` steps gives the same answer to every later step -/
theorem Idle.lastFault_add_succ {n : Nat} (h : (p.stepMany n).Idle) (k : Nat) :
    p.lastFault (n + (k + 1)) = (p.stepMany n).step.1.fault? := by
  show (p.stepMany (n + k)).step.1.fault? = _
  rw [stepMany_add, h.step_stepMany]

theorem eq_of_step_waiting {q : Processor} (h : p.step = (.waiting, q)) : q = p := by
  cases p.stepCase with
  | waiting hh hw hs =>
    rw [hs] at h
    cases h
    rfl
  | halted fault hh hs => rw [hs] at h; cases h
  | faulted fault hh hw hpc hs => rw [hs] at h; cases h
  | executed i flow after hh hw hd hx hs => rw [hs] at h; cases h

theorem eq_of_step_faulted {q : Processor} {fault : Fault} (h : p.step = (.faulted fault, q)) :
    q = { p with halted := some fault } := by
  cases p.stepCase with
  | waiting hh hw hs => rw [hs] at h; cases h
  | halted other hh hs =>
    rw [hs] at h
    cases h
    rw [← hh]
  | faulted other hh hw hpc hs =>
    rw [hs] at h
    cases h
    rfl
  | executed i flow after hh hw hd hx hs => rw [hs] at h; cases h

theorem lastFault_succ_of_executed {n : Nat} {i : Instruction} {q : Processor}
    (h : (p.stepMany n).step = (.executed i, q)) : p.lastFault (n + 1) = none := by
  show (p.stepMany n).step.1.fault? = none
  rw [h]
  rfl

end Processor

namespace Scheduler

theorem Batch.upTo_zero (b : Batch) : b.upTo 0 = b := by
  simp [upTo, Processor.trace_zero, Processor.stepMany_zero, told, toneAfter, redrawn]

theorem Batch.upTo_add (b : Batch) (m n : Nat) : b.upTo (m + n) = (b.upTo m).upTo n := by
  simp only [upTo, Processor.stepMany_add, Processor.trace_add, told_append, toneAfter_append,
    redrawn_append, Bool.or_assoc, Array.appendList_eq_append]
  congr 1
  apply Array.ext'
  simp

theorem Batch.upTo_succ {b : Batch} {n : Nat} {i : Instruction} {q : Processor}
    (h : (b.upTo n).scheduler.processor.step = (.executed i, q)) :
    b.upTo (n + 1) = (b.upTo n).record i q := by
  rw [upTo_add, upTo_executed h, upTo_zero]

theorem Batch.upTo_add_succ {b : Batch} {n : Nat} (h : (b.upTo n).scheduler.processor.Idle)
    (k : Nat) :
    b.upTo (n + (k + 1)) =
      { b.upTo n with scheduler :=
          { (b.upTo n).scheduler with processor := (b.upTo n).scheduler.processor.step.2 } } := by
  rw [upTo_add, upTo_idle h]

theorem events_runCycles_prefix (s : Scheduler) :
    (s.runCycles s.batchSize).events <+: s.runTick.events := by
  rw [runTick_eq]
  cases (s.runCycles s.batchSize).fault with
  | some fault => exact List.prefix_rfl
  | none => exact List.prefix_append _ _

end Scheduler

/-! ## the scheduler behind a move -/

/-- the calls of the scheduler that a move completes -/
def Move.calls : Move → List Scheduler.Call
  | .handled message => [message.call]
  | .tickEnded => [.runTick]
  | _ => []

/-- what a runner tells at its end -/
def Runner.lastWords (r : Runner) : List Event :=
  match r.ending with
  | some (.faulted fault) => [.stopped fault]
  | _ => []

theorem Runner.lastWords_of_running {r : Runner} (h : r.ending = none) : r.lastWords = [] := by
  rw [lastWords, h]

namespace Thread
variable {t u : Thread} {base : Scheduler} {told : List Event} {m : Move}

/-- the thread has got so far with a tick of the scheduler `base`, before which `told` was told -/
def Reached (t : Thread) (base : Scheduler) (told : List Event) : Prop :=
  match t.phase with
  | .polling => t.runner.scheduler = base ∧ t.runner.events.toList = told
  | .executing left redraw =>
    ∃ done, done + left = base.batchSize ∧ base.processor.lastFault done = none ∧
      t.runner.batch redraw = Batch.upTo ⟨base, told.toArray, false⟩ done
  | .ticking =>
    (base.runCycles base.batchSize).fault = none ∧
      t.runner.scheduler = (base.runCycles base.batchSize).scheduler ∧
      t.runner.events.toList = told ++ (base.runCycles base.batchSize).events

/-- the end of a batch of which all steps have been made -/
theorem close_of_upTo {r : Runner} {redraw : Bool} {n : Nat}
    (h : r.batch redraw = Batch.upTo ⟨base, told.toArray, false⟩ n) :
    (r.close redraw).scheduler = (base.runCycles n).scheduler ∧
      (r.close redraw).events.toList = told ++ (base.runCycles n).events := by
  obtain ⟨hs, he, hr⟩ := Batch.mk.inj h
  rw [Scheduler.runCycles_eq]
  refine ⟨hs, ?_⟩
  simp only [Runner.close, hs, he, hr, Bool.false_or]
  simp

namespace Reached

theorem of_polling (h : t.Reached base told) (hp : t.phase = .polling) :
    t.runner.scheduler = base ∧ t.runner.events.toList = told := by
  rw [Reached, hp] at h
  exact h

theorem executed (h : t.Reached base told) {left : Nat} {redraw : Bool} {i : Instruction}
    {p : Processor} (hp : t.phase = .executing (left + 1) redraw)
    (hs : t.runner.scheduler.processor.step = (.executed i, p)) :
    Reached ⟨t.runner.record redraw i p, .executing left (redraw || Scheduler.redraws i)⟩
      base told := by
  rw [Reached, hp] at h
  obtain ⟨done, hd, -, hb⟩ := h
  have hn : t.runner.scheduler = (Batch.upTo ⟨base, told.toArray, false⟩ done).scheduler :=
    congrArg Batch.scheduler hb
  rw [hn] at hs
  refine ⟨done + 1, by omega, Processor.lastFault_succ_of_executed hs, ?_⟩
  rw [Batch.upTo_succ hs, ← hb, Runner.record_eq, Batch.record_eq]
  rfl

/-- once nothing more is executed, the batch stands where all its steps lead to -/
theorem idle (h : t.Reached base told) {left : Nat} {redraw : Bool}
    (hp : t.phase = .executing (left + 1) redraw) {p : Processor} {outcome : Outcome}
    (hs : t.runner.scheduler.processor.step = (outcome, p))
    (hi : t.runner.scheduler.processor.Idle) :
    base.processor.lastFault base.batchSize = outcome.fault? ∧
      ({ t.runner with scheduler := { t.runner.scheduler with processor := p } }).batch redraw =
        Batch.upTo ⟨base, told.toArray, false⟩ base.batchSize := by
  rw [Reached, hp] at h
  obtain ⟨done, hd, -, hb⟩ := h
  have hn : t.runner.scheduler = (Batch.upTo ⟨base, told.toArray, false⟩ done).scheduler :=
    congrArg Batch.scheduler hb
  rw [hn] at hi hs
  have hs' : (base.processor.stepMany done).step = (outcome, p) := hs
  refine ⟨?_, ?_⟩
  · rw [← hd, Processor.Idle.lastFault_add_succ hi, hs']
  · rw [← hd, Batch.upTo_add_succ hi, hs, ← hb]
    rfl

theorem closed (h : t.Reached base told) {left : Nat} {redraw : Bool}
    (hp : t.phase = .executing left redraw)
    (hs : left = 0 ∨ ∃ p, t.runner.scheduler.processor.step = (.waiting, p)) :
    Reached ⟨t.runner.close redraw, .ticking⟩ base told := by
  -- either all steps have been made, or those that are left change nothing
  have hall : base.processor.lastFault base.batchSize = none ∧
      t.runner.batch redraw = Batch.upTo ⟨base, told.toArray, false⟩ base.batchSize := by
    cases left with
    | zero =>
      rw [Reached, hp] at h
      obtain ⟨done, hd, hf, hb⟩ := h
      rw [← hd]
      exact ⟨hf, hb⟩
    | succ left =>
      obtain ⟨p, hs⟩ := hs.resolve_left (Nat.succ_ne_zero left)
      obtain ⟨hf, hb⟩ := h.idle hp hs (Processor.idle_of_waiting hs)
      rw [Processor.eq_of_step_waiting hs] at hb
      exact ⟨hf, hb⟩
  refine ⟨?_, close_of_upTo hall.2⟩
  rw [Scheduler.runCycles_eq]
  exact hall.1

theorem faulted (h : t.Reached base told) {left : Nat} {redraw : Bool} {fault : Fault}
    {p : Processor} (hp : t.phase = .executing (left + 1) redraw)
    (hs : t.runner.scheduler.processor.step = (.faulted fault, p)) :
    base.runTick.fault = some fault ∧
      Reached ⟨t.runner.fail redraw fault p, .polling⟩ base.runTick.scheduler
        (told ++ base.runTick.events ++ [.stopped fault]) := by
  obtain ⟨hf, hb⟩ := h.idle hp hs (Processor.idle_of_faulted hs)
  obtain ⟨hc, he⟩ := close_of_upTo hb
  have hr : (base.runCycles base.batchSize).fault = some fault := by
    rw [Scheduler.runCycles_eq]
    exact hf
  have ht : base.runTick = base.runCycles base.batchSize := by rw [Scheduler.runTick_eq, hr]
  rw [ht]
  refine ⟨hr, hc, ?_⟩
  rw [← he]
  exact Array.toList_push

theorem ticked (h : t.Reached base told) (hp : t.phase = .ticking) :
    base.runTick.fault = none ∧
      Reached ⟨t.runner.absorb t.runner.scheduler.tickTimers, .polling⟩ base.runTick.scheduler
        (told ++ base.runTick.events) := by
  rw [Reached, hp] at h
  obtain ⟨hf, hs, he⟩ := h
  rw [Scheduler.runTick_eq, hf]
  refine ⟨rfl, ?_, ?_⟩
  · rw [hs]
    rfl
  · rw [Runner.toList_absorb, he, hs, List.append_assoc]

theorem handled (h : t.Reached base told) (message : Control) (rest : List Control)
    (hp : t.phase = .polling) :
    Reached ⟨{ t.runner with queue := rest }.handle message, .polling⟩
      (base.call message.call).scheduler (told ++ (base.call message.call).events) := by
  obtain ⟨rfl, rfl⟩ := h.of_polling hp
  rw [Runner.handle_eq_absorb]
  exact ⟨rfl, Runner.toList_absorb _ _⟩

theorem begun (h : t.Reached base told) (hp : t.phase = .polling) :
    Reached ⟨t.runner, .executing t.runner.scheduler.batchSize false⟩ base told := by
  obtain ⟨rfl, rfl⟩ := h.of_polling hp
  refine ⟨0, Nat.zero_add _, rfl, ?_⟩
  rw [Batch.upTo_zero]
  simp [Runner.batch]

/-- what has been told of the tick is a beginning of what the whole tick tells -/
theorem events (h : t.Reached base told) :
    ∃ part, part <+: base.runTick.events ∧ t.runner.events.toList = told ++ part := by
  have hb := base.events_runCycles_prefix
  unfold Reached at h
  split at h
  · exact ⟨[], List.nil_prefix, by rw [h.2, List.append_nil]⟩
  · next left redraw hp =>
    obtain ⟨done, hd, -, hu⟩ := h
    refine ⟨Scheduler.told base.tonePlaying (base.processor.trace done),
      List.IsPrefix.trans ?_ hb, ?_⟩
    · rw [Scheduler.runCycles_eq, ← hd, Processor.trace_add, Scheduler.told_append,
        List.append_assoc]
      exact List.prefix_append _ _
    · have he := congrArg Array.toList (congrArg Batch.events hu)
      simpa only [Runner.batch, Batch.upTo, Array.appendList_eq_append,
        Array.toList_appendList] using he
  · exact ⟨_, hb, h.2.2⟩

theorem of_no_call (h : t.Reached base (told ++ t.runner.lastWords)) :
    t.Reached (base.after []) (told ++ base.history [] ++ t.runner.lastWords) := by
  rw [Scheduler.history, List.append_nil]
  exact h

theorem of_call {c : Scheduler.Call}
    (h : t.Reached (base.call c).scheduler (told ++ (base.call c).events ++ t.runner.lastWords)) :
    t.Reached (base.after [c]) (told ++ base.history [c] ++ t.runner.lastWords) := by
  rw [Scheduler.history, Scheduler.history, List.append_nil]
  exact h

/-- nothing more is told than what has been, as long as the runner has not ended -/
theorem silent (h : t.Reached base told) (he : t.runner.ending = none) :
    t.Reached base (told ++ t.runner.lastWords) := by
  rw [Runner.lastWords_of_running he, List.append_nil]
  exact h

/-- **Every move completes its calls and does nothing else to the scheduler.** -/
theorem step (h : t.Reached base (told ++ t.runner.lastWords)) (hs : Step t m u) :
    u.Reached (base.after m.calls) (told ++ base.history m.calls ++ u.runner.lastWords) := by
  have hr : t.runner.ending = none → t.Reached base told := fun he => by
    rw [Runner.lastWords_of_running he, List.append_nil] at h
    exact h
  cases hs with
  | send message hc =>
    rw [Runner.send, if_pos hc]
    exact of_no_call h
  | hangUp hc => exact of_no_call h
  | handle message rest he hp hq =>
    have hh := (hr he).handled message rest hp
    rw [Runner.handle_eq_absorb] at hh ⊢
    exact of_call (hh.silent he)
  | begin he hp hq hc => exact of_no_call (((hr he).begun hp).silent he)
  | stop he hp hq hc =>
    obtain ⟨hb, ht⟩ := (hr he).of_polling hp
    refine of_no_call ⟨hb, ?_⟩
    rw [ht]
    exact (List.append_nil told).symm
  | execute left redraw i p he hp hs => exact of_no_call (((hr he).executed hp hs).silent he)
  | close left redraw he hp hs => exact of_no_call (((hr he).closed hp hs).silent he)
  | fault left redraw fault p he hp hs => exact of_call ((hr he).faulted hp hs).2
  | tick he hp => exact of_call (((hr he).ticked hp).2.silent he)

end Reached

end Thread

end Chip8
