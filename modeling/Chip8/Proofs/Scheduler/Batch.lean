import Chip8.Proofs.Processor.Trace
import Chip8.Scheduler

/-!
# Batches of instructions against bare steps

A batch ends early when nothing more is executed, and it tells its events on the way.  It leaves
the processor of as many bare steps all the same, and what it tells is a function of their trace:

* `told`, `toneAfter`       what the instructions of a trace tell, and whether the tone plays then;
* `Batch.upTo`              a batch after so many bare steps;
* `Batch.run_eq`            that is what a batch runs up to;
* `runCycles_eq`            the same for a call of the scheduler;
* `runCycles_batching`      one batch against bare steps, and against two batches in a row.

Only the picture at the end does not come from the trace alone: it is that of the last processor.
Cutting a batch in two shows it twice, but the second time it has changed, or else is not shown.
-/

namespace Chip8

def Event.update? : Event → Option Screen
  | .screenUpdated screen => some screen
  | _ => none

def Processor.sounds (p : Processor) : Bool := p.machine.soundTimer != 0

namespace Scheduler

/-! ## what a trace tells -/

/-- what the speaker is told when the tone was playing or not, and is now to be heard or not -/
def toneChange (playing wanted : Bool) : List Event :=
  if wanted = playing then [] else [if wanted then .toneStarted else .toneStopped]

/-- what the instructions of a trace tell -/
def told : Bool → List (Instruction × Processor) → List Event
  | _, [] => []
  | playing, (i, q) :: rest => eventsOf i ++ toneChange playing q.sounds ++ told q.sounds rest

def toneAfter : Bool → List (Instruction × Processor) → Bool
  | playing, [] => playing
  | _, (_, q) :: rest => toneAfter q.sounds rest

def redrawn (trace : List (Instruction × Processor)) : Bool := trace.any fun x => redraws x.1

theorem told_append (playing : Bool) (a b : List (Instruction × Processor)) :
    told playing (a ++ b) = told playing a ++ told (toneAfter playing a) b := by
  induction a generalizing playing with
  | nil => rfl
  | cons x a ih =>
    obtain ⟨i, q⟩ := x
    simp only [List.cons_append, told, toneAfter, ih, List.append_assoc]

theorem toneAfter_append (playing : Bool) (a b : List (Instruction × Processor)) :
    toneAfter playing (a ++ b) = toneAfter (toneAfter playing a) b := by
  induction a generalizing playing with
  | nil => rfl
  | cons x a ih => exact ih x.2.sounds

theorem redrawn_append (a b : List (Instruction × Processor)) :
    redrawn (a ++ b) = (redrawn a || redrawn b) := List.any_append

theorem syncTone_eq (s : Scheduler) :
    s.syncTone = (toneChange s.tonePlaying s.processor.sounds,
      { s with tonePlaying := s.processor.sounds }) := by
  unfold syncTone toneChange
  split
  · next h =>
    have hp : s.processor.sounds = s.tonePlaying := h
    rw [if_pos hp, hp]
  · next h =>
    have hp : ¬ s.processor.sounds = s.tonePlaying := h
    rw [if_neg hp]
    rfl

theorem mem_toneChange {playing wanted : Bool} {e : Event} (h : e ∈ toneChange playing wanted) :
    e = .toneStarted ∨ e = .toneStopped := by
  unfold toneChange at h
  split at h
  · cases h
  · rw [List.mem_singleton.mp h]
    cases wanted with
    | true => exact .inl rfl
    | false => exact .inr rfl

theorem mem_eventsOf {i : Instruction} {e : Event} (h : e ∈ eventsOf i) :
    e = .screenCleared ∨ e = .keyAwaited := by
  unfold eventsOf at h
  split at h
  · exact .inl (List.mem_singleton.mp h)
  · exact .inr (List.mem_singleton.mp h)
  · cases h

theorem mem_told {playing : Bool} {trace : List (Instruction × Processor)} {e : Event}
    (h : e ∈ told playing trace) :
    (e = .screenCleared ∨ e = .keyAwaited) ∨ e = .toneStarted ∨ e = .toneStopped := by
  induction trace generalizing playing with
  | nil => cases h
  | cons x rest ih =>
    rw [told, List.mem_append, List.mem_append] at h
    obtain (h | h) | h := h
    · exact .inl (mem_eventsOf h)
    · exact .inr (mem_toneChange h)
    · exact ih h

theorem update?_told {playing : Bool} {trace : List (Instruction × Processor)} {e : Event}
    (h : e ∈ told playing trace) : e.update? = none := by
  obtain (rfl | rfl) | rfl | rfl := mem_told h <;> rfl

/-! ## a batch through bare steps -/

/-- the batch after `n` bare steps -/
def Batch.upTo (b : Batch) (n : Nat) : Batch :=
  let p := b.scheduler.processor
  { scheduler :=
      ⟨p.stepMany n, b.scheduler.pace, toneAfter b.scheduler.tonePlaying (p.trace n)⟩
    events := b.events.appendList (told b.scheduler.tonePlaying (p.trace n))
    redraw := b.redraw || redrawn (p.trace n) }

theorem Batch.record_eq (b : Batch) (i : Instruction) (q : Processor) :
    b.record i q =
      { scheduler := ⟨q, b.scheduler.pace, q.sounds⟩
        events := b.events.appendList (eventsOf i ++ toneChange b.scheduler.tonePlaying q.sounds)
        redraw := b.redraw || redraws i } := by
  simp only [record, syncTone_eq]

theorem Batch.upTo_executed {b : Batch} {i : Instruction} {q : Processor}
    (h : b.scheduler.processor.step = (.executed i, q)) (n : Nat) :
    b.upTo (n + 1) = (b.record i q).upTo n := by
  simp only [record_eq, upTo, Processor.trace_executed h, told, toneAfter, redrawn, List.any_cons,
    Processor.stepMany_succ, h, Array.appendList_eq_append, Bool.or_assoc]
  congr 1
  apply Array.ext'
  simp

theorem Batch.upTo_idle {b : Batch} (h : b.scheduler.processor.Idle) (n : Nat) :
    b.upTo (n + 1) =
      { b with scheduler := { b.scheduler with processor := b.scheduler.processor.step.2 } } := by
  simp [upTo, h.trace, h.stepMany_succ, told, toneAfter, redrawn]

/-- **A batch runs up to what bare steps lead to**, and ends with the fault of the last of them. -/
theorem Batch.run_eq (b : Batch) (n : Nat) :
    b.run n = (b.upTo n, b.scheduler.processor.lastFault n) := by
  induction n generalizing b with
  | zero => simp [run, upTo, Processor.trace, Processor.lastFault, told, toneAfter, redrawn,
      Processor.stepMany_zero]
  | succ n ih =>
    cases b.scheduler.processor.stepCase with
    | executed i flow after hh hw hd hx hs =>
      rw [run, hs, Batch.upTo_executed hs, Processor.lastFault_executed hs]
      dsimp only
      rw [ih, Batch.record_eq]
    | waiting hh hw hs =>
      have hi := Processor.idle_of_waiting hs
      rw [run, hs, Batch.upTo_idle hi, hi.lastFault_succ, hs]
      rfl
    | halted fault hh hs =>
      have hi := Processor.idle_of_faulted hs
      rw [run, hs, Batch.upTo_idle hi, hi.lastFault_succ, hs]
      rfl
    | faulted fault hh hw hpc hs =>
      have hi := Processor.idle_of_faulted hs
      rw [run, hs, Batch.upTo_idle hi, hi.lastFault_succ, hs]
      rfl

/-! ## a call of the scheduler -/

def picture (redraw : Bool) (screen : Screen) : List Event :=
  if redraw then [.screenUpdated screen] else []

theorem runCycles_eq (s : Scheduler) (n : Nat) :
    s.runCycles n =
      { events := told s.tonePlaying (s.processor.trace n) ++
          picture (redrawn (s.processor.trace n)) (s.processor.stepMany n).machine.screen
        fault := s.processor.lastFault n
        scheduler :=
          ⟨s.processor.stepMany n, s.pace, toneAfter s.tonePlaying (s.processor.trace n)⟩ } := by
  simp [runCycles, Batch.run_eq, Batch.upTo, Batch.allEvents, picture]

theorem fault_runCycles (s : Scheduler) (n : Nat) (fault : Fault) :
    (s.runCycles n).fault = some fault ↔
      1 ≤ n ∧ (s.processor.stepMany (n - 1)).step.1 = .faulted fault := by
  rw [runCycles_eq]
  cases n with
  | zero => simp [Processor.lastFault]
  | succ n =>
    show (s.processor.stepMany n).step.1.fault? = _ ↔ 1 ≤ n + 1 ∧ (s.processor.stepMany n).step.1 = _
    cases (s.processor.stepMany n).step.1 with
    | executed i => simp [Outcome.fault?]
    | waiting => simp [Outcome.fault?]
    | faulted e => simp [Outcome.fault?]

theorem scheduler_runCycles_add (s : Scheduler) (a b : Nat) :
    (s.runCycles (a + b)).scheduler = ((s.runCycles a).scheduler.runCycles b).scheduler := by
  simp only [runCycles_eq, Processor.stepMany_add, Processor.trace_add, toneAfter_append]

/-! ## pictures -/

/-- the instructions after which the screen is shown are those that write it -/
theorem redraws_eq_writes (i : Instruction) : redraws i = i.writes .screen := by
  cases i with
  | combine operation x y => simp [redraws, Instruction.writes]
  | _ => rfl

/-- a screen that need not be shown again is as before -/
theorem screen_of_not_redrawn {p : Processor} {n : Nat} (h : redrawn (p.trace n) = false) :
    (p.stepMany n).machine.screen = p.machine.screen := by
  refine Processor.stepMany_same .screen fun x hx => ?_
  rw [← redraws_eq_writes]
  cases hr : redraws x.1 with
  | false => rfl
  | true =>
    have ht : redrawn (p.trace n) = true := List.any_eq_true.mpr ⟨x, hx, hr⟩
    rw [h] at ht
    cases ht

/-- of two pictures in a row the later one counts; if it is left out, the earlier one still holds -/
theorem picture_or {first second : Bool} {old new : Screen} (h : second = false → new = old) :
    picture (first || second) new =
      ((picture first old ++ picture second new).filterMap Event.update?).getLast?.toList.map
        Event.screenUpdated := by
  cases second with
  | true => cases first <;> rfl
  | false =>
    rw [h rfl]
    cases first <;> rfl

theorem filterMap_update?_told (playing : Bool) (trace : List (Instruction × Processor)) :
    (told playing trace).filterMap Event.update? = [] :=
  List.filterMap_eq_nil_iff.mpr fun _ h => update?_told h

theorem filter_told (playing : Bool) (trace : List (Instruction × Processor)) :
    (told playing trace).filter (·.update? = none) = told playing trace :=
  List.filter_eq_self.mpr fun _ h => decide_eq_true (update?_told h)

theorem filter_picture (redraw : Bool) (screen : Screen) :
    (picture redraw screen).filter (·.update? = none) = [] := by
  cases redraw <;> rfl

/-- the picture of one batch is the last one of two batches in its place -/
theorem whole_picture (s : Scheduler) (a b : Nat) :
    picture (redrawn (s.processor.trace (a + b))) (s.processor.stepMany (a + b)).machine.screen =
      (((s.runCycles a).events ++ ((s.runCycles a).scheduler.runCycles b).events).filterMap
        Event.update?).getLast?.toList.map Event.screenUpdated := by
  have hs : redrawn ((s.processor.stepMany a).trace b) = false →
      ((s.processor.stepMany a).stepMany b).machine.screen =
        (s.processor.stepMany a).machine.screen := screen_of_not_redrawn
  simp only [runCycles_eq, Processor.trace_add, Processor.stepMany_add, redrawn_append,
    picture_or hs, List.filterMap_append, filterMap_update?_told, List.nil_append]

/-- **A batch is as many bare steps, and two batches in a row are one.**  The processor is that of
the bare steps, the fault the answer to the last of them.  One batch in the place of two ends in the
same state, has the fault of either, tells the same events apart from pictures, and of the pictures
just the last one, at the end. -/
theorem runCycles_batching (s : Scheduler) :
    (∀ n, (s.runCycles n).scheduler.processor = s.processor.stepMany n ∧
      ∀ fault, (s.runCycles n).fault = some fault ↔
        1 ≤ n ∧ (s.processor.stepMany (n - 1)).step.1 = .faulted fault) ∧
    ∀ a b,
      let whole := s.runCycles (a + b)
      let first := s.runCycles a
      let second := first.scheduler.runCycles b
      let shown := (first.events ++ second.events).filterMap Event.update?
      whole.scheduler = second.scheduler ∧
      (∀ fault, whole.fault = some fault ↔ first.fault = some fault ∨ second.fault = some fault) ∧
      whole.events.filter (·.update? = none) =
        (first.events ++ second.events).filter (·.update? = none) ∧
      whole.events.filterMap Event.update? = shown.getLast?.toList ∧
      ∀ screen, shown.getLast? = some screen →
        whole.events.getLast? = some (.screenUpdated screen) := by
  refine ⟨fun n => ⟨by rw [runCycles_eq], s.fault_runCycles n⟩, fun a b => ?_⟩
  have hp := whole_picture s a b
  refine ⟨s.scheduler_runCycles_add a b, fun fault => ?_, ?_, ?_, fun screen hs => ?_⟩
  · simp only [runCycles_eq]
    exact s.processor.lastFault_add a b
  · simp only [runCycles_eq, Processor.trace_add, told_append, List.filter_append, filter_told,
      filter_picture, List.append_nil]
  · rw [runCycles_eq, List.filterMap_append, filterMap_update?_told, List.nil_append, hp]
    generalize List.getLast? _ = last
    cases last <;> rfl
  · rw [hs] at hp
    rw [runCycles_eq, hp]
    exact List.getLast?_concat

end Scheduler

end Chip8
