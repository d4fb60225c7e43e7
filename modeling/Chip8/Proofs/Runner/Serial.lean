import Chip8.Proofs.Runner.Tick

/-!
# The runner works one thing after the other

Whatever the interleaving of client and runner, the runner has handled a beginning of what has been
sent, never in the middle of a tick, and has left the scheduler as these messages and the ticks
between them leave it, one after the other.  It ends in one of two ways: at a fault, which it tells
last, or with an empty queue that nobody is left to fill.

* `sent`, `handled`, `calls`    the messages and the calls of the scheduler in a list of moves;
* `Run.queue`, `Run.apart`      what has been handled, and when;
* `Run.reached`                 what has been told, and the scheduler;
* `Settled`, `Run.settled`      what a thread that has ended looks like;
* `runner_serialized`           all of it together.
-/

namespace Chip8

/-- the fault an event tells of -/
def Event.fault? : Event → Option Fault
  | .stopped fault => some fault
  | _ => none

theorem Event.fault?_eq_some {e : Event} {fault : Fault} :
    e.fault? = some fault ↔ e = .stopped fault := by
  cases e <;> simp [fault?]

/-! ## what only a runner tells -/

namespace Scheduler
variable {s : Scheduler} {e : Event}

theorem fault?_toneChange {playing wanted : Bool} (h : e ∈ toneChange playing wanted) :
    e.fault? = none := by
  obtain rfl | rfl := mem_toneChange h <;> rfl

theorem fault?_told {playing : Bool} {trace : List (Instruction × Processor)}
    (h : e ∈ told playing trace) : e.fault? = none := by
  obtain (rfl | rfl) | rfl | rfl := mem_told h <;> rfl

theorem fault?_runCycles {n : Nat} (h : e ∈ (s.runCycles n).events) : e.fault? = none := by
  rw [runCycles_eq] at h
  obtain h | h := List.mem_append.mp h
  · exact fault?_told h
  · unfold picture at h
    split at h
    · rw [List.mem_singleton.mp h]
      rfl
    · cases h

theorem fault?_tickTimers (h : e ∈ s.tickTimers.events) : e.fault? = none := by
  rw [tickTimers_eq] at h
  exact fault?_toneChange h

/-- a scheduler answers with its fault, and does not tell it -/
theorem fault?_call {c : Call} (h : e ∈ (s.call c).events) : e.fault? = none := by
  cases c with
  | runCycles n => exact fault?_runCycles h
  | runTick =>
    have ht : e ∈ s.runTick.events := h
    rw [runTick_eq] at ht
    split at ht
    · exact fault?_runCycles ht
    · obtain ht | ht := List.mem_append.mp ht
      · exact fault?_runCycles ht
      · exact fault?_tickTimers ht
  | tickTimers => exact fault?_tickTimers h
  | key k pressed => cases h
  | reset program =>
    rw [call_reset] at h
    split at h
    · obtain rfl | ht := List.mem_cons.mp h
      · rfl
      · exact fault?_toneChange ht
    · cases h

theorem faults_history (s : Scheduler) (calls : List Call) :
    (s.history calls).filterMap Event.fault? = [] := by
  induction calls generalizing s with
  | nil => rfl
  | cons c calls ih =>
    have hc : (s.call c).events.filterMap Event.fault? = [] :=
      List.filterMap_eq_nil_iff.mpr fun _ => fault?_call
    rw [history, List.filterMap_append, hc, ih, List.nil_append]

end Scheduler

/-! ## the moves of a run -/

def Move.sent? : Move → Option Control
  | .sent message => some message
  | _ => none

def Move.handled? : Move → Option Control
  | .handled message => some message
  | _ => none

namespace Thread
variable {s : Scheduler} {t u : Thread} {m : Move} {moves : List Move}

/-- the messages sent, in order -/
def sent (moves : List Move) : List Control := moves.filterMap Move.sent?

/-- the messages handled, in order -/
def handled (moves : List Move) : List Control := moves.filterMap Move.handled?

/-- the calls of the scheduler that have been completed, in order -/
def calls (moves : List Move) : List Scheduler.Call := moves.flatMap Move.calls

/-! ## the queue -/

theorem Step.queue (h : Step t m u) :
    m.handled?.toList ++ u.runner.queue = t.runner.queue ++ m.sent?.toList := by
  cases h with
  | send message hc => rw [Runner.send, if_pos hc]; rfl
  | handle message rest he hp hq =>
    dsimp only
    rw [Runner.queue_handle, hq]
    exact (List.append_nil _).symm
  | _ => exact (List.append_nil _).symm

theorem filterMap_concat {α : Type} (f : Move → Option α) (moves : List Move) (m : Move) :
    (moves ++ [m]).filterMap f = moves.filterMap f ++ (f m).toList := by
  rw [List.filterMap_append, List.filterMap_cons]
  cases f m with
  | none => rfl
  | some x => rfl

/-- **Nothing is lost, doubled or reordered.** -/
theorem Run.queue (h : Run (start s) moves t) : handled moves ++ t.runner.queue = sent moves := by
  induction h with
  | nil => rfl
  | @snoc moves u v m h hs ih =>
    have hh : handled (moves ++ [m]) = handled moves ++ m.handled?.toList :=
      filterMap_concat Move.handled? moves m
    have hm : sent (moves ++ [m]) = sent moves ++ m.sent?.toList :=
      filterMap_concat Move.sent? moves m
    rw [hh, hm, List.append_assoc, hs.queue, ← List.append_assoc, ih]

/-! ## ticks -/

/-- the ticks that have begun and not ended, at most one -/
def openTicks (t : Thread) : Nat := if t.phase = .polling then 0 else 1

theorem Step.ticks (h : Step t m u) :
    u.openTicks + [m].count .tickEnded = t.openTicks + [m].count .tickBegun := by
  cases h with
  | send message hc => rfl
  | hangUp hc => rfl
  | handle message rest he hp hq => rw [openTicks, openTicks, hp]; rfl
  | begin he hp hq hc => rw [openTicks, openTicks, hp]; rfl
  | stop he hp hq hc => rw [openTicks, openTicks, hp]; rfl
  | execute left redraw i p he hp hs => rw [openTicks, openTicks, hp]; rfl
  | close left redraw he hp hs => rw [openTicks, openTicks, hp]; rfl
  | fault left redraw fault p he hp hs => rw [openTicks, openTicks, hp]; rfl
  | tick he hp => rw [openTicks, openTicks, hp]; rfl

theorem Step.openTicks_of_handled {message : Control} (h : Step t (.handled message) u) :
    t.openTicks = 0 := by
  cases h with
  | handle _ rest he hp hq => rw [openTicks, hp]; rfl

theorem Run.ticks (h : Run (start s) moves t) :
    t.openTicks + moves.count .tickEnded = moves.count .tickBegun := by
  induction h with
  | nil => rfl
  | snoc h hs ih =>
    have ht := hs.ticks
    rw [List.count_append, List.count_append]
    omega

/-- a message is handled only where as many ticks have ended as have begun -/
theorem Run.apart (h : Run (start s) moves t) {before : List Move} {message : Control}
    (hm : before ++ [.handled message] <+: moves) :
    before.count .tickBegun = before.count .tickEnded := by
  induction h with
  | nil => simp at hm
  | @snoc moves u v m h hs ih =>
    obtain he | hp := List.prefix_concat_iff.mp hm
    · obtain ⟨rfl, hl⟩ := List.append_inj' he rfl
      obtain rfl := (List.cons.inj hl).1
      have ht := h.ticks
      rw [hs.openTicks_of_handled] at ht
      omega
    · exact ih hp

/-! ## the scheduler -/

theorem Run.reached (h : Run (start s) moves t) :
    t.Reached (s.after (calls moves)) (s.history (calls moves) ++ t.runner.lastWords) := by
  induction h with
  | nil => exact ⟨rfl, rfl⟩
  | @snoc moves u v m h hs ih =>
    have hc : calls (moves ++ [m]) = calls moves ++ m.calls := by simp [calls]
    rw [hc, Scheduler.after_append, Scheduler.history_append]
    exact ih.step hs

/-! ## the end -/

/-- in the middle of a tick no fault has been told that had not been before -/
theorem Reached.faults {base : Scheduler} {told : List Event} (h : t.Reached base told) :
    t.runner.events.toList.filterMap Event.fault? = told.filterMap Event.fault? := by
  obtain ⟨part, hp, he⟩ := h.events
  have hn : part.filterMap Event.fault? = [] := List.filterMap_eq_nil_iff.mpr fun _ hm =>
    Scheduler.fault?_call (c := .runTick) (hp.subset hm)
  rw [he, List.filterMap_append, hn, List.append_nil]

theorem Run.faults (h : Run (start s) moves t) :
    t.runner.events.toList.filterMap Event.fault? = t.runner.lastWords.filterMap Event.fault? := by
  rw [h.reached.faults, List.filterMap_append, Scheduler.faults_history, List.nil_append]

/-- the thread has not ended, or as one of the two endings says -/
structure Settled (t : Thread) : Prop where
  polling (ending : Ending) (he : t.runner.ending = some ending) : t.phase = .polling
  halted (fault : Fault) (he : t.runner.ending = some (.faulted fault)) :
    t.runner.scheduler.processor.halted = some fault
  drained (he : t.runner.ending = some .disconnected) :
    t.runner.connected = false ∧ t.runner.queue = []

theorem Settled.running (h : t.runner.ending = none) : Settled t where
  polling ending he := by rw [h] at he; cases he
  halted fault he := by rw [h] at he; cases he
  drained he := by rw [h] at he; cases he

theorem Settled.step (h : Settled t) (hs : Step t m u) : Settled u := by
  cases hs with
  | send message hc =>
    rw [Runner.send, if_pos hc]
    refine ⟨h.polling, h.halted, fun he => ?_⟩
    rw [(h.drained he).1] at hc
    cases hc
  | hangUp hc => exact ⟨h.polling, h.halted, fun he => ⟨rfl, (h.drained he).2⟩⟩
  | handle message rest he hp hq =>
    exact .running ((Runner.ending_handle { t.runner with queue := rest } message).trans he)
  | begin he hp hq hc => exact .running he
  | stop he hp hq hc =>
    refine ⟨fun _ _ => rfl, fun fault hf => ?_, fun _ => ⟨hc, hq⟩⟩
    cases hf
  | execute left redraw i p he hp hs => exact .running he
  | close left redraw he hp hs => exact .running he
  | fault left redraw fault p he hp hs =>
    refine ⟨fun _ _ => rfl, fun other hf => ?_, fun hd => ?_⟩
    · cases hf
      rw [Processor.eq_of_step_faulted hs]
      rfl
    · cases hd
  | tick he hp => exact .running he

theorem Run.settled (h : Run (start s) moves t) : Settled t := by
  induction h with
  | nil => exact .running rfl
  | snoc h hs ih => exact ih.step hs

theorem Run.mem_stopped_iff (h : Run (start s) moves t) {fault : Fault} :
    t.runner.ending = some (.faulted fault) ↔ .stopped fault ∈ t.runner.events.toList := by
  have hm : .stopped fault ∈ t.runner.events.toList ↔
      fault ∈ t.runner.events.toList.filterMap Event.fault? := by
    refine ⟨fun he => List.mem_filterMap.mpr ⟨_, he, rfl⟩, fun hf => ?_⟩
    obtain ⟨e, he, hf⟩ := List.mem_filterMap.mp hf
    rwa [Event.fault?_eq_some.mp hf] at he
  rw [hm, h.faults]
  unfold Runner.lastWords
  split
  · next other ho => rw [ho]; simp [Event.fault?, eq_comm]
  · next ho => simpa using ho fault

/-- between two ticks only the last words tell of a fault -/
theorem Run.exists_told (h : Run (start s) moves t) (hp : t.phase = .polling) :
    ∃ told, t.runner.events.toList = told ++ t.runner.lastWords ∧
      ∀ event ∈ told, event.fault? = none := by
  refine ⟨_, (h.reached.of_polling hp).2, ?_⟩
  exact List.filterMap_eq_nil_iff.mp (s.faults_history _)

theorem Step.connected (h : Step t m u) :
    u.runner.connected = false ↔ t.runner.connected = false ∨ m = .hungUp := by
  cases h with
  | send message hc => rw [Runner.send, if_pos hc]; simp
  | hangUp hc => simp [Runner.disconnect]
  | handle message rest he hp hq =>
    dsimp only
    rw [Runner.connected_handle]
    simp
  | _ =>
    refine ⟨.inl, fun h => h.resolve_right fun hm => ?_⟩
    cases hm

theorem Run.connected (h : Run (start s) moves t) :
    t.runner.connected = false ↔ .hungUp ∈ moves := by
  induction h with
  | nil => simp [start, Runner.ofScheduler]
  | snoc h hs ih => rw [hs.connected, ih, List.mem_append, List.mem_singleton, eq_comm]

/-- **The runner works one thing after the other.**  Whatever the interleaving, the messages handled
and those in the queue are the ones sent, and none is handled inside of a tick; scheduler and events
are those of the messages handled and the ticks, one after the other, or have got somewhere with the
next tick.  It ends with a fault just if it has told that fault, which is the last thing it tells,
the only fault, and the one the processor has stopped at.  It ends without one only when everybody
has hung up and all messages have been handled, and does so as soon as it looks into the queue then.
Up to its end it has one move at a time, and behind it none. -/
theorem runner_serialized (h : Run (start s) moves t) :
    handled moves ++ t.runner.queue = sent moves ∧
    (∀ before message, before ++ [.handled message] <+: moves →
      before.count .tickBegun = before.count .tickEnded) ∧
    t.Reached (s.after (calls moves)) (s.history (calls moves) ++ t.runner.lastWords) ∧
    (∀ fault, t.runner.ending = some (.faulted fault) ↔
      .stopped fault ∈ t.runner.events.toList) ∧
    (∀ fault, .stopped fault ∈ t.runner.events.toList →
      t.runner.events.toList = s.history (calls moves) ++ [.stopped fault] ∧
      t.runner.events.toList.filterMap Event.fault? = [fault] ∧
      t.runner.scheduler.processor.halted = some fault) ∧
    (t.runner.ending = some .disconnected → .hungUp ∈ moves ∧ handled moves = sent moves) ∧
    (t.runner.ending = none → t.phase = .polling → .hungUp ∈ moves → handled moves = sent moves →
      t.next = (.stopped, ⟨{ t.runner with ending := some .disconnected }, .polling⟩)) ∧
    ∀ m u, m.ofRunner = true → (Step t m u ↔ t.runner.ending = none ∧ t.next = (m, u)) := by
  have hq := h.queue
  refine ⟨hq, ?_, h.reached, ?_, ?_, ?_, ?_, ?_⟩
  · intro before message hm
    exact h.apart hm
  · intro fault
    exact h.mem_stopped_iff
  · intro fault hm
    have he := h.mem_stopped_iff.mpr hm
    have hw : t.runner.lastWords = [.stopped fault] := by rw [Runner.lastWords, he]
    obtain ⟨-, ht⟩ := h.reached.of_polling (h.settled.polling _ he)
    rw [hw] at ht
    refine ⟨ht, ?_, h.settled.halted fault he⟩
    rw [h.faults, hw]
    rfl
  · intro he
    obtain ⟨hc, hn⟩ := h.settled.drained he
    rw [hn, List.append_nil] at hq
    exact ⟨h.connected.mp hc, hq⟩
  · intro he hp hc ha
    have hn : t.runner.queue = [] := by
      rw [ha] at hq
      exact List.append_right_eq_self.mp hq
    have hs := Step.stop he hp hn (h.connected.mpr hc)
    exact ((step_iff rfl).mp hs).2
  · intro m u hm
    exact step_iff hm

/-- clears the screen and then returns from no subroutine -/
def stray : Scheduler :=
  .start (.start (.ofProgram [0x00, 0xE0, 0x00, 0xEE]) (.ofSeed 0)) .standard

/-- a key is pressed, and released in the middle of the tick that ends with the fault -/
def strayMoves : List Move :=
  [.sent (.key 3 true), .handled (.key 3 true), .tickBegun, .worked, .sent (.key 3 false),
    .tickEnded]

theorem ending_stray : ((start stray).after? strayMoves).map (·.runner.ending) =
    some (some (.faulted (.stackUnderflow 0x202))) := by
  decide +kernel

/-- the fault is told behind the tick, and the release of the key is not handled any more -/
theorem runner_serialized_stray :
    ∃ t, Run (start stray) strayMoves t ∧
      t.runner.queue = [.key 3 false] ∧
      t.runner.events.toList =
        stray.history [.key 3 true, .runTick] ++ [.stopped (.stackUnderflow 0x202)] ∧
      t.runner.scheduler.processor.halted = some (.stackUnderflow 0x202) := by
  obtain ⟨t, ht, he⟩ := Option.map_eq_some_iff.mp ending_stray
  have hr : Run (start stray) strayMoves t := run_iff.mpr ht
  obtain ⟨hq, -, -, hf, hs, -⟩ := runner_serialized hr
  obtain ⟨hh, -, hp⟩ := hs _ ((hf _).mp he)
  exact ⟨t, hr, (List.cons.inj hq).2, hh, hp⟩

end Thread

end Chip8
