import Chip8.Proofs.Runner.Serial
import Chip8.Proofs.Scheduler.Display

/-!
# The last screen that has been sent

A display that only takes up the screens it is sent overlooks a clearing that is told by itself.  A
batch that clears the screen sends it as well, at its end and also after a fault; only a reset does
not.  So without resets even such a display shows the screen, whenever no tick is under way.

* `Scheduler.afterEvents_call`   a call that is no reset leaves such a display right;
* `Thread.Step.told`             what has been told is not taken back;
* `Thread.Run.picture`           behind a whole number of ticks the display is right.
-/

namespace Chip8

namespace Screen

theorem afterEvents_append (shown : Screen) (a b : List Event) :
    shown.afterEvents (a ++ b) = (shown.afterEvents a).afterEvents b := List.foldl_append

/-- the last one sent, if there is one -/
theorem afterEvents_eq (shown : Screen) (events : List Event) :
    shown.afterEvents events = (events.filterMap Event.update?).getLast?.getD shown := by
  induction events generalizing shown with
  | nil => rfl
  | cons event events ih =>
    have hc : shown.afterEvents (event :: events) =
        ((event.update?).getD shown).afterEvents events := by cases event <;> rfl
    rw [hc, ih, List.filterMap_cons]
    cases event.update? with
    | none => rfl
    | some new => rw [List.getLast?_cons]; rfl

theorem afterEvents_of_no_update {events : List Event} (shown : Screen)
    (h : ∀ event ∈ events, event.update? = none) : shown.afterEvents events = shown := by
  rw [afterEvents_eq, List.filterMap_eq_nil_iff.mpr h]
  rfl

end Screen

/-! ## call by call -/

namespace Scheduler

theorem afterEvents_runCycles (s : Scheduler) (n : Nat) :
    s.screen.afterEvents (s.runCycles n).events = (s.runCycles n).scheduler.screen := by
  rw [Screen.afterEvents_eq, updates_runCycles]
  cases hr : redrawn (s.processor.trace n) with
  | true => rfl
  | false =>
    rw [runCycles_eq]
    exact (screen_of_not_redrawn hr).symm

theorem afterEvents_tickTimers (s : Scheduler) :
    s.screen.afterEvents s.tickTimers.events = s.tickTimers.scheduler.screen := by
  rw [tickTimers_eq]
  refine Screen.afterEvents_of_no_update _ fun event he => ?_
  obtain rfl | rfl := mem_toneChange he <;> rfl

theorem afterEvents_runTick (s : Scheduler) :
    s.screen.afterEvents s.runTick.events = s.runTick.scheduler.screen := by
  have hb := s.afterEvents_runCycles s.batchSize
  rw [runTick_eq]
  cases (s.runCycles s.batchSize).fault with
  | some fault => exact hb
  | none =>
    dsimp only
    rw [Screen.afterEvents_append, hb]
    exact afterEvents_tickTimers _

/-- a reset tells of the blank screen, and does not send it -/
theorem afterEvents_call (s : Scheduler) {c : Call} (hc : ∀ program, c ≠ .reset program) :
    s.screen.afterEvents (s.call c).events = (s.call c).scheduler.screen := by
  cases c with
  | runCycles n => exact s.afterEvents_runCycles n
  | runTick => exact s.afterEvents_runTick
  | tickTimers => exact s.afterEvents_tickTimers
  | key k pressed =>
    have hk : (s.processor.setKey k pressed).2.machine.screen = s.processor.machine.screen :=
      Processor.setKey_same .screen k pressed nofun nofun fun _ => nofun
    exact hk.symm
  | reset program => exact absurd rfl (hc program)

theorem afterEvents_history {calls : List Call} (s : Scheduler)
    (hc : ∀ c ∈ calls, ∀ program, c ≠ .reset program) :
    s.screen.afterEvents (s.history calls) = (s.after calls).screen := by
  induction calls generalizing s with
  | nil => rfl
  | cons c calls ih =>
    obtain ⟨hf, hr⟩ := List.forall_mem_cons.mp hc
    rw [history, Screen.afterEvents_append, s.afterEvents_call hf, ih _ hr, after]

end Scheduler

/-! ## move by move -/

namespace Thread
variable {s : Scheduler} {t u : Thread} {m : Move} {moves : List Move}

theorem Step.told (h : Step t m u) : t.runner.events.toList <+: u.runner.events.toList := by
  cases h with
  | send message hc =>
    have he : (t.runner.send message).events = t.runner.events := by rw [Runner.send, if_pos hc]
    exact he ▸ List.prefix_rfl
  | handle message rest he hp hq =>
    dsimp only
    rw [Runner.handle_eq_absorb, Runner.toList_absorb]
    exact List.prefix_append _ _
  | execute left redraw i p he hp hs => simp [Runner.record_eq]
  | close left redraw he hp hs => simp [Runner.close]
  | fault left redraw fault p he hp hs => simp [Runner.fail, Runner.close]
  | tick he hp =>
    rw [Runner.toList_absorb]
    exact List.prefix_append _ _
  | _ => exact List.prefix_rfl

theorem told_advance (t : Thread) : t.runner.events.toList <+: t.advance.runner.events.toList := by
  cases he : t.runner.ending with
  | some ending => exact (advance_of_ended he).symm ▸ List.prefix_rfl
  | none =>
    rw [advance_of_running he]
    exact (step_next he).told

/-- a call is a tick or the handling of a message that was sent -/
theorem Run.mem_calls (h : Run (start s) moves t) {c : Scheduler.Call} (hc : c ∈ calls moves) :
    c = .runTick ∨ ∃ message ∈ sent moves, c = message.call := by
  obtain ⟨m, hm, hc⟩ := List.mem_flatMap.mp hc
  cases m with
  | handled message =>
    have hh : message ∈ handled moves := List.mem_filterMap.mpr ⟨_, hm, rfl⟩
    refine .inr ⟨message, ?_, List.mem_singleton.mp hc⟩
    rw [← h.queue]
    exact List.mem_append_left _ hh
  | tickEnded => exact .inl (List.mem_singleton.mp hc)
  | _ => cases hc

theorem update?_lastWords {r : Runner} {event : Event} (h : event ∈ r.lastWords) :
    event.update? = none := by
  unfold Runner.lastWords at h
  split at h
  · rw [List.mem_singleton.mp h]
    rfl
  · cases h

/-- **Between two ticks the last screen sent is the screen**, if only keys have been sent. -/
theorem Run.picture (h : Run (start s) moves t)
    (hk : ∀ message ∈ sent moves, ∃ k pressed, message = .key k pressed)
    (hp : t.phase = .polling) :
    s.screen.afterEvents t.runner.events.toList = t.runner.scheduler.screen := by
  have hc : ∀ c ∈ calls moves, ∀ program, c ≠ .reset program := by
    rintro c hc program rfl
    obtain hc | ⟨message, hm, hc⟩ := h.mem_calls hc
    · cases hc
    · obtain ⟨k, pressed, rfl⟩ := hk message hm
      cases hc
  obtain ⟨hs, he⟩ := h.reached.of_polling hp
  rw [he, Screen.afterEvents_append, s.afterEvents_history hc, hs,
    Screen.afterEvents_of_no_update _ fun _ => update?_lastWords]

end Thread

end Chip8
