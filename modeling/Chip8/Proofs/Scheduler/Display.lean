import Chip8.Proofs.Scheduler.Call

/-!
# The display: what is shown against the screen

A display is sent screens, and told when the screen has been cleared.  In the middle of a batch it
may be behind, since a batch shows the screen only at its end.  There it is shown whenever an
instruction of the batch has written it; otherwise nothing has changed it, and nothing has been told
that a display would take up.

* `Screen.shows`, `Screen.follow`    what a display shows after an event, and after many;
* `executed`                         the instructions executed in a batch;
* `follow_call`                      a display that was right before a call is right after it;
* `updates_runCycles`, `count_screenCleared_runCycles`    what a batch tells a display;
* `display_follows_screen`           all of it together.
-/

namespace Chip8

/-- what a display shows after an event: the screen it is sent, or nothing if it is to be blank -/
def Screen.shows (shown : Screen) : Event → Screen
  | .screenUpdated new => new
  | .screenCleared => Screen.blank
  | _ => shown

def Screen.follow (shown : Screen) (events : List Event) : Screen :=
  events.foldl Screen.shows shown

theorem Screen.follow_append (shown : Screen) (a b : List Event) :
    shown.follow (a ++ b) = (shown.follow a).follow b := List.foldl_append

namespace Scheduler

def screen (s : Scheduler) : Screen := s.processor.machine.screen

/-- the instructions executed in a batch of `n` -/
def executed (s : Scheduler) (n : Nat) : List Instruction := (s.processor.trace n).map Prod.fst

/-! ## what a display does not take up -/

theorem follow_toneChange (shown : Screen) (playing wanted : Bool) :
    shown.follow (toneChange playing wanted) = shown := by
  cases playing <;> cases wanted <;> rfl

theorem follow_eventsOf {i : Instruction} (shown : Screen) (h : redraws i = false) :
    shown.follow (eventsOf i) = shown := by
  cases i with
  | clearScreen => cases h
  | _ => rfl

/-- as long as nothing is drawn, a display is told nothing -/
theorem follow_told {trace : List (Instruction × Processor)} (shown : Screen) (playing : Bool)
    (h : redrawn trace = false) : shown.follow (told playing trace) = shown := by
  induction trace generalizing playing with
  | nil => rfl
  | cons x rest ih =>
    obtain ⟨i, q⟩ := x
    obtain ⟨hi, hr⟩ : redraws i = false ∧ redrawn rest = false := by
      simpa only [redrawn, List.any_cons, Bool.or_eq_false_iff] using h
    rw [told, Screen.follow_append, Screen.follow_append, follow_eventsOf shown hi,
      follow_toneChange, ih q.sounds hr]

/-! ## each call by itself -/

theorem follow_runCycles (s : Scheduler) (n : Nat) :
    s.screen.follow (s.runCycles n).events = (s.runCycles n).scheduler.screen := by
  rw [runCycles_eq, Screen.follow_append]
  cases hr : redrawn (s.processor.trace n) with
  | true => rfl
  | false =>
    have hs : (s.processor.stepMany n).machine.screen = s.screen := screen_of_not_redrawn hr
    rw [follow_told s.screen s.tonePlaying hr]
    exact hs.symm

theorem follow_tickTimers (s : Scheduler) :
    s.screen.follow s.tickTimers.events = s.tickTimers.scheduler.screen := by
  rw [tickTimers_eq]
  exact follow_toneChange s.screen s.tonePlaying s.processor.tickTimers.sounds

theorem follow_runTick (s : Scheduler) :
    s.screen.follow s.runTick.events = s.runTick.scheduler.screen := by
  have hb := s.follow_runCycles s.batchSize
  rw [runTick_eq]
  cases (s.runCycles s.batchSize).fault with
  | some fault => exact hb
  | none =>
    dsimp only
    rw [Screen.follow_append, hb]
    exact follow_tickTimers _

/-- **A display that was right before a call is right after it**, whatever the call and its
outcome. -/
theorem follow_call (s : Scheduler) (c : Call) :
    s.screen.follow (s.call c).events = (s.call c).scheduler.screen := by
  cases c with
  | runCycles n => exact s.follow_runCycles n
  | runTick => exact s.follow_runTick
  | tickTimers => exact s.follow_tickTimers
  | key k pressed =>
    have hk : (s.processor.setKey k pressed).2.machine.screen = s.processor.machine.screen :=
      Processor.setKey_same .screen k pressed nofun nofun fun _ => nofun
    exact hk.symm
  | reset program =>
    rw [call_reset]
    split
    · exact follow_toneChange Screen.blank _ _
    · rfl

theorem follow_history (s : Scheduler) (calls : List Call) :
    s.screen.follow (s.history calls) = (s.after calls).screen := by
  induction calls generalizing s with
  | nil => rfl
  | cons c calls ih => rw [history, Screen.follow_append, follow_call, ih, after]

/-! ## what a batch tells a display -/

/-- the screen is sent once or not at all, and nothing comes after it -/
theorem updates_runCycles (s : Scheduler) (n : Nat) :
    (s.runCycles n).events.filterMap Event.update? =
      if redrawn (s.processor.trace n) then [(s.runCycles n).scheduler.screen] else [] := by
  rw [runCycles_eq, List.filterMap_append, filterMap_update?_told, List.nil_append]
  cases redrawn (s.processor.trace n) <;> rfl

theorem getLast?_runCycles {s : Scheduler} {n : Nat} {shown : Screen}
    (h : .screenUpdated shown ∈ (s.runCycles n).events) :
    (s.runCycles n).events.getLast? = some (.screenUpdated shown) := by
  rw [runCycles_eq] at h ⊢
  obtain h | h := List.mem_append.mp h
  · cases update?_told h
  · cases hr : redrawn (s.processor.trace n) with
    | true =>
      rw [hr] at h
      rw [List.mem_singleton.mp h]
      exact List.getLast?_concat
    | false =>
      rw [hr] at h
      cases h

theorem redraws_iff (i : Instruction) :
    redraws i = true ↔ i = .clearScreen ∨ ∃ x y rows, i = .draw x y rows := by
  cases i <;> simp [redraws]

theorem redrawn_iff (s : Scheduler) (n : Nat) :
    redrawn (s.processor.trace n) = true ↔
      ∃ i ∈ s.executed n, i = .clearScreen ∨ ∃ x y rows, i = .draw x y rows := by
  simp [redrawn, executed, redraws_iff]

theorem mem_screenUpdated_iff (s : Scheduler) (n : Nat) :
    (∃ shown, .screenUpdated shown ∈ (s.runCycles n).events) ↔
      redrawn (s.processor.trace n) = true := by
  have hu := s.updates_runCycles n
  constructor
  · rintro ⟨shown, hm⟩
    have hf : shown ∈ (s.runCycles n).events.filterMap Event.update? :=
      List.mem_filterMap.mpr ⟨_, hm, rfl⟩
    cases hr : redrawn (s.processor.trace n) with
    | true => rfl
    | false =>
      rw [hu, hr] at hf
      cases hf
  · intro hr
    rw [runCycles_eq, hr]
    exact ⟨_, List.mem_append_right _ List.mem_cons_self⟩

theorem count_screenCleared_eventsOf (i : Instruction) :
    (eventsOf i).count .screenCleared = if i = .clearScreen then 1 else 0 := by
  cases i <;> rfl

theorem count_screenCleared_toneChange (playing wanted : Bool) :
    (toneChange playing wanted).count .screenCleared = 0 := by
  cases playing <;> cases wanted <;> rfl

theorem count_screenCleared_told (playing : Bool) (trace : List (Instruction × Processor)) :
    (told playing trace).count .screenCleared = (trace.map Prod.fst).count .clearScreen := by
  induction trace generalizing playing with
  | nil => rfl
  | cons x rest ih =>
    obtain ⟨i, q⟩ := x
    rw [told, List.count_append, List.count_append, count_screenCleared_eventsOf,
      count_screenCleared_toneChange, ih, List.map_cons, List.count_cons]
    simp only [beq_iff_eq]
    omega

theorem count_screenCleared_runCycles (s : Scheduler) (n : Nat) :
    (s.runCycles n).events.count .screenCleared = (s.executed n).count .clearScreen := by
  have hp : (picture (redrawn (s.processor.trace n))
      (s.processor.stepMany n).machine.screen).count .screenCleared = 0 := by
    cases redrawn (s.processor.trace n) <;> rfl
  rw [runCycles_eq, List.count_append, hp, count_screenCleared_told]
  rfl

/-- **A display that follows the events shows the screen.**  From any scheduler on, whatever the
calls and their outcomes, a display that starts with the screen shows the screen behind every call.
A batch sends the screen at most once, as its last event, and just if it has executed an instruction
that clears the screen or draws; it tells every clearing. -/
theorem display_follows_screen (s : Scheduler) :
    (∀ calls, s.screen.follow (s.history calls) = (s.after calls).screen) ∧
    ∀ n,
      let events := (s.runCycles n).events
      (events.filterMap Event.update?).length ≤ 1 ∧
      (∀ shown, .screenUpdated shown ∈ events → events.getLast? = some (.screenUpdated shown)) ∧
      ((∃ shown, .screenUpdated shown ∈ events) ↔
        ∃ i ∈ s.executed n, i = .clearScreen ∨ ∃ x y rows, i = .draw x y rows) ∧
      events.count .screenCleared = (s.executed n).count .clearScreen := by
  refine ⟨s.follow_history, ?_⟩
  intro n
  refine ⟨?_, ?_, ?_, s.count_screenCleared_runCycles n⟩
  · rw [updates_runCycles]
    split
    · exact Nat.le_refl 1
    · exact Nat.zero_le 1
  · intro shown hm
    exact getLast?_runCycles hm
  · rw [mem_screenUpdated_iff, redrawn_iff]

end Scheduler

end Chip8
