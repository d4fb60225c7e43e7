import Chip8.CommandLine.Run
import Chip8.Proofs.Runner.Picture
import Chip8.Proofs.Runner.Round

/-!
# A run from the command line, turn by turn

The main thread of a run holds the keys down, takes up one event after the other, hangs up, waits
for the end of the runner and reports it.  It leaves off taking up events behind a fault, at the end
of a runner that has nothing more to tell, and at a deadline, which may come at any time.  Beside it
the runner makes its moves on a thread of its own.

* `Watch`, `Watch.turn`, `Watch.after`    such a run behind a schedule;
* `Watch.start`                           from the options of a command line and any generator;
* `Watch.Sound`, `Sound.after`            what holds of it behind every schedule;
* `exists_end`                            the turn in which the runner comes to its end.
-/

namespace Chip8.CommandLine

/-- the report of a run that shows this screen when the runner has come to this end -/
def Report.ofEnding (shown : Screen) : Option Ending → Report
  | some (.faulted fault) => .failure (printedScreen shown) fault.record
  | _ => ⟨0, printedScreen shown, none⟩

/-- what the main thread is at -/
inductive Activity
  /-- these keys are still to be held down -/
  | pressing (keys : List Key)
  /-- takes up the events -/
  | watching
  /-- about to hang up -/
  | leaving
  /-- waits for the runner to end -/
  | joining
  | done (report : Report)

/-- up to the last event it takes up -/
def Activity.attends : Activity → Bool
  | .pressing _ | .watching => true
  | _ => false

inductive Turn
  | main
  | runner
  | deadline
  deriving DecidableEq, Repr

structure Watch where
  thread : Thread
  activity : Activity
  /-- the number of events taken up -/
  taken : Nat
  /-- the screen to be printed -/
  shown : Screen

namespace Watch
variable {s : Scheduler} {w : Watch}

def ofScheduler (s : Scheduler) (keys : List Key) : Watch :=
  ⟨Thread.start s, .pressing keys, 0, s.screen⟩

def start (o : Options) (program : List UInt8) (source : Generator.Source) :
    Except Report Watch :=
  match Processor.load program (source.generator o.seed) with
  | .error e => .error (.failure "" e.record)
  | .ok processor =>
    match Runner.start processor o.pace with
    | .error e => .error (.failure "" e.record)
    | .ok started => .ok ⟨⟨started, .polling⟩, .pressing o.holdKeys, 0, processor.machine.screen⟩

/-! ## what there is to be seen of it -/

def scheduler (w : Watch) : Scheduler := w.thread.runner.scheduler

def screen (w : Watch) : Screen := w.scheduler.screen

def ending (w : Watch) : Option Ending := w.thread.runner.ending

/-- all that the runner has told -/
def events (w : Watch) : List Event := w.thread.runner.events.toList

/-- what the main thread has taken up of it -/
def seen (w : Watch) : List Event := w.events.take w.taken

/-! ## turns -/

/-- takes up one more event, the last one if it tells of a fault -/
def take (w : Watch) (event : Event) : Watch :=
  { w with
    activity := match event.fault? with
      | none => .watching
      | some _ => .leaving
    taken := w.taken + 1
    shown := w.shown.afterEvents [event] }

def act (w : Watch) : Watch :=
  match w.activity with
  | .pressing (k :: keys) =>
    { w with
      thread := { w.thread with runner := w.thread.runner.send (.key k true) }
      activity := .pressing keys }
  | .pressing [] => { w with activity := .watching }
  | .watching =>
    match w.events[w.taken]?, w.ending with
    | some event, _ => w.take event
    | none, some _ => { w with activity := .leaving }
    | none, none => w
  | .leaving =>
    { w with
      thread := { w.thread with runner := w.thread.runner.disconnect }
      activity := .joining }
  | .joining =>
    match w.ending with
    | some _ => { w with activity := .done (.ofEnding w.shown w.ending) }
    | none => w
  | .done _ => w

/-- whoever cannot go on waits -/
def turn (w : Watch) : Turn → Watch
  | .main => w.act
  | .runner => { w with thread := w.thread.advance }
  | .deadline =>
    match w.activity with
    | .watching => { w with activity := .leaving }
    | _ => w

def after (w : Watch) : List Turn → Watch
  | [] => w
  | turn :: schedule => (w.turn turn).after schedule

theorem after_append (w : Watch) (a b : List Turn) : w.after (a ++ b) = (w.after a).after b := by
  induction a generalizing w with
  | nil => rfl
  | cons turn a ih => exact ih (w.turn turn)

/-! ## what holds behind every schedule -/

/-- nothing but keys is sent, the screen is that of the events taken up, and a fault is the last of
these; a report tells how the runner has ended -/
structure Sound (s : Scheduler) (w : Watch) : Prop where
  run : ∃ moves, Thread.Run (.start s) moves w.thread ∧
    ∀ message ∈ Thread.sent moves, ∃ k pressed, message = .key k pressed
  taken : w.taken ≤ w.events.length
  shown : w.shown = s.screen.afterEvents w.seen
  attentive (ha : w.activity.attends = true) : ∀ event ∈ w.seen, event.fault? = none
  reported (report : Report) (hr : w.activity = .done report) :
    w.ending ≠ none ∧ report = .ofEnding w.shown w.ending

theorem sound_ofScheduler (s : Scheduler) (keys : List Key) : Sound s (ofScheduler s keys) where
  run := ⟨[], .nil, nofun⟩
  taken := Nat.zero_le _
  shown := rfl
  attentive _ := nofun
  reported _ := nofun

namespace Sound

/-- goes over to something else -/
theorem turnTo (h : Sound s w) {activity : Activity}
    (ha : activity.attends = true → w.activity.attends = true)
    (hr : ∀ report, activity = .done report →
      w.ending ≠ none ∧ report = .ofEnding w.shown w.ending) :
    Sound s { w with activity } :=
  ⟨h.run, h.taken, h.shown, fun hn => h.attentive (ha hn), hr⟩

/-- the thread goes on, with nothing but keys sent -/
theorem goOn (h : Sound s w) {t : Thread} {moves : List Move} (hm : Thread.Run w.thread moves t)
    (hk : ∀ message ∈ Thread.sent moves, ∃ k pressed, message = .key k pressed)
    (hp : w.events <+: t.runner.events.toList) (he : w.ending ≠ none → t.runner.ending = w.ending) :
    Sound s { w with thread := t } := by
  obtain ⟨rest, hp⟩ := hp
  -- what has been told only grows, so what has been taken up of it stays
  have hs : ({ w with thread := t } : Watch).seen = w.seen := by
    show t.runner.events.toList.take w.taken = _
    rw [← hp, List.take_append_of_le_length h.taken]
    rfl
  obtain ⟨before, hb, hkb⟩ := h.run
  refine ⟨⟨before ++ moves, hb.append hm, ?_⟩, ?_, ?_, ?_, ?_⟩
  · intro message hs
    rw [Thread.sent, List.filterMap_append] at hs
    exact (List.mem_append.mp hs).elim (hkb message) (hk message)
  · show w.taken ≤ t.runner.events.toList.length
    rw [← hp, List.length_append]
    exact Nat.le_add_right_of_le h.taken
  · rw [hs]
    exact h.shown
  · rw [hs]
    exact h.attentive
  · intro report hr
    obtain ⟨hn, rfl⟩ := h.reported report hr
    have hw := he hn
    exact ⟨fun hc => hn (hw.symm.trans hc), congrArg _ hw.symm⟩

theorem runner (h : Sound s w) : Sound s { w with thread := w.thread.advance } := by
  obtain ⟨moves, hm, hr⟩ := Thread.run_advances w.thread 1
  refine h.goOn hr ?_ w.thread.told_advance ?_
  · intro message hs
    obtain ⟨m, hi, hs⟩ := List.mem_filterMap.mp hs
    cases m with
    | sent message => cases hm _ hi
    | _ => cases hs
  · intro hn
    obtain ⟨ending, he⟩ := Option.ne_none_iff_exists'.mp hn
    rw [Thread.advance_of_ended he]
    rfl

theorem send (h : Sound s w) (k : Key) (pressed : Bool) :
    Sound s { w with
      thread := { w.thread with runner := w.thread.runner.send (.key k pressed) } } := by
  cases hc : w.thread.runner.connected with
  | false =>
    rw [Runner.send_of_gone hc]
    exact h
  | true =>
    have hm := Thread.Step.send (t := w.thread) (.key k pressed) hc
    refine h.goOn (.snoc .nil hm) ?_ hm.told fun _ => ?_
    · intro message hs
      exact ⟨k, pressed, List.mem_singleton.mp hs⟩
    · rw [Runner.send, if_pos hc]
      rfl

theorem disconnect (h : Sound s w) :
    Sound s { w with thread := { w.thread with runner := w.thread.runner.disconnect } } := by
  cases hc : w.thread.runner.connected with
  | false =>
    rw [Runner.disconnect_of_gone hc]
    exact h
  | true =>
    have hm := Thread.Step.hangUp (t := w.thread) hc
    exact h.goOn (.snoc .nil hm) (List.forall_mem_nil _) hm.told fun _ => rfl

theorem take (h : Sound s w) (ha : w.activity = .watching) {event : Event}
    (he : w.events[w.taken]? = some event) : Sound s (w.take event) := by
  have hs : (w.take event).seen = w.seen ++ [event] := by
    show w.events.take (w.taken + 1) = _
    rw [List.take_add_one, he]
    rfl
  have hn := h.attentive (by rw [ha]; rfl)
  refine ⟨h.run, (List.getElem?_eq_some_iff.mp he).1, ?_, ?_, ?_⟩
  · rw [hs, Screen.afterEvents_append, ← h.shown]
    rfl
  · intro ho
    rw [hs]
    refine List.forall_mem_append.mpr ⟨hn, List.forall_mem_singleton.mpr ?_⟩
    cases hf : event.fault? with
    | none => rfl
    | some fault =>
      simp only [Watch.take, hf] at ho
      cases ho
  · intro report hr
    unfold Watch.take at hr
    dsimp only at hr
    split at hr <;> cases hr

theorem act (h : Sound s w) : Sound s w.act := by
  unfold Watch.act
  split
  · next k keys ha => exact (h.send k true).turnTo (fun _ => by rw [ha]; rfl) nofun
  · next ha => exact h.turnTo (fun _ => by rw [ha]; rfl) nofun
  · next ha =>
    split
    · next event he => exact h.take ha he
    · exact h.turnTo nofun nofun
    · exact h
  · exact h.disconnect.turnTo nofun nofun
  · split
    · next ending he =>
      refine h.turnTo nofun fun report hr => ⟨?_, ?_⟩
      · rw [he]
        exact nofun
      · cases hr
        rfl
    · exact h
  · exact h

theorem turn (h : Sound s w) (turn : Turn) : Sound s (w.turn turn) := by
  cases turn with
  | main => exact h.act
  | runner => exact h.runner
  | deadline =>
    unfold Watch.turn
    dsimp only
    split
    · exact h.turnTo nofun nofun
    · exact h

end Sound

theorem Sound.after (h : Sound s w) (schedule : List Turn) : Sound s (w.after schedule) := by
  induction schedule generalizing w with
  | nil => exact h
  | cons turn schedule ih => exact ih (h.turn turn)

/-! ## the end of the runner -/

/-- the main thread has only the queue in its hands -/
theorem act_thread (w : Watch) :
    ∃ queue connected,
      w.act.thread = ⟨{ w.thread.runner with queue, connected }, w.thread.phase⟩ := by
  unfold act
  split
  · unfold Runner.send
    dsimp only
    split <;> exact ⟨_, _, rfl⟩
  · exact ⟨_, _, rfl⟩
  · split <;> exact ⟨_, _, rfl⟩
  · exact ⟨_, _, rfl⟩
  · split <;> exact ⟨_, _, rfl⟩
  · exact ⟨_, _, rfl⟩

/-- so does the deadline -/
theorem turn_of_ne_runner {turn : Turn} (h : turn ≠ .runner) :
    (w.turn turn).scheduler = w.scheduler ∧ (w.turn turn).ending = w.ending ∧
      (w.turn turn).events = w.events := by
  cases turn with
  | runner => exact absurd rfl h
  | main =>
    obtain ⟨queue, connected, ht⟩ := w.act_thread
    simp only [Watch.turn, scheduler, ending, events, ht, and_self]
  | deadline =>
    unfold Watch.turn
    dsimp only
    split <;> exact ⟨rfl, rfl, rfl⟩

theorem turn_of_ended {ending : Ending} (h : w.ending = some ending) (turn : Turn) :
    (w.turn turn).scheduler = w.scheduler ∧ (w.turn turn).ending = w.ending := by
  by_cases ht : turn = .runner
  · subst ht
    have ha : w.thread.advance = w.thread := Thread.advance_of_ended h
    simp only [Watch.turn, ha, scheduler, Watch.ending, and_self]
  · obtain ⟨hs, he, -⟩ := turn_of_ne_runner (w := w) ht
    exact ⟨hs, he⟩

/-- behind its end the runner leaves everything as it is -/
theorem after_of_ended {ending : Ending} (h : w.ending = some ending) (schedule : List Turn) :
    (w.after schedule).scheduler = w.scheduler ∧ (w.after schedule).ending = some ending := by
  induction schedule generalizing w with
  | nil => exact ⟨rfl, h⟩
  | cons turn schedule ih =>
    obtain ⟨hs, he⟩ := turn_of_ended h turn
    obtain ⟨hs', he'⟩ := ih (he.trans h)
    exact ⟨hs'.trans hs, he'⟩

/-- a runner that has ended has done so in a turn of its own, and has changed nothing since -/
theorem exists_end {schedule : List Turn} {ending : Ending} (hw : w.ending = none)
    (h : (w.after schedule).ending = some ending) :
    ∃ before rest, schedule = before ++ .runner :: rest ∧ (w.after before).ending = none ∧
      (w.after (before ++ [.runner])).ending = some ending ∧
      (w.after schedule).scheduler = (w.after (before ++ [.runner])).scheduler := by
  induction schedule generalizing w with
  | nil =>
    rw [after, hw] at h
    cases h
  | cons turn schedule ih =>
    cases he : (w.turn turn).ending with
    | none =>
      obtain ⟨before, rest, rfl, hb, ha, hs⟩ := ih he h
      exact ⟨turn :: before, rest, rfl, hb, ha, hs⟩
    | some other =>
      have ht : turn = .runner := Decidable.byContradiction fun ht => by
        rw [(turn_of_ne_runner ht).2.1, hw] at he
        cases he
      subst ht
      obtain ⟨hs, ho⟩ := after_of_ended he schedule
      cases ho.symm.trans h
      exact ⟨[], schedule, rfl, hw, he, hs⟩

/-! ## what has been told -/

theorem told_turn (w : Watch) (turn : Turn) : w.events <+: (w.turn turn).events := by
  by_cases ht : turn = .runner
  · subst ht
    exact w.thread.told_advance
  · have he : (w.turn turn).events = w.events := (turn_of_ne_runner ht).2.2
    exact he ▸ List.prefix_rfl

theorem told_after (w : Watch) (schedule : List Turn) : w.events <+: (w.after schedule).events := by
  induction schedule generalizing w with
  | nil => exact List.prefix_rfl
  | cons turn schedule ih => exact (w.told_turn turn).trans (ih (w.turn turn))

end Watch

end Chip8.CommandLine
