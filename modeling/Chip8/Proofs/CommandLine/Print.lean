import Chip8.Proofs.CommandLine.Watch

/-!
# The printed screen

The main thread takes up the screens it is sent and nothing else.  Behind the events of a whole
number of rounds it holds the screen after these rounds, and behind a fault the screen at the fault,
which it prints.  The run that is carried out round by round, up to its frames or its fault, is one
of these schedules.

* `start_eq`           a program that fits and a clock that ticks are all it takes;
* `shown_of_polling`   the screen held behind whole rounds;
* `ended_of_fault`, `reports_fault`    the screen held behind a fault, and the report;
* `exists_rounds`, `exists_leaving`, `exists_done`    from one activity to the next;
* `exists_schedule`    the schedule of a run that goes round by round;
* `prints_screen`      all of it together.
-/

namespace Chip8.CommandLine

/-! ## the beginning -/

theorem Report.ofEnding_getD (shown : Screen) (ending : Option Ending) :
    ofEnding shown (some (ending.getD .disconnected)) = ofEnding shown ending := by
  cases ending <;> rfl

/-- the scheduler of a program under given options -/
def schedulerOf (o : Options) (program : List UInt8) (source : Generator.Source) : Scheduler :=
  .start (.start (.ofProgram program) (source.generator o.seed)) o.pace

namespace Watch
variable {s : Scheduler} {w : Watch} {o : Options} {program : List UInt8}

theorem start_eq (hp : program.length ≤ Memory.maxProgramLength)
    (hf : o.pace.timerFrequency ≠ 0) (source : Generator.Source) :
    start o program source = .ok (ofScheduler (schedulerOf o program source) o.holdKeys) := by
  have hl : ∀ g, Processor.load program g = .ok (.start (.ofProgram program) g) := by
    intro g
    rw [Processor.load, Machine.load, if_pos hp]
    rfl
  have hr : ∀ p, Runner.start p o.pace = .ok (.ofScheduler (.start p o.pace)) := by
    intro p
    rw [Runner.start, if_neg hf]
  unfold start
  rw [hl]
  dsimp only
  rw [hr]
  rfl

/-! ## the screen -/

/-- **Behind the events of whole rounds the screen that is held is the one after these rounds.** -/
theorem shown_of_polling {before rest : List Turn} (h : Sound s w)
    (hp : (w.after before).thread.phase = .polling)
    (ht : (w.after (before ++ rest)).taken = (w.after before).events.length) :
    (w.after (before ++ rest)).shown = (w.after before).screen := by
  have hs : (w.after (before ++ rest)).seen = (w.after before).events := by
    obtain ⟨later, he⟩ := (w.after before).told_after rest
    rw [seen, ht, after_append, ← he, List.take_left]
  obtain ⟨moves, hm, hk⟩ := (h.after before).run
  rw [(h.after (before ++ rest)).shown, hs]
  exact hm.picture hk hp

/-- a fault that has been taken up is the last thing told -/
theorem ended_of_fault (h : Sound s w) {fault : Fault} (hf : .stopped fault ∈ w.seen) :
    w.ending = some (.faulted fault) ∧ w.scheduler.processor.halted = some fault ∧
      w.shown = w.screen := by
  obtain ⟨moves, hm, hk⟩ := h.run
  have he : w.ending = some (.faulted fault) := hm.mem_stopped_iff.mpr (List.mem_of_mem_take hf)
  have hp : w.thread.phase = .polling := hm.settled.polling _ he
  -- the only event that tells of it has nothing behind it, so nothing is left to be taken up
  have ha : w.seen = w.events := by
    obtain ⟨told, ht, hn⟩ := hm.exists_told hp
    have hw : w.events = told ++ [.stopped fault] := by
      rw [events, ht, Runner.lastWords, show w.thread.runner.ending = _ from he]
    have hl : told.length < w.taken := by
      refine Nat.lt_of_not_le fun hl => ?_
      rw [seen, hw, List.take_append_of_le_length hl] at hf
      cases hn _ (List.mem_of_mem_take hf)
    refine List.take_of_length_le ?_
    rw [hw, List.length_append]
    exact hl
  refine ⟨he, hm.settled.halted fault he, ?_⟩
  rw [h.shown, ha]
  exact hm.picture hk hp

/-! ## from one activity to the next -/

theorem turn_leaving (ha : w.activity = .leaving) :
    w.turn .main =
      { w with
        thread := { w.thread with runner := w.thread.runner.disconnect }
        activity := .joining } := by
  rw [turn, act, ha]

theorem turn_joining (ha : w.activity = .joining) {ending : Ending}
    (he : w.ending = some ending) :
    w.turn .main = { w with activity := .done (.ofEnding w.shown w.ending) } := by
  rw [turn, act, ha]
  simp only [he]

theorem turn_done {report : Report} (ha : w.activity = .done report) : w.turn .main = w := by
  rw [turn, act, ha]

/-- a fault that has been taken up is reported, in two more turns if it has not been yet -/
theorem reports_fault (h : Sound s w) {fault : Fault} (hf : .stopped fault ∈ w.seen) :
    let report := Report.failure (printedScreen w.screen) fault.record
    (w.after [.main, .main]).activity = .done report ∧
      ∀ other, w.activity = .done other → other = report := by
  obtain ⟨he, -, hs⟩ := ended_of_fault h hf
  have hr : Report.ofEnding w.shown w.ending =
      .failure (printedScreen w.screen) fault.record := by
    rw [he, hs]
    rfl
  have hd : ∀ other, w.activity = .done other →
      other = .failure (printedScreen w.screen) fault.record := fun other ho =>
    (h.reported other ho).2.trans hr
  refine ⟨?_, hd⟩
  cases ha : w.activity with
  | leaving =>
    have hj := turn_joining (w := w.turn .main) (by rw [turn_leaving ha])
      (by rw [turn_leaving ha]; exact he)
    rw [after, after, hj, turn_leaving ha]
    exact congrArg _ hr
  | joining =>
    rw [after, turn_joining ha he, hr]
    rfl
  | done other => rw [after, turn_done ha, after, turn_done ha, after, ha, hd other ha]
  | _ => cases h.attentive (by rw [ha]; rfl) _ hf

theorem after_replicate_runner (w : Watch) (n : Nat) :
    w.after (List.replicate n .runner) = { w with thread := w.thread.advances n } := by
  induction n generalizing w with
  | zero => rfl
  | succ n ih => rw [List.replicate_succ, after, ih, turn, Thread.advances]

theorem after_pressing {t : Thread} {n : Nat} {shown : Screen} (keys : List Key) :
    (⟨t, .pressing keys, n, shown⟩ : Watch).after (List.replicate (keys.length + 1) .main) =
      ⟨⟨keys.foldl (fun r k => r.send (.key k true)) t.runner, t.phase⟩, .watching, n, shown⟩ := by
  induction keys generalizing t with
  | nil => rfl
  | cons k keys ih => exact ih

/-- events that tell of no fault are taken up one after the other -/
theorem after_taking {told rest : List Event} (ha : w.activity = .watching)
    (ht : w.events.drop w.taken = told ++ rest) (hn : ∀ event ∈ told, event.fault? = none) :
    w.after (List.replicate told.length .main) =
      { w with taken := w.taken + told.length, shown := w.shown.afterEvents told } := by
  induction told generalizing w with
  | nil => rfl
  | cons event told ih =>
    obtain ⟨hf, hn⟩ := List.forall_mem_cons.mp hn
    have hg : w.events[w.taken]? = some event := by
      rw [← List.head?_drop, ht]
      rfl
    have hd : w.events.drop (w.taken + 1) = told ++ rest := by
      rw [← List.tail_drop, ht]
      rfl
    have hw : w.turn .main =
        { w with taken := w.taken + 1, shown := w.shown.afterEvents [event] } := by
      rw [turn, act, ha]
      simp only [hg, take, hf]
    rw [List.length_cons, List.replicate_succ, after, hw]
    rw [ih (w := ⟨w.thread, w.activity, w.taken + 1, _⟩) ha hd hn]
    simp only [← Screen.afterEvents_append, List.singleton_append, Nat.add_assoc, Nat.add_comm 1]

/-- behind the last event the main thread leaves, at the latest at its deadline -/
theorem after_all (ha : w.activity = .watching) (ht : w.taken = w.events.length) :
    w.after [.main, .deadline] = { w with activity := .leaving } := by
  have hg : w.events[w.taken]? = none := by
    rw [ht]
    exact List.getElem?_eq_none (Nat.le_refl _)
  cases he : w.ending with
  | none =>
    have hw : w.turn .main = w := by
      rw [turn, act, ha]
      simp only [hg, he]
    rw [after, hw, after, after, turn, ha]
  | some ending =>
    have hw : w.turn .main = { w with activity := .leaving } := by
      rw [turn, act, ha]
      simp only [hg, he]
    rw [after, hw]
    rfl

/-- a fault is taken up, and makes a deadline superfluous -/
theorem after_fault {fault : Fault} (ha : w.activity = .watching)
    (hg : w.events[w.taken]? = some (.stopped fault)) :
    w.after [.main, .deadline] =
      { w with
        activity := .leaving
        taken := w.taken + 1
        shown := w.shown.afterEvents [.stopped fault] } := by
  have hw : w.turn .main = w.take (.stopped fault) := by
    rw [turn, act, ha]
    simp only [hg]
  rw [after, hw]
  rfl

/-- everything is taken up -/
theorem exists_leaving {moves : List Move} (hm : Thread.Run (.start s) moves w.thread)
    (hp : w.thread.phase = .polling) (ha : w.activity = .watching) (ht : w.taken = 0) :
    ∃ schedule, w.after schedule =
      { w with
        activity := .leaving
        taken := w.events.length
        shown := w.shown.afterEvents w.events } := by
  obtain ⟨told, he, hn⟩ := hm.exists_told hp
  have hd : w.events.drop w.taken = told ++ w.thread.runner.lastWords := by
    rw [ht]
    exact he
  refine ⟨List.replicate told.length .main ++ [.main, .deadline], ?_⟩
  rw [after_append, after_taking ha hd hn, ht, Nat.zero_add]
  unfold Runner.lastWords at he
  split at he
  · next fault hf =>
    have hw : w.events = told ++ [.stopped fault] := he
    have hg : w.events[told.length]? = some (.stopped fault) := by
      rw [hw, List.getElem?_append_right (Nat.le_refl _), Nat.sub_self]
      rfl
    rw [after_fault (w := ⟨w.thread, w.activity, told.length, _⟩) ha hg, hw, List.length_append,
      Screen.afterEvents_append]
    rfl
  · have hw : w.events = told := he.trans (List.append_nil told)
    have hl : told.length = w.events.length := by rw [hw]
    rw [after_all (w := ⟨w.thread, w.activity, told.length, _⟩) ha hl, hw]

theorem ending_round_disconnect (r : Runner) :
    r.disconnect.round.ending = some (r.ending.getD .disconnected) := by
  cases he : r.ending with
  | none =>
    have hd : r.disconnect.ending = none := he
    rw [Runner.round, hd]
    dsimp only
    rw [Runner.handleQueue, Runner.foldl_handle]
    rfl
  | some ending =>
    have hd : r.disconnect.ending = some ending := he
    rw [Runner.round, hd]
    exact he

/-- the runner handles what is left and ends, if it has not, and that is reported -/
theorem exists_done {r : Runner} (ht : w.thread = ⟨r, .polling⟩) (ha : w.activity = .leaving) :
    ∃ schedule, (w.after schedule).activity = .done (.ofEnding w.shown r.ending) := by
  obtain ⟨n, hn⟩ := Thread.advances_round r.disconnect
  have hw : w.turn .main = ⟨⟨r.disconnect, .polling⟩, .joining, w.taken, w.shown⟩ := by
    rw [turn_leaving ha, ht]
  have he : (⟨⟨r.disconnect.round, .polling⟩, .joining, w.taken, w.shown⟩ : Watch).ending =
      some (r.ending.getD .disconnected) := ending_round_disconnect r
  refine ⟨.main :: (List.replicate n .runner ++ [.main]), ?_⟩
  rw [after, hw, after_append, after_replicate_runner, hn, after, turn_joining rfl he, he,
    Report.ofEnding_getD]
  rfl

/-! ## the run that goes round by round -/

/-- a run that does not start is its report; one that starts shows the last screen it was sent -/
theorem execute_eq (o : Options) (program : List UInt8) (source : Generator.Source) :
    execute o program source =
      match start o program source with
      | .error report => report
      | .ok w =>
        let r := runner o w.thread.runner
        .ofEnding (w.shown.afterEvents r.events.toList) r.ending := by
  unfold execute start
  cases Processor.load program (source.generator o.seed) with
  | error e => rfl
  | ok processor =>
    dsimp only
    cases Runner.start processor o.pace with
    | error e => rfl
    | ok started => rfl

/-- behind the last round the main thread is watching and has taken up nothing -/
theorem exists_rounds (s : Scheduler) (o : Options) :
    ∃ schedule, (ofScheduler s o.holdKeys).after schedule =
      ⟨⟨runner o (.ofScheduler s), .polling⟩, .watching, 0, s.screen⟩ := by
  obtain ⟨k, hk⟩ := Thread.advances_rounds
    (o.holdKeys.foldl (fun r k => r.send (.key k true)) (.ofScheduler s)) o.frames.toNat
  refine ⟨List.replicate (o.holdKeys.length + 1) .main ++ List.replicate k .runner, ?_⟩
  rw [after_append, ofScheduler, after_pressing, after_replicate_runner]
  exact congrArg (Watch.mk · .watching 0 s.screen) hk

/-- **The run that goes round by round follows a schedule**, and holds the screen behind its last
round. -/
theorem exists_schedule (s : Scheduler) (o : Options) :
    let r := runner o (.ofScheduler s)
    s.screen.afterEvents r.events.toList = r.scheduler.screen ∧
      ∃ schedule, ((ofScheduler s o.holdKeys).after schedule).activity =
        .done (.ofEnding (s.screen.afterEvents r.events.toList) r.ending) := by
  obtain ⟨first, hf⟩ := exists_rounds s o
  obtain ⟨moves, hm, hk⟩ := ((sound_ofScheduler s o.holdKeys).after first).run
  rw [hf] at hm
  refine ⟨hm.picture hk rfl, ?_⟩
  obtain ⟨second, hs⟩ := exists_leaving (w := ⟨_, .watching, 0, s.screen⟩) hm rfl rfl rfl
  obtain ⟨third, ht⟩ :=
    exists_done (w := ⟨⟨runner o (.ofScheduler s), .polling⟩, .leaving, _, _⟩) rfl rfl
  refine ⟨first ++ (second ++ third), ?_⟩
  rw [after_append, hf, after_append, hs]
  exact ht

/-- **A run prints the screen.**  A program that fits starts with any keys held down, any clock that
ticks and any random generator, with a seed or without.  Whatever the schedule, behind all events of
a number of whole rounds the main thread holds the screen after these rounds, no matter how far the
runner has got since.  If it takes up a fault, it holds the screen that the runner left behind in
the turn that came to the fault; it then fails with this fault, and prints this screen.  The run
that goes round by round does so after as many rounds as there are frames, or at its fault, and is
the outcome of a schedule. -/
theorem prints_screen (hp : program.length ≤ Memory.maxProgramLength)
    (hf : o.pace.timerFrequency ≠ 0) (source : Generator.Source) :
    ∃ w, start o program source = .ok w ∧
      (∀ before rest, (w.after before).thread.phase = .polling →
        (w.after (before ++ rest)).taken = (w.after before).events.length →
        (w.after (before ++ rest)).shown = (w.after before).screen) ∧
      (∀ schedule fault, .stopped fault ∈ (w.after schedule).seen →
        ∃ before rest, schedule = before ++ .runner :: rest ∧ (w.after before).ending = none ∧
          let failed := w.after (before ++ [.runner])
          let report := Report.failure (printedScreen failed.screen) fault.record
          failed.ending = some (.faulted fault) ∧
          failed.scheduler.processor.halted = some fault ∧
          (w.after schedule).shown = failed.screen ∧
          (w.after (schedule ++ [.main, .main])).activity = .done report ∧
          ∀ other, (w.after schedule).activity = .done other → other = report) ∧
      (let r := runner o w.thread.runner
       execute o program source = .ofEnding r.scheduler.screen r.ending) ∧
      ∃ schedule, (w.after schedule).activity = .done (execute o program source) := by
  have hw := start_eq hp hf source
  have hs := sound_ofScheduler (schedulerOf o program source) o.holdKeys
  obtain ⟨hr, hd⟩ := exists_schedule (schedulerOf o program source) o
  have he := execute_eq o program source
  rw [hw] at he
  refine ⟨_, hw, ?_, ?_, ?_, ?_⟩
  · intro before rest hp ht
    exact shown_of_polling hs hp ht
  · intro schedule fault hi
    have ha := hs.after schedule
    obtain ⟨he, hh, hv⟩ := ended_of_fault ha hi
    obtain ⟨hd, ho⟩ := reports_fault ha hi
    obtain ⟨before, rest, hb, hn, hf, hc⟩ := exists_end rfl he
    rw [screen, hc] at hv hd ho
    rw [hc] at hh
    refine ⟨before, rest, hb, hn, hf, hh, hv, ?_, ho⟩
    rw [after_append]
    exact hd
  · exact he.trans (congrArg (Report.ofEnding · _) hr)
  · rw [he]
    exact hd

/-- draws the digit 0 and then returns from no subroutine -/
def drawing : List UInt8 := [0xD0, 0x05, 0x00, 0xEE]

/-- no seed is given -/
def drawingOptions : Options := ⟨"drawing", .standard, 1, none, [3]⟩

def drawer : Watch := ofScheduler (schedulerOf drawingOptions drawing (.ofSeed 0)) [3]

/-- the key is pressed and handled, the tick comes to its fault, screen and fault are taken up -/
def drawingTurns : List Turn :=
  [.main, .main, .runner, .runner, .runner, .runner, .main, .main]

theorem faults_drawer : (drawer.after drawingTurns).seen.map Event.fault? =
    [none, some (.stackUnderflow 0x202)] := by
  decide +kernel

/-- the upper left corner of the digit -/
theorem lit_drawer : (drawer.after drawingTurns).shown.pixel 0 0 = true := by decide +kernel

/-- the digit is printed, although a fault has cut short the batch that has drawn it -/
theorem prints_screen_drawing :
    drawing.length ≤ Memory.maxProgramLength ∧ drawingOptions.pace.timerFrequency ≠ 0 ∧
      start drawingOptions drawing (.ofSeed 0) = .ok drawer ∧
      ∃ shown : Screen, shown.pixel 0 0 = true ∧
        (drawer.after (drawingTurns ++ [.main, .main])).activity =
          .done (.failure (printedScreen shown) (Fault.stackUnderflow 0x202).record) := by
  have hp : drawing.length ≤ Memory.maxProgramLength := by decide
  have hf : drawingOptions.pace.timerFrequency ≠ 0 := by decide
  have hd : start drawingOptions drawing (.ofSeed 0) = .ok drawer := start_eq hp hf _
  obtain ⟨w, hw, -, hr, -⟩ := prints_screen hp hf (.ofSeed 0)
  obtain rfl : drawer = w := Except.ok.inj (hd.symm.trans hw)
  have hi : .stopped (.stackUnderflow 0x202) ∈ (drawer.after drawingTurns).seen := by
    have hm : some (.stackUnderflow 0x202) ∈ (drawer.after drawingTurns).seen.map Event.fault? := by
      rw [faults_drawer]
      exact List.mem_cons_of_mem _ List.mem_cons_self
    obtain ⟨event, he, ht⟩ := List.mem_map.mp hm
    rwa [Event.fault?_eq_some.mp ht] at he
  obtain ⟨before, rest, -, -, -, -, hs, ha, -⟩ := hr drawingTurns _ hi
  refine ⟨hp, hf, hd, _, lit_drawer, ?_⟩
  rw [ha, ← hs]

end Watch

end Chip8.CommandLine
