import Chip8.Proofs.Machine.Memory
import Chip8.Proofs.Processor.Bounds
import Chip8.Proofs.Runner.Refused
import Chip8.Proofs.Session.Play

/-!
# Resets that succeed and resets that do not

A script that sends programs that do not fit goes on as if it had not sent them, whatever the
interleaving of client and runner.  With that, all there is to be said about a reset: it replaces
everything, or it is as if it had never been asked for.

* `Act.refused`, `Act.kept`        lines of a script that send such a program, and all the others;
* `Play.purged`, `Session.purged`  a session without these lines and messages;
* `Play.after_purged`, `Play.exists_after`    every schedule of the one session has its counterpart
                                   in the other;
* `Session.run_purged`             round by round, the two go together;
* `reset_total_or_refused`         resets of a scheduler, in calls and in scripts.
-/

namespace Chip8

/-- a line that sends a program that does not fit -/
def Act.refused : Act → Bool
  | .send message => message.refused
  | _ => false

/-- the script without such lines -/
def Act.kept (script : List Act) : List Act := script.filter fun line => !line.refused

theorem Act.kept_of_refused {line : Act} (h : line.refused = true) (rest : List Act) :
    kept (line :: rest) = kept rest := List.filter_cons_of_neg (by simp [h])

theorem Act.kept_of_not_refused {line : Act} (h : line.refused = false) (rest : List Act) :
    kept (line :: rest) = line :: kept rest := List.filter_cons_of_pos (by simp [h])

/-! ## turn by turn -/

namespace Play
variable {p : Play}

def purged (p : Play) : Play := ⟨p.thread.purged, Act.kept p.script, p.seen⟩

/-- what stands before the turn of a side: lines of the script, or messages in the queue -/
def ahead (p : Play) : Side → Nat
  | .client => p.script.length
  | .runner => p.thread.runner.queue.length

theorem purged_act (p : Play) :
    (p.act.purged = p.purged ∧ p.act.ahead .client < p.ahead .client) ∨
      p.act.purged = p.purged.act := by
  obtain ⟨t, script, seen⟩ := p
  cases script with
  | nil => exact .inr rfl
  | cons line rest =>
    have hk (hl : line.refused = false) :
        purged ⟨t, line :: rest, seen⟩ = ⟨t.purged, line :: Act.kept rest, seen⟩ := by
      rw [purged, Act.kept_of_not_refused hl]
    cases line with
    | await event =>
      right
      -- the two have told the same events
      have he : events ⟨t.purged, .await event :: Act.kept rest, seen⟩ =
          events ⟨t, .await event :: rest, seen⟩ := rfl
      rw [hk rfl]
      unfold act
      dsimp only
      rw [he]
      split
      · rfl
      · exact hk rfl
    | send message =>
      have ha : (act ⟨t, .send message :: rest, seen⟩).purged =
          ⟨⟨(t.runner.send message).purged, t.phase⟩, Act.kept rest, seen⟩ := rfl
      cases hl : message.refused with
      | true =>
        left
        have hl' : (Act.send message).refused = true := hl
        rw [ha, Runner.purged_send_of_refused hl, purged, Act.kept_of_refused hl']
        exact ⟨rfl, Nat.lt_succ_self rest.length⟩
      | false =>
        right
        rw [ha, Runner.purged_send hl, hk hl]
        rfl
    | disconnect =>
      right
      rw [hk rfl]
      rfl

theorem purged_advance (p : Play) :
    ((p.turn .runner).purged = p.purged ∧ (p.turn .runner).ahead .runner < p.ahead .runner) ∨
      (p.turn .runner).purged = p.purged.turn .runner := by
  cases he : p.ending with
  | some ending =>
    have hp : p.purged.ending = some ending := he
    rw [turn_of_ended he, turn_of_ended hp]
    exact .inr rfl
  | none =>
    have hs := Thread.step_next he
    have ho := p.thread.ofRunner_next
    rw [turn_of_running he]
    cases hm : p.thread.next.1.refused with
    | true =>
      left
      rw [purged, purged, hs.purged_of_refused hm]
      exact ⟨rfl, hs.queue_lt ho hm⟩
    | false =>
      right
      rw [turn_of_step (p := p.purged) (hs.purged hm) ho]
      rfl

/-- a turn is one of the other session as well, or nothing there and brings the side forward -/
theorem purged_turn (p : Play) (side : Side) :
    ((p.turn side).purged = p.purged ∧ (p.turn side).ahead side < p.ahead side) ∨
      (p.turn side).purged = p.purged.turn side := by
  cases side with
  | client => exact p.purged_act
  | runner => exact p.purged_advance

/-- **Every schedule has its counterpart in the session without what is refused**, which takes no
more turns. -/
theorem after_purged (p : Play) (schedule : List Side) :
    ∃ other, other.Sublist schedule ∧ (p.after schedule).purged = p.purged.after other := by
  induction schedule generalizing p with
  | nil => exact ⟨[], .slnil, rfl⟩
  | cons side schedule ih =>
    obtain ⟨other, hl, ho⟩ := ih (p.turn side)
    obtain ⟨ht, -⟩ | ht := p.purged_turn side
    · exact ⟨other, hl.cons side, ho.trans (congrArg (·.after other) ht)⟩
    · exact ⟨side :: other, hl.cons_cons side, ho.trans (congrArg (·.after other) ht)⟩

/-- the other session's turn, behind as many that are nothing there as stand before it -/
theorem exists_turn (p : Play) (side : Side) :
    ∃ schedule, (p.after schedule).purged = p.purged.turn side := by
  -- what is nothing there has been ahead of the side, and there is less and less of it
  induction h : p.ahead side using Nat.strong_induction_on generalizing p with
  | _ n ih =>
    obtain ⟨ht, hl⟩ | ht := p.purged_turn side
    · obtain ⟨schedule, hs⟩ := ih _ (h ▸ hl) (p.turn side) rfl
      exact ⟨side :: schedule, hs.trans (congrArg (·.turn side) ht)⟩
    · exact ⟨[side], ht⟩

/-- **And it has no others.** -/
theorem exists_after (p : Play) (other : List Side) :
    ∃ schedule, (p.after schedule).purged = p.purged.after other := by
  induction other generalizing p with
  | nil => exact ⟨[], rfl⟩
  | cons side other ih =>
    obtain ⟨first, hf⟩ := p.exists_turn side
    obtain ⟨rest, hr⟩ := ih (p.after first)
    refine ⟨first ++ rest, ?_⟩
    rw [after_append, hr, hf]
    rfl

end Play

/-! ## round by round -/

namespace Session

def purged (s : Session) : Session := ⟨s.runner.purged, Act.kept s.script, s.seen⟩

theorem perform_purged (runner : Runner) (seen : Nat) (script : List Act) :
    perform runner.purged seen (Act.kept script) = (perform runner seen script).purged := by
  induction script generalizing runner seen with
  | nil => rfl
  | cons line rest ih =>
    cases line with
    | await event =>
      have he : runner.purged.events = runner.events := rfl
      rw [Act.kept_of_not_refused rfl, perform, perform, he]
      split
      · exact ih _ _
      · rw [purged, Act.kept_of_not_refused rfl]
    | send message =>
      cases hl : message.refused with
      | true =>
        have hl' : (Act.send message).refused = true := hl
        rw [Act.kept_of_refused hl', perform, ← ih, Runner.purged_send_of_refused hl]
      | false =>
        have hl' : (Act.send message).refused = false := hl
        rw [Act.kept_of_not_refused hl', perform, perform, ← ih, Runner.purged_send hl]
    | disconnect => exact ih runner.disconnect seen

/-- **Round by round, nothing changes without what is refused.** -/
theorem run_purged (s : Session) (n : Nat) : s.purged.run n = (s.run n).purged := by
  induction n generalizing s with
  | zero => rfl
  | succ n ih =>
    have he : s.purged.runner.ending = s.runner.ending := rfl
    have ha : s.purged.act = s.act.purged := perform_purged s.runner s.seen s.script
    have hr : { s.purged.act with runner := s.purged.act.runner.round } =
        ({ s.act with runner := s.act.runner.round } : Session).purged := by
      rw [ha]
      exact congrArg (Session.mk · (Act.kept s.act.script) s.act.seen) s.act.runner.round_purged
    rw [run, run, he]
    cases s.runner.ending with
    | some ending => rfl
    | none =>
      dsimp only
      rw [hr, ih]

end Session

/-! ## all of it -/

namespace Scheduler

/-- **A reset replaces everything or changes nothing.**  Take any calls of a scheduler, and any
program.  If it fits, a reset succeeds: it tells that the screen is cleared and, if the speaker was
told last to play, that the tone has stopped, and leaves the scheduler that is started with the
program and the generator as it is then, with font, program and zeros in memory, so that all further
replies are those of that scheduler.  If it does not fit, the reset is refused with the length,
tells nothing and leaves the scheduler as it was.  So refused calls can be left out of any calls
and get the only replies that are missed; and refused messages out of any script: every schedule of
the one session leads where a schedule of the other does, and round by round they are the same. -/
theorem reset_total_or_refused (p : Processor) (pace : Pace) (calls : List Call)
    (program : List UInt8) :
    let s := (start p pace).after calls
    let tones := ((start p pace).history calls).filterMap Event.tone?
    (program.length ≤ 3584 →
      ∃ fresh, Processor.load program s.processor.generator = .ok fresh ∧
        (∀ address, fresh.machine.memory.byte address = Memory.image program address) ∧
        s.reset program = .ok
          ⟨.screenCleared :: (if tones.getLast? = some true then [.toneStopped] else []), none,
            start fresh pace⟩ ∧
        ∀ later, (s.call (.reset program)).scheduler.replies later =
          (start fresh pace).replies later) ∧
    (3584 < program.length →
      s.reset program = .error ⟨program.length⟩ ∧ s.call (.reset program) = ⟨[], none, s⟩) ∧
    (∀ later, s.replies (Call.kept later) = (s.replies later).filter (fun r => !r.1.refused) ∧
      s.after (Call.kept later) = s.after later) ∧
    ∀ script,
      (∀ schedule, ∃ other, ((Play.start s script).after schedule).purged =
        (Play.start s (Act.kept script)).after other) ∧
      (∀ other, ∃ schedule, ((Play.start s script).after schedule).purged =
        (Play.start s (Act.kept script)).after other) ∧
      ∀ n, ((Session.start (.ofScheduler s) script).run n).purged =
        (Session.start (.ofScheduler s) (Act.kept script)).run n := by
  intro s tones
  refine ⟨fun h => ?_, fun h => ?_, fun later => ⟨s.replies_kept later, s.after_kept later⟩,
    fun script => ⟨fun schedule => ?_, fun other => ?_, fun n => ?_⟩⟩
  · have hl : program.length ≤ Memory.maxProgramLength := h
    have hp : s.pace = pace := congrArg Scheduler.pace (after_eq _ calls)
    have ht : s.tonePlaying = true ↔ tones.getLast? = some true := by
      have hd : s.tonePlaying = tones.getLast?.getD false :=
        congrArg Scheduler.tonePlaying (after_eq _ calls)
      rw [hd]
      cases tones.getLast? with
      | none => simp
      | some playing => simp
    have hr := reset_of_fits hl s
    simp only [ht, hp] at hr
    have hf : Processor.load program s.processor.generator = .ok _ :=
      (s.processor.reset_eq program).trans (if_pos hl)
    refine ⟨_, hf, fun address => Memory.byte_ofProgram hl address, hr, fun later => ?_⟩
    rw [call_of_reset hr]
  · have hl : Memory.maxProgramLength < program.length := h
    have hc : (Call.reset program).refused = true := decide_eq_true hl
    exact ⟨reset_of_longer hl s, call_of_refused hc s⟩
  · obtain ⟨other, -, ho⟩ := (Play.start s script).after_purged schedule
    exact ⟨other, ho⟩
  · exact (Play.start s script).exists_after other
  · exact (Session.run_purged (.start (.ofScheduler s) script) n).symm

/-- sets the sound timer, so that a reset finds the tone playing -/
def sounder : Processor := .start (.ofProgram [0x60, 0x02, 0xF0, 0x18]) (.ofSeed 0)

theorem reset_total_or_refused_sounder :
    let s := (start sounder ⟨60, 1⟩).after [.runCycles 2]
    (∃ fresh, Processor.load [0x00, 0xE0] s.processor.generator = .ok fresh ∧
      fresh.machine.memory.byte 0x201 = 0xE0 ∧
      s.reset [0x00, 0xE0] =
        .ok ⟨[.screenCleared, .toneStopped], none, start fresh ⟨60, 1⟩⟩) ∧
    s.reset (List.replicate 3585 0) = .error ⟨3585⟩ := by
  have ht : ((start sounder ⟨60, 1⟩).history [.runCycles 2]).filterMap Event.tone? = [true] := by
    decide +kernel
  obtain ⟨hf, -⟩ := reset_total_or_refused sounder ⟨60, 1⟩ [.runCycles 2] [0x00, 0xE0]
  obtain ⟨fresh, hl, hb, hr, -⟩ := hf (by decide)
  obtain ⟨-, hg, -⟩ :=
    reset_total_or_refused sounder ⟨60, 1⟩ [.runCycles 2] (List.replicate 3585 0)
  have hn : (List.replicate 3585 (0 : UInt8)).length = 3585 := List.length_replicate
  rw [ht] at hr
  rw [hn] at hg
  exact ⟨⟨fresh, hl, (hb 0x201).trans (by decide), hr⟩, (hg (by decide)).1⟩

end Scheduler

end Chip8
