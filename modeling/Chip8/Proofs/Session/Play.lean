import Chip8.Proofs.Runner.Round
import Chip8.Session

/-!
# A session, turn by turn

In a session the client follows its script beside a runner on a thread of its own.  A schedule says
whose turn it is: the runner makes a move, or the client goes on by one line of its script, if it is
not waiting for an event that has not been told.  Every interleaving of the two is a schedule, the
one of the rounds of a `Session` as well.

* `Play`, `Play.turn`, `Play.after`    a session behind a schedule;
* `run_turn`, `run_after`              the thread has made a run;
* `after_rounds`                       a session that goes round by round follows a schedule.
-/

namespace Chip8

inductive Side
  | client
  | runner
  deriving DecidableEq, Repr

structure Play where
  thread : Thread
  script : List Act
  /-- the number of events the client has read -/
  seen : Nat

namespace Play

def start (s : Scheduler) (script : List Act) : Play := ⟨Thread.start s, script, 0⟩

/-! ## what there is to be seen of it -/

def events (p : Play) : List Event := p.thread.runner.events.toList

def ending (p : Play) : Option Ending := p.thread.runner.ending

def scheduler (p : Play) : Scheduler := p.thread.runner.scheduler

/-! ## turns -/

/-- one line of the script -/
def act (p : Play) : Play :=
  match p.script with
  | [] => p
  | .await event :: rest =>
    match (p.events.drop p.seen).idxOf? event with
    | some place => { p with script := rest, seen := p.seen + place + 1 }
    | none => p
  | .send message :: rest =>
    { p with thread := { p.thread with runner := p.thread.runner.send message }, script := rest }
  | .disconnect :: rest =>
    { p with thread := { p.thread with runner := p.thread.runner.disconnect }, script := rest }

def turn (p : Play) : Side → Play
  | .client => p.act
  | .runner => { p with thread := p.thread.advance }

def after (p : Play) : List Side → Play
  | [] => p
  | side :: schedule => (p.turn side).after schedule

theorem after_append (p : Play) (a b : List Side) : p.after (a ++ b) = (p.after a).after b := by
  induction a generalizing p with
  | nil => rfl
  | cons side a ih => exact ih (p.turn side)

theorem turn_of_running {p : Play} (h : p.ending = none) :
    p.turn .runner = { p with thread := p.thread.next.2 } := by
  rw [turn, Thread.advance_of_running h]

theorem turn_of_ended {p : Play} {e : Ending} (h : p.ending = some e) : p.turn .runner = p := by
  rw [turn, Thread.advance_of_ended h]

theorem turn_of_step {p : Play} {m : Move} {u : Thread} (h : Thread.Step p.thread m u)
    (hm : m.ofRunner = true) : p.turn .runner = { p with thread := u } := by
  rw [turn_of_running (h.ending hm), h.eq_next hm]

/-- so many turns of the runner in a row -/
theorem after_replicate_runner (p : Play) (n : Nat) :
    p.after (List.replicate n .runner) = { p with thread := p.thread.advances n } := by
  induction n generalizing p with
  | zero => rfl
  | succ n ih => rw [List.replicate_succ, after, ih, turn, Thread.advances]

/-! ## the thread -/

/-- in a turn the thread makes a move, or none -/
theorem run_turn (p : Play) (side : Side) :
    ∃ moves, Thread.Run p.thread moves (p.turn side).thread := by
  cases side with
  | runner =>
    obtain ⟨moves, -, hr⟩ := Thread.run_advances p.thread 1
    exact ⟨moves, hr⟩
  | client =>
    unfold turn act
    dsimp only
    split
    · exact ⟨[], .nil⟩
    · split <;> exact ⟨[], .nil⟩
    · next message rest hs =>
      cases hc : p.thread.runner.connected with
      | true => exact ⟨_, .snoc .nil (.send message hc)⟩
      | false =>
        rw [Runner.send_of_gone hc]
        exact ⟨[], .nil⟩
    · next rest hs =>
      cases hc : p.thread.runner.connected with
      | true => exact ⟨_, .snoc .nil (.hangUp hc)⟩
      | false =>
        rw [Runner.disconnect_of_gone hc]
        exact ⟨[], .nil⟩

/-- **Whatever the schedule, the thread has made a run.** -/
theorem run_after (p : Play) (schedule : List Side) :
    ∃ moves, Thread.Run p.thread moves (p.after schedule).thread := by
  induction schedule generalizing p with
  | nil => exact ⟨[], .nil⟩
  | cons side schedule ih =>
    obtain ⟨first, hf⟩ := p.run_turn side
    obtain ⟨rest, hr⟩ := ih (p.turn side)
    exact ⟨first ++ rest, hf.append hr⟩

/-! ## sessions that go round by round -/

def ofSession (s : Session) : Play := ⟨⟨s.runner, .polling⟩, s.script, s.seen⟩

/-- what the client does between two rounds takes it some turns -/
theorem after_perform (runner : Runner) (seen : Nat) (script : List Act) :
    ∃ schedule, (ofSession ⟨runner, script, seen⟩).after schedule =
      ofSession (Session.perform runner seen script) := by
  induction script generalizing runner seen with
  | nil => exact ⟨[], rfl⟩
  | cons line rest ih =>
    cases line with
    | await event =>
      unfold Session.perform
      split
      · next place hp =>
        obtain ⟨schedule, hs⟩ := ih runner (seen + place + 1)
        refine ⟨.client :: schedule, ?_⟩
        rw [after, ← hs]
        simp only [turn, act, ofSession, events, hp]
      · exact ⟨[], rfl⟩
    | send message =>
      obtain ⟨schedule, hs⟩ := ih (runner.send message) seen
      exact ⟨.client :: schedule, hs⟩
    | disconnect =>
      obtain ⟨schedule, hs⟩ := ih runner.disconnect seen
      exact ⟨.client :: schedule, hs⟩

/-- **A session that goes round by round follows a schedule.** -/
theorem after_rounds (s : Session) (n : Nat) :
    ∃ schedule, (ofSession s).after schedule = ofSession (s.run n) := by
  induction n generalizing s with
  | zero => exact ⟨[], rfl⟩
  | succ n ih =>
    rw [Session.run]
    cases he : s.runner.ending with
    | some ending => exact ⟨[], rfl⟩
    | none =>
      obtain ⟨own, ho⟩ := after_perform s.runner s.seen s.script
      obtain ⟨k, hk⟩ := Thread.advances_round s.act.runner
      obtain ⟨rest, hr⟩ := ih { s.act with runner := s.act.runner.round }
      refine ⟨own ++ (List.replicate k .runner ++ rest), ?_⟩
      rw [after_append, ho, after_append, after_replicate_runner]
      have ha : ({ ofSession s.act with thread := (ofSession s.act).thread.advances k } : Play) =
          ofSession { s.act with runner := s.act.runner.round } := by
        rw [ofSession, ofSession, hk]
      exact (congrArg (·.after rest) ha).trans hr

end Play

end Chip8
