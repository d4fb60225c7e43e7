import Chip8.Proofs.Scheduler.Call
import Chip8.Runner

/-!
# The runner on a thread of its own

A runner shares nothing with its client but the queue, so it is enough to say between which of its
moves the client can send: before it looks into the queue, and inside of a tick before every
instruction, before the screen is shown and before the timers tick.

* `Phase`, `Thread`        where a runner stands between two moves;
* `Thread.Step`            one move of the client or of the runner, `Thread.Run` any number of them;
* `Thread.next`            the next move of the runner, which is the only one it has: `step_iff`;
* `Thread.move?`           what a move leads to, if it can happen, and `Thread.after?` for any
                           number of them: `run_iff`;
* `Control.call`           a message as a call of the scheduler: `handle_eq_absorb`.
-/

namespace Chip8
open Scheduler (Batch)

/-- a message is a call of the scheduler -/
def Control.call : Control → Scheduler.Call
  | .key k pressed => .key k pressed
  | .reset program => .reset program

/-- where a runner stands between two of its moves -/
inductive Phase
  /-- about to look into the queue -/
  | polling
  /-- in a batch: so many instructions are left, and whether the screen is to be shown -/
  | executing (left : Nat) (redraw : Bool)
  /-- behind a batch, the timers are to tick -/
  | ticking
  deriving DecidableEq, Repr

structure Thread where
  runner : Runner
  phase : Phase

/-- a move of the client or of the runner -/
inductive Move
  | sent (message : Control)
  | hungUp
  | handled (message : Control)
  | tickBegun
  /-- an instruction, or the end of a batch -/
  | worked
  | tickEnded
  /-- the end, with nobody left to send anything -/
  | stopped
  deriving DecidableEq, Repr

/-- whose move it is -/
def Move.ofRunner : Move → Bool
  | .sent _ | .hungUp => false
  | _ => true

namespace Runner

/-- nobody is there to send anything or to hang up -/
theorem send_of_gone {r : Runner} (h : r.connected = false) (message : Control) :
    r.send message = r := by
  rw [send, h]
  rfl

theorem disconnect_of_gone {r : Runner} (h : r.connected = false) : r.disconnect = r := by
  rw [disconnect, ← h]

/-- the batch a runner is in -/
def batch (r : Runner) (redraw : Bool) : Batch := ⟨r.scheduler, r.events, redraw⟩

/-- behind an instruction of the batch -/
def record (r : Runner) (redraw : Bool) (i : Instruction) (p : Processor) : Runner :=
  let b := (r.batch redraw).record i p
  { r with scheduler := b.scheduler, events := b.events }

theorem record_eq (r : Runner) (redraw : Bool) (i : Instruction) (p : Processor) :
    r.record redraw i p =
      { r with
        scheduler := ⟨p, r.scheduler.pace, p.sounds⟩
        events := r.events.appendList
          (Scheduler.eventsOf i ++ Scheduler.toneChange r.scheduler.tonePlaying p.sounds) } := by
  simp only [record, Batch.record_eq, batch]

/-- shows the screen behind a batch, if it is to be shown -/
def close (r : Runner) (redraw : Bool) : Runner :=
  let shown := Scheduler.picture redraw r.scheduler.processor.machine.screen
  { r with events := r.events.appendList shown }

/-- behind an instruction that has left this processor and a fault: the screen is still shown -/
def fail (r : Runner) (redraw : Bool) (fault : Fault) (p : Processor) : Runner :=
  let closed := { r with scheduler := { r.scheduler with processor := p } }.close redraw
  { closed with events := closed.events.push (.stopped fault), ending := some (.faulted fault) }

end Runner

namespace Thread

def start (s : Scheduler) : Thread := ⟨Runner.ofScheduler s, .polling⟩

/-! ## moves -/

/-- what can happen next, and what is then -/
inductive Step (t : Thread) : Move → Thread → Prop
  | send (message : Control) (hc : t.runner.connected = true) :
      Step t (.sent message) { t with runner := t.runner.send message }
  | hangUp (hc : t.runner.connected = true) :
      Step t .hungUp { t with runner := t.runner.disconnect }
  | handle (message : Control) (rest : List Control) (he : t.runner.ending = none)
      (hp : t.phase = .polling) (hq : t.runner.queue = message :: rest) :
      Step t (.handled message) ⟨{ t.runner with queue := rest }.handle message, .polling⟩
  | begin (he : t.runner.ending = none) (hp : t.phase = .polling) (hq : t.runner.queue = [])
      (hc : t.runner.connected = true) :
      Step t .tickBegun ⟨t.runner, .executing t.runner.scheduler.batchSize false⟩
  | stop (he : t.runner.ending = none) (hp : t.phase = .polling) (hq : t.runner.queue = [])
      (hc : t.runner.connected = false) :
      Step t .stopped ⟨{ t.runner with ending := some .disconnected }, .polling⟩
  | execute (left : Nat) (redraw : Bool) (i : Instruction) (p : Processor)
      (he : t.runner.ending = none) (hp : t.phase = .executing (left + 1) redraw)
      (hs : t.runner.scheduler.processor.step = (.executed i, p)) :
      Step t .worked
        ⟨t.runner.record redraw i p, .executing left (redraw || Scheduler.redraws i)⟩
  | close (left : Nat) (redraw : Bool) (he : t.runner.ending = none)
      (hp : t.phase = .executing left redraw)
      (hs : left = 0 ∨ ∃ p, t.runner.scheduler.processor.step = (.waiting, p)) :
      Step t .worked ⟨t.runner.close redraw, .ticking⟩
  | fault (left : Nat) (redraw : Bool) (fault : Fault) (p : Processor)
      (he : t.runner.ending = none) (hp : t.phase = .executing (left + 1) redraw)
      (hs : t.runner.scheduler.processor.step = (.faulted fault, p)) :
      Step t .tickEnded ⟨t.runner.fail redraw fault p, .polling⟩
  | tick (he : t.runner.ending = none) (hp : t.phase = .ticking) :
      Step t .tickEnded ⟨t.runner.absorb t.runner.scheduler.tickTimers, .polling⟩

/-- any number of moves -/
inductive Run (t : Thread) : List Move → Thread → Prop
  | nil : Run t [] t
  | snoc {moves : List Move} {u v : Thread} {m : Move} (h : Run t moves u) (hs : Step u m v) :
      Run t (moves ++ [m]) v

/-! ## the runner's own moves -/

variable {t u v : Thread} {m : Move}

/-- handles the oldest message; with none in the queue, begins a tick or ends -/
def poll (r : Runner) : Move × Thread :=
  match r.queue with
  | message :: rest => (.handled message, ⟨{ r with queue := rest }.handle message, .polling⟩)
  | [] =>
    if r.connected then (.tickBegun, ⟨r, .executing r.scheduler.batchSize false⟩)
    else (.stopped, ⟨{ r with ending := some .disconnected }, .polling⟩)

/-- the next instruction of a batch, or the end of the batch -/
def execute (r : Runner) (redraw : Bool) : Nat → Move × Thread
  | 0 => (.worked, ⟨r.close redraw, .ticking⟩)
  | left + 1 =>
    match r.scheduler.processor.step with
    | (.executed i, p) =>
      (.worked, ⟨r.record redraw i p, .executing left (redraw || Scheduler.redraws i)⟩)
    | (.waiting, _) => (.worked, ⟨r.close redraw, .ticking⟩)
    | (.faulted fault, p) => (.tickEnded, ⟨r.fail redraw fault p, .polling⟩)

/-- the next move of a runner that has not ended, and what it leads to -/
def next (t : Thread) : Move × Thread :=
  match t.phase with
  | .polling => poll t.runner
  | .executing left redraw => execute t.runner redraw left
  | .ticking => (.tickEnded, ⟨t.runner.absorb t.runner.scheduler.tickTimers, .polling⟩)

/-- the thread behind the next move of the runner, if it has not ended -/
def advance (t : Thread) : Thread :=
  match t.runner.ending with
  | none => t.next.2
  | some _ => t

theorem advance_of_running (h : t.runner.ending = none) : t.advance = t.next.2 := by
  rw [advance, h]

theorem advance_of_ended {ending : Ending} (h : t.runner.ending = some ending) :
    t.advance = t := by
  rw [advance, h]

theorem step_poll (he : t.runner.ending = none) (hp : t.phase = .polling) :
    Step t (poll t.runner).1 (poll t.runner).2 := by
  unfold poll
  split
  · next message rest hq => exact .handle message rest he hp hq
  · next hq =>
    split
    · next hc => exact .begin he hp hq hc
    · next hc => exact .stop he hp hq (by simpa using hc)

theorem step_execute {left : Nat} {redraw : Bool} (he : t.runner.ending = none)
    (hp : t.phase = .executing left redraw) :
    Step t (execute t.runner redraw left).1 (execute t.runner redraw left).2 := by
  cases left with
  | zero => exact .close 0 redraw he hp (.inl rfl)
  | succ left =>
    cases hs : t.runner.scheduler.processor.step with
    | mk outcome p =>
      rw [execute, hs]
      cases outcome with
      | executed i => exact .execute left redraw i p he hp hs
      | waiting => exact .close (left + 1) redraw he hp (.inr ⟨p, hs⟩)
      | faulted fault => exact .fault left redraw fault p he hp hs

/-- a runner that has not ended has a move -/
theorem step_next (he : t.runner.ending = none) : Step t t.next.1 t.next.2 := by
  unfold next
  cases hp : t.phase with
  | polling => exact step_poll he hp
  | executing left redraw => exact step_execute he hp
  | ticking => exact .tick he hp

theorem ofRunner_next (t : Thread) : t.next.1.ofRunner = true := by
  unfold next
  split
  · unfold poll
    split
    · rfl
    · split <;> rfl
  · unfold execute
    split
    · rfl
    · split <;> rfl
  · rfl

/-- and it has no other one -/
theorem Step.eq_next (h : Step t m u) (hm : m.ofRunner = true) :
    t.next = (m, u) := by
  unfold next
  cases h with
  | send message hc => cases hm
  | hangUp hc => cases hm
  | handle message rest he hp hq =>
    rw [hp]
    simp only [poll, hq]
  | begin he hp hq hc =>
    rw [hp]
    simp only [poll, hq, if_pos hc]
  | stop he hp hq hc =>
    rw [hp]
    simp [poll, hq, hc]
  | execute left redraw i p he hp hs =>
    rw [hp]
    simp only [Thread.execute, hs]
  | close left redraw he hp hs =>
    rw [hp]
    obtain rfl | ⟨p, hs⟩ := hs
    · rfl
    · cases left with
      | zero => rfl
      | succ left => simp only [Thread.execute, hs]
  | fault left redraw fault p he hp hs =>
    rw [hp]
    simp only [Thread.execute, hs]
  | tick he hp => rw [hp]

/-- a runner that has ended has none -/
theorem Step.ending (h : Step t m u) (hm : m.ofRunner = true) :
    t.runner.ending = none := by
  cases h with
  | send message hc => cases hm
  | hangUp hc => cases hm
  | _ => assumption

/-- **Up to its end a runner has one move at a time**, and behind it none. -/
theorem step_iff (hm : m.ofRunner = true) :
    Step t m u ↔ t.runner.ending = none ∧ t.next = (m, u) := by
  constructor
  · intro h
    exact ⟨h.ending hm, h.eq_next hm⟩
  · intro h
    have hs := step_next h.1
    rw [h.2] at hs
    exact hs

/-! ## moves as a function -/

/-- what a move leads to, if it can happen -/
def move? (t : Thread) (m : Move) : Option Thread :=
  match m with
  | .sent message =>
    if t.runner.connected then some { t with runner := t.runner.send message } else none
  | .hungUp => if t.runner.connected then some { t with runner := t.runner.disconnect } else none
  | own => if t.runner.ending = none ∧ t.next.1 = own then some t.next.2 else none

/-- what the moves lead to, if they can happen one after the other -/
def after? (t : Thread) : List Move → Option Thread
  | [] => some t
  | m :: moves => (t.move? m).bind (·.after? moves)

theorem after?_append (t : Thread) (a b : List Move) :
    t.after? (a ++ b) = (t.after? a).bind (·.after? b) := by
  induction a generalizing t with
  | nil => rfl
  | cons m a ih =>
    rw [List.cons_append, after?, after?, Option.bind_assoc]
    exact congrArg (Option.bind _) (funext ih)

theorem move?_own (hm : m.ofRunner = true) :
    t.move? m = if t.runner.ending = none ∧ t.next.1 = m then some t.next.2 else none := by
  cases m with
  | sent message => cases hm
  | hungUp => cases hm
  | _ => rfl

theorem Step.move? (h : Step t m u) : t.move? m = some u := by
  cases hm : m.ofRunner with
  | true => rw [move?_own hm, if_pos ⟨h.ending hm, by rw [h.eq_next hm]⟩, h.eq_next hm]
  | false =>
    cases h with
    | send message hc => exact if_pos hc
    | hangUp hc => exact if_pos hc
    | _ => cases hm

theorem step_of_move? (h : t.move? m = some u) : Step t m u := by
  cases hm : m.ofRunner with
  | true =>
    rw [move?_own hm] at h
    obtain ⟨⟨he, rfl⟩, hu⟩ := Option.ite_none_right_eq_some.mp h
    cases hu
    exact step_next he
  | false =>
    cases m with
    | sent message =>
      obtain ⟨hc, hu⟩ := Option.ite_none_right_eq_some.mp h
      cases hu
      exact .send message hc
    | hungUp =>
      obtain ⟨hc, hu⟩ := Option.ite_none_right_eq_some.mp h
      cases hu
      exact .hangUp hc
    | _ => cases hm

theorem Run.append {a b : List Move} (ha : Run t a u) (hb : Run u b v) :
    Run t (a ++ b) v := by
  induction hb with
  | nil =>
    rw [List.append_nil]
    exact ha
  | snoc _ hs ih =>
    rw [← List.append_assoc]
    exact ih.snoc hs

theorem Run.cons {moves : List Move} (hs : Step t m u)
    (h : Run u moves v) : Run t (m :: moves) v := (Run.nil.snoc hs).append h

/-- **What a run leads to is a function of its moves.** -/
theorem run_iff {moves : List Move} : Run t moves u ↔ t.after? moves = some u := by
  constructor
  · intro h
    induction h with
    | nil => rfl
    | snoc h hs ih => rw [after?_append, ih, Option.bind_some, after?, hs.move?]; rfl
  · intro h
    induction moves generalizing t with
    | nil =>
      cases h
      exact .nil
    | cons m moves ih =>
      obtain ⟨v, hm, hv⟩ := Option.bind_eq_some_iff.mp h
      exact .cons (step_of_move? hm) (ih hv)

end Thread

/-! ## messages as calls -/

namespace Runner

theorem toList_absorb (r : Runner) (reply : Reply) :
    (r.absorb reply).events.toList = r.events.toList ++ reply.events := by
  simp [absorb]

theorem handle_eq_absorb (r : Runner) (message : Control) :
    r.handle message = r.absorb (r.scheduler.call message.call) := by
  cases message with
  | key k pressed => simp [handle, absorb, Control.call, Scheduler.call]
  | reset program =>
    simp only [handle, Control.call, Scheduler.call]
    cases r.scheduler.reset program with
    | ok reply => rfl
    | error refusal => simp [absorb]

theorem queue_handle (r : Runner) (message : Control) : (r.handle message).queue = r.queue := by
  rw [handle_eq_absorb]
  rfl

theorem connected_handle (r : Runner) (message : Control) :
    (r.handle message).connected = r.connected := by
  rw [handle_eq_absorb]
  rfl

theorem ending_handle (r : Runner) (message : Control) :
    (r.handle message).ending = r.ending := by
  rw [handle_eq_absorb]
  rfl

end Runner

end Chip8
