import Chip8.Proofs.Session.Client

/-!
# A session without idle rounds

While a key is awaited and no message is there, a runner makes rounds that change nothing.  Without
them a session has no timing: the client's next message follows on every wait, and everything else
is ticks.

* `Stage`, `Stage.next`, `Stage.after`    such a session, call by call of the scheduler;
* `told_next`, `told_of_ended`            what it tells only grows, up to its end;
* `Stage.Steady`                          a wait is a resting one, and the messages end it;
* `Stage.behind`                          the stage that a move of a runner leads to.
-/

namespace Chip8

/-! ## moves that bring a tick or a wait to its end -/

/-- behind it the runner looks into the queue, or has ended -/
def Move.pauses : Move → Bool
  | .handled _ | .stopped | .tickEnded => true
  | _ => false

theorem Thread.Step.polling {t u : Thread} {m : Move} (h : Step t m u) (hm : m.pauses = true) :
    u.phase = .polling := by
  cases h with
  | handle message rest he hp hq => rfl
  | stop he hp hq hc => rfl
  | fault left redraw fault p he hp hs => rfl
  | tick he hp => rfl
  | _ => cases hm

/-! ## stages -/

/-- between two calls of the scheduler -/
structure Stage where
  scheduler : Scheduler
  /-- all the events so far -/
  told : List Event
  /-- the messages that have not been handled -/
  messages : List Control
  ending : Option Ending

namespace Stage
variable {e : Stage}

def start (s : Scheduler) (messages : List Control) : Stage := ⟨s, [], messages, none⟩

/-- the next message during a wait, or the end if there is none, and otherwise a tick -/
def next (e : Stage) : Stage :=
  match e.ending with
  | some _ => e
  | none =>
    if e.scheduler.isWaiting then
      match e.messages with
      | [] => { e with ending := some .disconnected }
      | message :: rest =>
        let reply := e.scheduler.call message.call
        { e with scheduler := reply.scheduler, told := e.told ++ reply.events, messages := rest }
    else
      let reply := e.scheduler.runTick
      match reply.fault with
      | none => { e with scheduler := reply.scheduler, told := e.told ++ reply.events }
      | some fault =>
        { e with
          scheduler := reply.scheduler
          told := e.told ++ reply.events ++ [.stopped fault]
          ending := some (.faulted fault) }

def after (e : Stage) : Nat → Stage
  | 0 => e
  | n + 1 => e.next.after n

theorem next_of_ended {ending : Ending} (h : e.ending = some ending) : e.next = e := by
  rw [next, h]

theorem next_of_left (he : e.ending = none) (hw : e.scheduler.isWaiting = true)
    (hm : e.messages = []) : e.next = { e with ending := some .disconnected } := by
  simp only [next, he, hw, hm, if_true]

theorem next_of_message {message : Control} {rest : List Control} (he : e.ending = none)
    (hw : e.scheduler.isWaiting = true) (hm : e.messages = message :: rest) :
    e.next = ⟨(e.scheduler.call message.call).scheduler,
      e.told ++ (e.scheduler.call message.call).events, rest, none⟩ := by
  simp only [next, he, hw, hm, if_true]

theorem next_of_tick (he : e.ending = none) (hw : e.scheduler.isWaiting = false)
    (hf : e.scheduler.runTick.fault = none) :
    e.next = ⟨e.scheduler.runTick.scheduler, e.told ++ e.scheduler.runTick.events, e.messages,
      none⟩ := by
  simp only [next, he, hw, hf, Bool.false_eq_true, if_false]

theorem next_of_fault {fault : Fault} (he : e.ending = none) (hw : e.scheduler.isWaiting = false)
    (hf : e.scheduler.runTick.fault = some fault) :
    e.next = ⟨e.scheduler.runTick.scheduler,
      e.told ++ e.scheduler.runTick.events ++ [.stopped fault], e.messages,
      some (.faulted fault)⟩ := by
  simp only [next, he, hw, hf, Bool.false_eq_true, if_false]

theorem told_next (e : Stage) : e.told <+: e.next.told := by
  unfold next
  split
  · exact List.prefix_rfl
  · split
    · split
      · exact List.prefix_rfl
      · exact List.prefix_append _ _
    · dsimp only
      split
      · exact List.prefix_append _ _
      · rw [List.append_assoc]
        exact List.prefix_append _ _

/-- a tick is part of what the next stage tells -/
theorem told_tick (he : e.ending = none) (hw : e.scheduler.isWaiting = false) :
    e.told ++ e.scheduler.runTick.events <+: e.next.told := by
  cases hf : e.scheduler.runTick.fault with
  | none =>
    refine ⟨[], ?_⟩
    rw [List.append_nil, next_of_tick he hw hf]
  | some fault =>
    rw [next_of_fault he hw hf]
    exact List.prefix_append _ _

theorem messages_next {message : Control} (h : message ∈ e.next.messages) :
    message ∈ e.messages := by
  unfold next at h
  split at h
  · exact h
  · split at h
    · split at h
      · exact h
      · next hm =>
        rw [hm]
        exact List.mem_cons_of_mem _ h
    · dsimp only at h
      split at h <;> exact h

theorem after_add (e : Stage) (m n : Nat) : e.after (m + n) = (e.after m).after n := by
  induction m generalizing e with
  | zero => rw [Nat.zero_add, after]
  | succ m ih => rw [Nat.succ_add, after, after, ih]

theorem told_after (e : Stage) (n : Nat) : e.told <+: (e.after n).told := by
  induction n generalizing e with
  | zero => exact List.prefix_rfl
  | succ n ih => exact e.told_next.trans (ih e.next)

theorem after_of_ended {ending : Ending} (h : e.ending = some ending) (n : Nat) :
    e.after n = e := by
  induction n with
  | zero => rfl
  | succ n ih => rw [after, next_of_ended h, ih]

theorem after_succ (e : Stage) (n : Nat) : e.after (n + 1) = (e.after n).next := e.after_add n 1

/-- behind an end nothing more is told, and before it nothing else -/
theorem told_of_ended {n : Nat} {ending : Ending} (h : (e.after n).ending = some ending) (k : Nat) :
    (e.after k).told <+: (e.after n).told := by
  have hk := (e.after k).told_after n
  rw [← after_add, Nat.add_comm, after_add, after_of_ended h] at hk
  exact hk

/-- two beginnings of what is told are beginnings of one another -/
theorem comparable {a b : List Event} {m n : Nat} (ha : a <+: (e.after m).told)
    (hb : b <+: (e.after n).told) : a <+: b ∨ b <+: a := by
  have hm := (e.after m).told_after n
  have hn := (e.after n).told_after m
  rw [← after_add] at hm hn
  rw [Nat.add_comm] at hn
  exact List.prefix_or_prefix_of_prefix (ha.trans hm) (hb.trans hn)

/-- there is one end -/
theorem after_eq_of_ended {m n : Nat} {a b : Ending} (hm : (e.after m).ending = some a)
    (hn : (e.after n).ending = some b) : e.after m = e.after n := by
  rw [← after_of_ended hm n, ← after_add, Nat.add_comm, after_add, after_of_ended hn]

/-! ## steady stages -/

/-- waits are resting ones, and the messages end them -/
structure Steady (e : Stage) : Prop where
  resting (he : e.ending = none) (hw : e.scheduler.isWaiting = true) : e.scheduler.Resting
  ends (message : Control) (hm : message ∈ e.messages) : message.endsWait = true

theorem Steady.running_of_fault {fault : Fault} (h : e.Steady) (he : e.ending = none)
    (hf : e.scheduler.runTick.fault = some fault) : e.scheduler.isWaiting = false := by
  cases hw : e.scheduler.isWaiting with
  | false => rfl
  | true =>
    rw [(h.resting he hw).runTick] at hf
    cases hf

/-- behind an end all stages are the same -/
theorem Steady.of_ended {n : Nat} {ending : Ending} (hq : ∀ k ≤ n, (e.after k).Steady)
    (h : (e.after n).ending = some ending) (k : Nat) : (e.after k).Steady := by
  obtain hk | hk := Nat.le_total k n
  · exact hq k hk
  · obtain ⟨d, rfl⟩ := Nat.exists_eq_add_of_le hk
    rw [after_add, after_of_ended h]
    exact hq n (Nat.le_refl n)

/-! ## stages against moves -/

/-- the stage behind a move of the runner; an idle round leads back to where it was begun -/
def behind (e : Stage) : Move → Stage
  | .handled _ | .stopped => e.next
  | .tickEnded => if e.scheduler.isWaiting then e else e.next
  | _ => e

theorem behind_cases (e : Stage) (m : Move) :
    e.behind m = e ∨ m.pauses = true ∧ e.behind m = e.next := by
  cases m with
  | handled message => exact .inr ⟨rfl, rfl⟩
  | stopped => exact .inr ⟨rfl, rfl⟩
  | tickEnded =>
    cases hw : e.scheduler.isWaiting with
    | true => exact .inl (if_pos hw)
    | false => exact .inr ⟨rfl, if_neg (by simp [hw])⟩
  | _ => exact .inl rfl

theorem behind_of_idle (h : e.scheduler.isWaiting = true) : e.behind .tickEnded = e := if_pos h

theorem behind_of_tick (h : e.scheduler.isWaiting = false) : e.behind .tickEnded = e.next :=
  if_neg (by simp [h])

end Stage

end Chip8
