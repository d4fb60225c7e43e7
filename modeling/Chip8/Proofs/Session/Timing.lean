import Chip8.Proofs.Session.Stage

/-!
# The timing of a session does not matter

The runner may make any number of idle rounds before it finds a message, and the client may send it
while the tick is still under way in which the wait has begun.  Whatever the schedule, the session
is always somewhere between two stages of the session without idle rounds: a turn leaves it there or
leads to the next one.

* `Play.At`                     between a stage and the next one;
* `At.step`, `At.turn`          moves and turns lead from stage to stage;
* `CalmWaits`, `At.along`       if waits begin with the timers off, all the stages are steady;
* `At.exists_next`              no schedule is stuck;
* `timing_independent`          what two schedules have in common.
-/

namespace Chip8

/-! ## sessions against stages -/

/-- the session has got so far, and not yet to the next stage -/
inductive Play.At (p : Play) (e : Stage) : Prop
  | live (he : e.ending = none) (hp : p.ending = none)
      (hr : p.thread.Reached e.scheduler e.told) (hc : p.Client e.messages)
  | ended (ending : Ending) (he : e.ending = some ending) (hp : p.ending = some ending)
      (hs : p.scheduler = e.scheduler) (ht : p.events = e.told)

namespace Play
variable {p : Play} {e : Stage}

theorem at_start {s : Scheduler} (h : s.isWaiting = false) (messages : List Control) :
    (start s (answering messages)).At (Stage.start s messages) :=
  .live rfl rfl ⟨rfl, rfl⟩
    ⟨Nat.le_refl 0, .listening messages rfl rfl rfl (congrArg Bool.toNat h).symm⟩

theorem At.ending_eq (h : p.At e) : p.ending = e.ending := by
  cases h with
  | live he hp hr hc => rw [hp, he]
  | ended ending he hp hs ht => rw [hp, he]

theorem At.act (h : p.At e) : p.act.At e := by
  obtain ⟨queue, connected, ha⟩ := p.act_thread
  cases h with
  | live he hp hr hc =>
    refine .live he ?_ ?_ hc.act
    · rw [ending, ha]
      exact hp
    · rw [ha]
      exact hr
  | ended ending he hp hs ht =>
    refine .ended ending he ?_ ?_ ?_
    · rw [Play.ending, ha]
      exact hp
    · rw [scheduler, ha]
      exact hs
    · rw [events, ha]
      exact ht

/-- **A move of the runner leads to the stage behind it.** -/
theorem At.step (h : p.At e) (hq : e.Steady) {m : Move} {u : Thread}
    (hs : Thread.Step p.thread m u) (ho : m.ofRunner = true) :
    ({ p with thread := u } : Play).At (e.behind m) := by
  cases h with
  | ended ending he hp _ _ =>
    have hn : p.ending = none := hs.ending ho
    rw [hp] at hn
    cases hn
  | live he hp hr hc =>
    have hm : m.handled? = none → ({ p with thread := u } : Play).Client e.messages := hc.step hs ho
    cases hs with
    | send message _ => cases ho
    | hangUp _ => cases ho
    | handle message rest _ hpoll hqueue =>
      obtain ⟨hw, left, hleft, hnew⟩ := hc.handled hqueue hq.ends
      rw [waiting, scheduler, (hr.of_polling hpoll).1] at hw
      have hn : ({ p.thread.runner with queue := rest }.handle message).ending = none := by
        rw [Runner.ending_handle]
        exact hp
      show At _ e.next
      rw [Stage.next_of_message he hw hleft]
      exact .live rfl hn (hr.handled message rest hpoll) hnew.2
    | begin _ hpoll hqueue hconn => exact .live he hp (hr.begun hpoll) (hm rfl)
    | stop _ hpoll hqueue hconn =>
      obtain ⟨hw, hleft⟩ := hc.hungUp hconn
      obtain ⟨hs, ht⟩ := hr.of_polling hpoll
      rw [waiting, scheduler, hs] at hw
      show At _ e.next
      rw [Stage.next_of_left he hw hleft]
      exact .ended .disconnected rfl rfl hs ht
    | execute left redraw i q _ hphase hstep =>
      exact .live he hp (hr.executed hphase hstep) (hm rfl)
    | close left redraw _ hphase hstep =>
      exact .live he hp (hr.closed hphase hstep) (hm rfl)
    | fault left redraw fault q _ hphase hstep =>
      obtain ⟨hf, hs, ht⟩ := hr.faulted hphase hstep
      have hw : e.scheduler.isWaiting = false := hq.running_of_fault he hf
      rw [Stage.behind_of_tick hw, Stage.next_of_fault he hw hf]
      exact .ended (.faulted fault) rfl rfl hs ht
    | tick _ hphase =>
      obtain ⟨hf, hnew⟩ := hr.ticked hphase
      cases hw : e.scheduler.isWaiting with
      | true =>
        rw [Stage.behind_of_idle hw]
        rw [(hq.resting he hw).runTick, List.append_nil] at hnew
        exact .live he hp hnew (hm rfl)
      | false =>
        rw [Stage.behind_of_tick hw, Stage.next_of_tick he hw hf]
        exact .live rfl hp hnew (hm rfl)

/-- a message that is handled ends a wait -/
theorem At.listens (h : p.At e) (hq : e.Steady) {message : Control} {u : Thread}
    (hs : Thread.Step p.thread (.handled message) u) : waiting { p with thread := u } = false := by
  cases hs with
  | handle _ rest he hp hqueue =>
    cases h with
    | ended ending _ hn _ _ =>
      rw [Play.ending, he] at hn
      cases hn
    | live _ _ hr hc =>
      obtain ⟨-, left, -, hw, -⟩ := hc.handled hqueue hq.ends
      exact hw

theorem At.turn (h : p.At e) (hq : e.Steady) (side : Side) :
    (p.turn side).At e ∨ (p.turn side).At e.next ∧ (p.turn side).thread.phase = .polling := by
  cases side with
  | client => exact .inl h.act
  | runner =>
    cases hp : p.ending with
    | some ending =>
      rw [turn_of_ended hp]
      exact .inl h
    | none =>
      have hs := Thread.step_next hp
      have hn := h.step hq hs (Thread.ofRunner_next _)
      rw [turn_of_running hp]
      obtain hb | ⟨hm, hb⟩ := e.behind_cases p.thread.next.1
      · rw [hb] at hn
        exact .inl hn
      · rw [hb] at hn
        exact .inr ⟨hn, hs.polling hm⟩

/-! ## calm waits -/

/-- whenever a wait begins in the course of the schedule, both timers are off -/
def CalmWaits (p : Play) : List Side → Prop
  | [] => True
  | side :: schedule =>
    (p.waiting = false → (p.turn side).waiting = true →
      (p.turn side).scheduler.timersOff = true) ∧ (p.turn side).CalmWaits schedule

instance decidableCalmWaits (p : Play) : (schedule : List Side) → Decidable (p.CalmWaits schedule)
  | [] => isTrue trivial
  | side :: schedule =>
    have := decidableCalmWaits (p.turn side) schedule
    inferInstanceAs (Decidable ((_ → _ → _) ∧ _))

/-- if there is a wait, nothing else is going on -/
def Rests (p : Play) : Prop := p.waiting = true → p.scheduler.Resting

theorem Rests.turn (hr : p.Rests) (h : p.At e) (hq : e.Steady) {side : Side}
    (hb : p.waiting = false → (p.turn side).waiting = true →
      (p.turn side).scheduler.timersOff = true) : (p.turn side).Rests := by
  cases side with
  | client =>
    obtain ⟨queue, connected, ha⟩ := p.act_thread
    intro hw
    rw [Play.turn, waiting, scheduler, ha] at hw
    rw [Play.turn, scheduler, ha]
    exact hr hw
  | runner =>
    cases hp : p.ending with
    | some ending =>
      rw [turn_of_ended hp]
      exact hr
    | none =>
      have hs := Thread.step_next hp
      rw [turn_of_running hp] at hb ⊢
      cases hm : p.thread.next.1 with
      | handled message =>
        intro hw
        rw [hm] at hs
        have hn : waiting { p with thread := p.thread.next.2 } = false := h.listens hq hs
        rw [hn] at hw
        cases hw
      | _ => exact fun hw => hs.resting (by rw [hm]; rfl) hr hb hw

theorem At.steady_next (h : p.At e.next) (hq : e.Steady) (hr : p.Rests)
    (hp : p.thread.phase = .polling) : e.next.Steady where
  ends message hm := hq.ends message (Stage.messages_next hm)
  resting he hw := by
    cases h with
    | ended ending hn _ _ _ =>
      rw [he] at hn
      cases hn
    | live _ _ hre _ =>
      obtain ⟨hs, -⟩ := hre.of_polling hp
      rw [← hs] at hw ⊢
      exact hr hw

/-! ## whole schedules -/

/-- **A schedule in which waits begin with the timers off passes through steady stages only.** -/
theorem At.along {schedule : List Side} (h : p.At e) (hq : e.Steady) (hr : p.Rests)
    (hc : p.CalmWaits schedule) :
    ∃ n, (∀ k ≤ n, (e.after k).Steady) ∧ (p.after schedule).At (e.after n) := by
  induction schedule generalizing p e with
  | nil => exact ⟨0, fun k hk => by rw [Nat.le_zero.mp hk]; exact hq, h⟩
  | cons side schedule ih =>
    have hr' := hr.turn h hq hc.1
    obtain ht | ⟨ht, hp⟩ := h.turn hq side
    · exact ih ht hq hr' hc.2
    · obtain ⟨n, hn, ha⟩ := ih ht (ht.steady_next hq hr' hp) hr' hc.2
      refine ⟨n + 1, fun k hk => ?_, ha⟩
      cases k with
      | zero => exact hq
      | succ k => exact hn k (Nat.le_of_succ_le_succ hk)

/-- where all stages are steady, any schedule leads to one of them -/
theorem At.exists_after (h : p.At e) (schedule : List Side) (hq : ∀ k, (e.after k).Steady) :
    ∃ n, (p.after schedule).At (e.after n) := by
  induction schedule generalizing p e with
  | nil => exact ⟨0, h⟩
  | cons side schedule ih =>
    obtain ht | ⟨ht, -⟩ := h.turn (hq 0) side
    · exact ih ht hq
    · obtain ⟨n, hn⟩ := ih ht fun k => hq (k + 1)
      exact ⟨n + 1, hn⟩

/-- nothing has been told that the stages do not tell -/
theorem At.events_prefix (h : p.At e) (hq : e.Steady) : p.events <+: e.next.told := by
  cases h with
  | ended ending _ _ _ ht =>
    rw [ht]
    exact e.told_next
  | live he _ hr _ =>
    obtain ⟨part, hp, ht⟩ := hr.events
    rw [events, ht]
    cases hw : e.scheduler.isWaiting with
    | true =>
      rw [(hq.resting he hw).runTick] at hp
      rw [List.prefix_nil.mp hp, List.append_nil]
      exact e.told_next
    | false =>
      exact ((List.prefix_append_right_inj e.told).mpr hp).trans (Stage.told_tick he hw)

/-! ## getting on -/

/-- a move of the runner inside of a batch goes on, or ends the batch, or the tick -/
theorem At.inside (h : p.At e) (hq : e.Steady) (hp : p.ending = none) {left : Nat} {redraw : Bool}
    (hl : p.thread.phase = .executing left redraw) :
    let q := p.turn .runner
    q.At (e.behind .tickEnded) ∧ q.thread.phase = .polling ∨
      q.At e ∧ q.ending = none ∧
        (q.thread.phase = .ticking ∨ ∃ k < left, ∃ shown, q.thread.phase = .executing k shown) := by
  have hs := Thread.step_next hp
  have ho := Thread.ofRunner_next p.thread
  rw [turn_of_running hp]
  generalize p.thread.next = step at hs ho
  obtain ⟨m, u⟩ := step
  have hn := h.step hq hs ho
  cases hs with
  | send message _ => cases ho
  | hangUp _ => cases ho
  | handle message rest _ hpoll _ => rw [hl] at hpoll; cases hpoll
  | begin _ hpoll _ _ => rw [hl] at hpoll; cases hpoll
  | stop _ hpoll _ _ => rw [hl] at hpoll; cases hpoll
  | tick _ hphase => rw [hl] at hphase; cases hphase
  | execute k shown i q _ hphase _ =>
    rw [hl] at hphase
    cases hphase
    exact .inr ⟨hn, hp, .inr ⟨k, Nat.lt_succ_self k, _, rfl⟩⟩
  | close k shown _ hphase _ => exact .inr ⟨hn, hp, .inl rfl⟩
  | fault k shown fault q _ hphase _ => exact .inl ⟨hn, rfl⟩

theorem At.leave_ticking (h : p.At e) (hq : e.Steady) (hp : p.ending = none)
    (hl : p.thread.phase = .ticking) :
    (p.turn .runner).At (e.behind .tickEnded) ∧ (p.turn .runner).thread.phase = .polling := by
  have hs := Thread.Step.tick hp hl
  rw [turn_of_step hs rfl]
  exact ⟨h.step hq hs rfl, rfl⟩

/-- from inside of a tick the runner comes to its end -/
theorem At.leave_executing (h : p.At e) (hq : e.Steady) (hp : p.ending = none) {left : Nat}
    {redraw : Bool} (hl : p.thread.phase = .executing left redraw) :
    ∃ more, (p.after more).At (e.behind .tickEnded) ∧ (p.after more).thread.phase = .polling := by
  induction left using Nat.strongRecOn generalizing p redraw with
  | ind left ih =>
    obtain hn | ⟨hn, hp', hl' | ⟨k, hk, shown, hl'⟩⟩ := h.inside hq hp hl
    · exact ⟨[.runner], hn⟩
    · exact ⟨[.runner, .runner], hn.leave_ticking hq hp' hl'⟩
    · obtain ⟨more, hm⟩ := ih k hk hn hp' hl'
      exact ⟨.runner :: more, hm⟩

theorem At.acts (h : p.At e) (n : Nat) :
    (p.after (List.replicate n .client)).At e ∧
      (p.after (List.replicate n .client)).thread.phase = p.thread.phase := by
  induction n generalizing p with
  | zero => exact ⟨h, rfl⟩
  | succ n ih =>
    obtain ⟨queue, connected, ha⟩ := p.act_thread
    obtain ⟨hn, hl⟩ := ih h.act
    refine ⟨hn, hl.trans ?_⟩
    rw [ha]

/-- once the client has had its say, the runner ends the wait or itself -/
theorem At.answered (h : p.At e) (hq : e.Steady) (hp : p.ending = none)
    (hl : p.thread.phase = .polling) (hs : p.Spoken) : (p.turn .runner).At e.next := by
  cases hqueue : p.thread.runner.queue with
  | cons message rest =>
    have hm := Thread.Step.handle message rest hp hl hqueue
    rw [turn_of_step hm rfl]
    exact h.step hq hm rfl
  | nil =>
    have hm := Thread.Step.stop hp hl hqueue (hs.resolve_left fun hn => hn hqueue)
    rw [turn_of_step hm rfl]
    exact h.step hq hm rfl

theorem At.leave_polling (h : p.At e) (hq : e.Steady) (hp : p.ending = none)
    (hl : p.thread.phase = .polling) : ∃ more, (p.after more).At e.next := by
  have hlive := h
  cases hlive with
  | ended ending _ hn _ _ =>
    rw [hp] at hn
    cases hn
  | live he _ hr hc =>
    obtain ⟨hsched, -⟩ := hr.of_polling hl
    cases hw : e.scheduler.isWaiting with
    | true =>
      have hpw : p.waiting = true := by
        rw [waiting, scheduler, hsched]
        exact hw
      obtain ⟨n, hs⟩ := hc.spoken hpw
      obtain ⟨hn, hl'⟩ := h.acts n
      refine ⟨List.replicate n .client ++ [.runner], ?_⟩
      rw [after_append]
      exact hn.answered hq (hn.ending_eq.trans he) (hl'.trans hl) hs
    | false =>
      have hpw : ¬ p.waiting = true := by
        rw [waiting, scheduler, hsched, hw]
        exact Bool.false_ne_true
      have hqueue : p.thread.runner.queue = [] := by
        cases hqueue : p.thread.runner.queue with
        | nil => rfl
        | cons message rest => exact absurd (hc.handled hqueue hq.ends).1 hpw
      have hconn : p.thread.runner.connected = true := by
        cases hconn : p.thread.runner.connected with
        | true => rfl
        | false => exact absurd (hc.hungUp hconn).1 hpw
      have hm := Thread.Step.begin hp hl hqueue hconn
      have hn : At _ e := h.step hq hm rfl
      obtain ⟨more, ht, -⟩ := hn.leave_executing hq hp rfl
      refine ⟨.runner :: more, ?_⟩
      rw [after, turn_of_step hm rfl]
      rw [Stage.behind_of_tick hw] at ht
      exact ht

/-- **A session that has not ended can get on to the next stage.** -/
theorem At.exists_next (h : p.At e) (hq : e.Steady) (hp : p.ending = none) :
    ∃ more, (p.after more).At e.next := by
  have hback : ∀ first, (p.after first).At (e.behind .tickEnded) →
      (p.after first).thread.phase = .polling → ∃ more, (p.after more).At e.next := by
    intro first hf hl
    cases hw : e.scheduler.isWaiting with
    | true =>
      rw [Stage.behind_of_idle hw] at hf
      obtain ⟨more, hm⟩ := hf.leave_polling hq (hf.ending_eq.trans (h.ending_eq.symm.trans hp)) hl
      refine ⟨first ++ more, ?_⟩
      rw [after_append]
      exact hm
    | false =>
      rw [Stage.behind_of_tick hw] at hf
      exact ⟨first, hf⟩
  cases hl : p.thread.phase with
  | polling => exact h.leave_polling hq hp hl
  | executing left redraw =>
    obtain ⟨first, hf, hl'⟩ := h.leave_executing hq hp hl
    exact hback first hf hl'
  | ticking =>
    obtain ⟨hf, hl'⟩ := h.leave_ticking hq hp hl
    exact hback [.runner] hf hl'

theorem At.exists_ended (h : p.At e) (hq : ∀ k, (e.after k).Steady) {n : Nat}
    (he : (e.after n).ending ≠ none) : ∃ more, (p.after more).ending ≠ none := by
  induction n generalizing p e with
  | zero => exact ⟨[], fun hp => he (h.ending_eq.symm.trans hp)⟩
  | succ n ih =>
    by_cases hp : p.ending = none
    · obtain ⟨first, hf⟩ := h.exists_next (hq 0) hp
      obtain ⟨more, hm⟩ := ih hf (fun k => hq (k + 1)) he
      refine ⟨first ++ more, ?_⟩
      rw [after_append]
      exact hm
    · exact ⟨[], hp⟩

/-! ## two schedules -/

theorem At.events_eq (h : p.At e) {ending : Ending} (he : e.ending = some ending) :
    p.events = e.told := by
  cases h with
  | live hn _ _ _ =>
    rw [he] at hn
    cases hn
  | ended _ _ _ _ ht => exact ht

/-- of two sessions that have ended behind the same stages, one is as good as the other -/
theorem At.same_of_ended {q : Play} {m n : Nat} (hp : p.At (e.after m)) (hq : q.At (e.after n))
    (hpe : p.ending ≠ none) (hqe : q.ending ≠ none) :
    q.events = p.events ∧ q.ending = p.ending ∧ q.scheduler = p.scheduler := by
  cases hp with
  | live _ hn _ _ => exact absurd hn hpe
  | ended a ha hpa hps hpt =>
    cases hq with
    | live _ hn _ _ => exact absurd hn hqe
    | ended b hb hqb hqs hqt =>
      have he := Stage.after_eq_of_ended ha hb
      rw [hqt, hpt, hqs, hps, he]
      rw [he, hb] at ha
      rw [hqb, hpa, ha]
      exact ⟨rfl, rfl, rfl⟩

/-- **The timing of a session does not matter.**  The client answers every wait with a message that
ends it, and hangs up at the last one.  Take two schedules, in which the timers are off whenever a
wait begins: whatever is told in one of them is the beginning of what is told in the other, or the
other way round.  Once the session has ended in one of them, in any other schedule at all it tells
the same up to some point, can be brought to its end, and then has told the same, ended in the same
way and left the same machine. -/
theorem timing_independent {s : Scheduler} {messages : List Control} {one : List Side}
    (hs : s.isWaiting = false) (hm : ∀ message ∈ messages, message.endsWait = true)
    (hc : (start s (answering messages)).CalmWaits one) :
    let p := start s (answering messages)
    (∀ other, p.CalmWaits other →
      (p.after one).events <+: (p.after other).events ∨
        (p.after other).events <+: (p.after one).events) ∧
    ((p.after one).ending ≠ none → ∀ other,
      (p.after other).events <+: (p.after one).events ∧
      ((p.after other).ending ≠ none →
        (p.after other).events = (p.after one).events ∧
        (p.after other).ending = (p.after one).ending ∧
        (p.after other).scheduler = (p.after one).scheduler) ∧
      ∃ more, (p.after (other ++ more)).ending ≠ none) := by
  intro p
  have hw : ¬ p.waiting = true := by
    show ¬ s.isWaiting = true
    rw [hs]
    exact Bool.false_ne_true
  have hr : p.Rests := fun hp => absurd hp hw
  have h : p.At (.start s messages) := at_start hs messages
  have hq : (Stage.start s messages).Steady := ⟨fun _ hp => absurd hp hw, hm⟩
  generalize Stage.start s messages = e at h hq
  obtain ⟨n, hn, ha⟩ := h.along hq hr hc
  constructor
  · intro other ho
    obtain ⟨k, hk, hb⟩ := h.along hq hr ho
    have hone := ha.events_prefix (hn n (Nat.le_refl n))
    have hother := hb.events_prefix (hk k (Nat.le_refl k))
    rw [← Stage.after_succ] at hone hother
    exact Stage.comparable hone hother
  · intro hend other
    have hse : (e.after n).ending ≠ none := by
      rw [← ha.ending_eq]
      exact hend
    obtain ⟨ending, he⟩ := Option.ne_none_iff_exists'.mp hse
    -- behind the end the stages stay the same, so that all of them are steady
    have hall := Stage.Steady.of_ended hn he
    obtain ⟨k, hb⟩ := h.exists_after other hall
    refine ⟨?_, fun hother => ha.same_of_ended hb hend hother, ?_⟩
    · have hother := hb.events_prefix (hall k)
      rw [← Stage.after_succ] at hother
      rw [ha.events_eq he]
      exact hother.trans (Stage.told_of_ended he (k + 1))
    · have hlast : ((e.after k).after n).ending ≠ none := by
        rw [← Stage.after_add, Nat.add_comm, Stage.after_add, Stage.after_of_ended he]
        exact hse
      have hrest : ∀ j, ((e.after k).after j).Steady := by
        intro j
        rw [← Stage.after_add]
        exact hall (k + j)
      obtain ⟨more, hmore⟩ := hb.exists_ended hrest hlast
      refine ⟨more, ?_⟩
      rw [after_append]
      exact hmore

/-- awaits a key, clears the screen, awaits another key and returns from no subroutine; two
instructions to a tick -/
def twoWaits : Scheduler :=
  .start (.start (.ofProgram [0xF0, 0x0A, 0x00, 0xE0, 0xF1, 0x0A, 0x00, 0xEE]) (.ofSeed 0)) ⟨60, 2⟩

/-- a key for the first wait, a program that returns from no subroutine for the second one -/
def twoReplies : List Control := [.key 5 true, .reset [0x00, 0xEE]]

/-- every message is there as soon as the tick has ended in which the wait has begun -/
def prompt : List Side :=
  List.replicate 4 .runner ++ [.client, .client] ++ List.replicate 6 .runner ++
    [.client, .client] ++ List.replicate 3 .runner

/-- three idle rounds before the key; the reset is sent before the screen is shown, and hence
before the tick has ended in which the wait has begun -/
def uneven : List Side :=
  List.replicate 13 .runner ++ [.client, .client] ++ List.replicate 4 .runner ++
    [.client, .client] ++ List.replicate 5 .runner

theorem timing_independent_twice :
    twoWaits.isWaiting = false ∧ (∀ message ∈ twoReplies, message.endsWait = true) ∧
    (start twoWaits (answering twoReplies)).CalmWaits prompt ∧
    let p := (start twoWaits (answering twoReplies)).after prompt
    let q := (start twoWaits (answering twoReplies)).after uneven
    p.events.filter (·.update? = none) =
      [.keyAwaited, .screenCleared, .keyAwaited, .screenCleared,
        .stopped (.stackUnderflow 0x200)] ∧
    q.events = p.events ∧ q.ending = p.ending ∧ q.scheduler = p.scheduler := by
  have hs : twoWaits.isWaiting = false := by decide +kernel
  have hm : ∀ message ∈ twoReplies, message.endsWait = true := by decide +kernel
  have hc : (start twoWaits (answering twoReplies)).CalmWaits prompt := by decide +kernel
  have hp : ((start twoWaits (answering twoReplies)).after prompt).ending ≠ none := by
    decide +kernel
  have hq : ((start twoWaits (answering twoReplies)).after uneven).ending ≠ none := by
    decide +kernel
  refine ⟨hs, hm, hc, by decide +kernel, ?_⟩
  exact ((timing_independent hs hm hc).2 hp uneven).2.1 hq

end Play

end Chip8
