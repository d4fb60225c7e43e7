import Chip8.Proofs.Runner.Tick

/-!
# A round, move by move

With nobody to interfere, the moves of a runner add up to its rounds: first the queue is emptied,
then a tick is begun and brought to its end.

* `advances`                                 so many moves of the runner in a row;
* `advances_handleQueue`, `advances_tick`    the two parts of a round;
* `advances_round`, `advances_rounds`        all of them, up to the end of the runner;
* `run_rounds`                               rounds are runs, so what holds of runs holds of them.
-/

namespace Chip8

namespace Runner
variable {r : Runner}

theorem foldl_handle (r : Runner) (messages : List Control) :
    messages.foldl handle r =
      { r with
        scheduler := r.scheduler.after (messages.map Control.call)
        events := r.events.appendList (r.scheduler.history (messages.map Control.call)) } := by
  induction messages generalizing r with
  | nil => simp [Scheduler.after, Scheduler.history]
  | cons message messages ih =>
    rw [List.foldl_cons, ih, handle_eq_absorb]
    simp only [absorb, List.map_cons, Scheduler.after, Scheduler.history,
      Array.appendList_eq_append]
    congr 1
    apply Array.ext'
    simp

theorem handleQueue_nil (h : r.queue = []) : r.handleQueue = r := by
  rw [handleQueue, h, List.foldl_nil, ← h]

/-- the oldest message is handled first -/
theorem handleQueue_cons {message : Control} {rest : List Control}
    (h : r.queue = message :: rest) :
    r.handleQueue = ({ r with queue := rest }.handle message).handleQueue := by
  rw [handleQueue, handleQueue, queue_handle, h, List.foldl_cons, foldl_handle, foldl_handle,
    handle_eq_absorb, handle_eq_absorb]
  rfl

theorem ext_events {a b : Runner} (hs : a.scheduler = b.scheduler) (hq : a.queue = b.queue)
    (hc : a.connected = b.connected) (he : a.events.toList = b.events.toList)
    (hn : a.ending = b.ending) : a = b := by
  cases a
  cases b
  cases hs
  cases hq
  cases hc
  cases Array.ext' he
  cases hn
  rfl

end Runner

namespace Thread
variable {t : Thread} {r : Runner}

/-- so many moves of the runner in a row -/
def advances (t : Thread) : Nat → Thread
  | 0 => t
  | n + 1 => t.advance.advances n

theorem advances_add (t : Thread) (m n : Nat) : t.advances (m + n) = (t.advances m).advances n := by
  induction m generalizing t with
  | zero => rw [Nat.zero_add, advances]
  | succ m ih => rw [Nat.succ_add, advances, advances, ih]

/-- one move for every message -/
theorem advances_handleQueue (he : r.ending = none) :
    advances ⟨r, .polling⟩ r.queue.length = ⟨r.handleQueue, .polling⟩ := by
  generalize hq : r.queue = messages
  induction messages generalizing r with
  | nil => rw [Runner.handleQueue_nil hq, List.length_nil, advances]
  | cons message rest ih =>
    have ha : advance ⟨r, .polling⟩ = ⟨{ r with queue := rest }.handle message, .polling⟩ := by
      rw [advance_of_running he, next, poll, hq]
    rw [List.length_cons, advances, ha, Runner.handleQueue_cons hq]
    exact ih (by rw [Runner.ending_handle]; exact he) (Runner.queue_handle _ message)

/-- the runner that had told `told` when it began the tick of `base` the thread is in -/
def beforeTick (t : Thread) (base : Scheduler) (told : List Event) : Runner :=
  { t.runner with scheduler := base, events := told.toArray }

theorem advance_ticking {base : Scheduler} {told : List Event} (h : t.Reached base told)
    (he : t.runner.ending = none) (hp : t.phase = .ticking) :
    t.advance = ⟨(t.beforeTick base told).tick, .polling⟩ := by
  obtain ⟨hf, hs, hl⟩ := h.ticked hp
  rw [advance_of_running he, next, hp]
  dsimp only
  congr 1
  simp only [Runner.tick, beforeTick, hf]
  refine Runner.ext_events hs rfl rfl ?_ rfl
  rw [hl, Runner.toList_absorb]

theorem advance_faulted {base : Scheduler} {told : List Event} (h : t.Reached base told)
    (he : t.runner.ending = none) {left : Nat} {redraw : Bool} {fault : Fault} {p : Processor}
    (hp : t.phase = .executing (left + 1) redraw)
    (hs : t.runner.scheduler.processor.step = (.faulted fault, p)) :
    t.advance = ⟨(t.beforeTick base told).tick, .polling⟩ := by
  obtain ⟨hf, hr, hl⟩ := h.faulted hp hs
  rw [advance_of_running he, next, hp]
  dsimp only
  rw [execute, hs]
  dsimp only
  congr 1
  simp only [Runner.tick, beforeTick, hf]
  refine Runner.ext_events hr rfl rfl ?_ rfl
  rw [hl, Array.toList_push, Runner.toList_absorb]

/-- from anywhere inside of a tick the runner comes to its end -/
theorem advances_executing {base : Scheduler} {told : List Event} (h : t.Reached base told)
    (he : t.runner.ending = none) {left : Nat} {redraw : Bool}
    (hp : t.phase = .executing left redraw) :
    ∃ n, t.advances n = ⟨(t.beforeTick base told).tick, .polling⟩ := by
  -- the end of the batch, from where there is only the tick of the timers
  have hclose : ∀ {u : Thread} {k : Nat} {shown : Bool}, u.Reached base told →
      u.runner.ending = none → u.phase = .executing k shown →
      (k = 0 ∨ ∃ p, u.runner.scheduler.processor.step = (.waiting, p)) →
      u.advances 2 = ⟨(u.beforeTick base told).tick, .polling⟩ := by
    intro u k shown hu he hp hs
    have ha : u.advance = ⟨u.runner.close shown, .ticking⟩ := by
      rw [advance_of_running he, (Step.close k shown he hp hs).eq_next rfl]
    rw [advances, advances, advances, ha]
    exact advance_ticking (hu.closed hp hs) he rfl
  induction left generalizing t redraw with
  | zero => exact ⟨2, hclose h he hp (.inl rfl)⟩
  | succ left ih =>
    cases hs : t.runner.scheduler.processor.step with
    | mk outcome p =>
      cases outcome with
      | executed i =>
        have ha : t.advance =
            ⟨t.runner.record redraw i p, .executing left (redraw || Scheduler.redraws i)⟩ := by
          rw [advance_of_running he, (Step.execute left redraw i p he hp hs).eq_next rfl]
        obtain ⟨n, hn⟩ := ih (h.executed hp hs) he rfl
        refine ⟨n + 1, ?_⟩
        rw [advances, ha, hn]
        rfl
      | waiting => exact ⟨2, hclose h he hp (.inr ⟨p, hs⟩)⟩
      | faulted fault => exact ⟨1, advance_faulted h he hp hs⟩

theorem advances_tick (he : r.ending = none) (hq : r.queue = []) (hc : r.connected = true) :
    ∃ n, advances ⟨r, .polling⟩ n = ⟨r.tick, .polling⟩ := by
  have hr : Reached ⟨r, .polling⟩ r.scheduler r.events.toList := ⟨rfl, rfl⟩
  have ha : advance ⟨r, .polling⟩ = ⟨r, .executing r.scheduler.batchSize false⟩ := by
    rw [advance_of_running he, (Step.begin he rfl hq hc).eq_next rfl]
  obtain ⟨n, hn⟩ := advances_executing (hr.begun rfl) he rfl
  refine ⟨n + 1, ?_⟩
  rw [advances, ha, hn]
  rfl

/-- **A round is a number of moves**, with no client in between. -/
theorem advances_round (r : Runner) : ∃ n, advances ⟨r, .polling⟩ n = ⟨r.round, .polling⟩ := by
  cases he : r.ending with
  | some ending =>
    refine ⟨0, ?_⟩
    rw [Runner.round, he]
    rfl
  | none =>
    have hq := advances_handleQueue he
    have hn : r.handleQueue.ending = none := by
      rw [Runner.handleQueue, Runner.foldl_handle]
      exact he
    rw [Runner.round, he]
    dsimp only
    by_cases hc : r.handleQueue.connected = true
    · obtain ⟨n, ht⟩ := advances_tick hn rfl hc
      refine ⟨r.queue.length + n, ?_⟩
      rw [advances_add, hq, ht, if_pos hc]
    · have hs : r.handleQueue.connected = false := by simpa using hc
      refine ⟨r.queue.length + 1, ?_⟩
      rw [advances_add, hq, if_neg hc, advances, advance_of_running hn,
        (Step.stop hn rfl rfl hs).eq_next rfl]
      rfl

theorem advances_rounds (r : Runner) (n : Nat) :
    ∃ k, advances ⟨r, .polling⟩ k = ⟨r.rounds n, .polling⟩ := by
  induction n generalizing r with
  | zero => exact ⟨0, rfl⟩
  | succ n ih =>
    rw [Runner.rounds]
    cases he : r.ending with
    | some ending => exact ⟨0, rfl⟩
    | none =>
      obtain ⟨k, hk⟩ := advances_round r
      obtain ⟨l, hl⟩ := ih r.round
      exact ⟨k + l, by rw [advances_add, hk, hl]⟩

/-- what the runner does by itself is a run -/
theorem run_advances (t : Thread) (n : Nat) :
    ∃ moves, (∀ m ∈ moves, m.ofRunner = true) ∧ Run t moves (t.advances n) := by
  induction n generalizing t with
  | zero => exact ⟨[], nofun, .nil⟩
  | succ n ih =>
    rw [advances]
    cases he : t.runner.ending with
    | some ending =>
      rw [advance_of_ended he]
      exact ih t
    | none =>
      obtain ⟨moves, hm, hr⟩ := ih t.advance
      rw [advance_of_running he] at hr ⊢
      refine ⟨t.next.1 :: moves, ?_, .cons (step_next he) hr⟩
      rw [List.forall_mem_cons]
      exact ⟨ofRunner_next t, hm⟩

/-- **The rounds of a runner are a run**, in which its client does nothing. -/
theorem run_rounds (r : Runner) (n : Nat) :
    ∃ moves, (∀ m ∈ moves, m.ofRunner = true) ∧ Run ⟨r, .polling⟩ moves ⟨r.rounds n, .polling⟩ := by
  obtain ⟨k, hk⟩ := advances_rounds r n
  rw [← hk]
  exact run_advances _ k

end Thread

end Chip8
