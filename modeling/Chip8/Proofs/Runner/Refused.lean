import Chip8.Proofs.Runner.Round
import Chip8.Proofs.Scheduler.Reset

/-!
# A runner without the messages it refuses

A message with a program that does not fit is handled without a trace.  So the runner makes the same
moves and rounds if these messages are never sent, with the same events at the same places.

* `Control.refused`, `Move.refused`    such a message, and sending or handling one;
* `Runner.purged`, `Thread.purged`     the same with no such message in the queue;
* `Step.purged`                        what a move is without these messages;
* `round_purged`                       the same for a round.
-/

namespace Chip8

/-- a program that does not fit -/
def Control.refused (message : Control) : Bool := message.call.refused

/-- the messages without those that are refused -/
def Control.kept (messages : List Control) : List Control := messages.filter fun m => !m.refused

/-- a message that is refused is sent or handled -/
def Move.refused : Move → Bool
  | .sent message | .handled message => message.refused
  | _ => false

theorem Control.kept_of_refused {message : Control} (h : message.refused = true)
    (rest : List Control) : kept (message :: rest) = kept rest :=
  List.filter_cons_of_neg (by simp [h])

theorem Control.kept_of_not_refused {message : Control} (h : message.refused = false)
    (rest : List Control) : kept (message :: rest) = message :: kept rest :=
  List.filter_cons_of_pos (by simp [h])

theorem Control.map_call_kept (messages : List Control) :
    (kept messages).map Control.call = Scheduler.Call.kept (messages.map Control.call) := by
  rw [Scheduler.Call.kept, List.filter_map]
  rfl

namespace Runner
variable {r : Runner} {message : Control}

/-- the runner without the messages in its queue that are refused -/
def purged (r : Runner) : Runner := { r with queue := Control.kept r.queue }

theorem handle_of_refused (h : message.refused = true) (r : Runner) : r.handle message = r := by
  rw [handle_eq_absorb, absorb, Scheduler.call_of_refused h]
  simp

theorem purged_send (h : message.refused = false) (r : Runner) :
    (r.send message).purged = r.purged.send message := by
  unfold send purged
  split
  · dsimp only [Control.kept]
    rw [List.filter_append, List.filter_cons_of_pos (by simp [h])]
    rfl
  · rfl

theorem purged_send_of_refused (h : message.refused = true) (r : Runner) :
    (r.send message).purged = r.purged := by
  unfold send purged
  split
  · dsimp only [Control.kept]
    rw [List.filter_append, List.filter_cons_of_neg (by simp [h]), List.filter_nil,
      List.append_nil]
  · rfl

theorem purged_handle (r : Runner) (message : Control) :
    (r.handle message).purged = r.purged.handle message := by
  rw [handle_eq_absorb, handle_eq_absorb]
  rfl

/-- the messages that are refused leave nothing behind in a round -/
theorem handleQueue_purged (r : Runner) : r.purged.handleQueue = r.handleQueue := by
  rw [handleQueue, handleQueue, foldl_handle, foldl_handle]
  simp only [purged, Control.map_call_kept, Scheduler.after_kept, Scheduler.history_kept]

theorem queue_tick (r : Runner) : r.tick.queue = r.queue := by
  unfold tick
  dsimp only
  cases r.scheduler.runTick.fault with
  | none => rfl
  | some fault => rfl

theorem purged_of_nil (h : r.queue = []) : r.purged = r := by
  rw [purged, h, Control.kept, List.filter_nil, ← h]

/-- **A round does the same without the messages that are refused.** -/
theorem round_purged (r : Runner) : r.purged.round = r.round.purged := by
  have he : r.purged.ending = r.ending := rfl
  unfold round
  rw [he, handleQueue_purged]
  cases r.ending with
  | some ending => rfl
  | none =>
    dsimp only
    split
    · exact (purged_of_nil ((queue_tick r.handleQueue).trans rfl)).symm
    · rfl

end Runner

/-! ## moves -/

namespace Thread
variable {t u : Thread} {m : Move}

def purged (t : Thread) : Thread := { t with runner := t.runner.purged }

/-- sending a message that is refused, and handling it, does nothing else -/
theorem Step.purged_of_refused (h : Step t m u) (hm : m.refused = true) : u.purged = t.purged := by
  cases h with
  | send message hc => rw [purged, Runner.purged_send_of_refused hm, purged]
  | handle message rest he hp hq =>
    rw [purged, Runner.handle_of_refused hm, purged, Runner.purged, Runner.purged, hq,
      Control.kept_of_refused hm, hp]
  | _ => cases hm

/-- handling one makes the queue shorter -/
theorem Step.queue_lt (h : Step t m u) (ho : m.ofRunner = true) (hm : m.refused = true) :
    u.runner.queue.length < t.runner.queue.length := by
  cases h with
  | send message hc => cases ho
  | handle message rest he hp hq =>
    dsimp only
    rw [Runner.queue_handle, hq]
    exact Nat.lt_succ_self rest.length
  | _ => cases hm

/-- any other move is one without these messages as well -/
theorem Step.purged (h : Step t m u) (hm : m.refused = false) : Step t.purged m u.purged := by
  cases h with
  | send message hc =>
    have hs := Step.send (t := t.purged) message hc
    show Step t.purged (.sent message) ⟨(t.runner.send message).purged, t.phase⟩
    rw [Runner.purged_send hm]
    exact hs
  | hangUp hc => exact .hangUp hc
  | handle message rest he hp hq =>
    have hk : t.purged.runner.queue = message :: Control.kept rest :=
      (congrArg Control.kept hq).trans (Control.kept_of_not_refused hm rest)
    have hs := Step.handle (t := t.purged) message _ he hp hk
    show Step t.purged (.handled message)
      ⟨({ t.runner with queue := rest }.handle message).purged, .polling⟩
    rw [Runner.purged_handle]
    exact hs
  | begin he hp hq hc => exact .begin he hp (congrArg Control.kept hq) hc
  | stop he hp hq hc => exact .stop he hp (congrArg Control.kept hq) hc
  | execute left redraw i p he hp hs => exact .execute left redraw i p he hp hs
  | close left redraw he hp hs => exact .close left redraw he hp hs
  | fault left redraw fault p he hp hs => exact .fault left redraw fault p he hp hs
  | tick he hp => exact .tick he hp

end Thread

end Chip8
