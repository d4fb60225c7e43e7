import Chip8.Proofs.Session.Wait

/-!
# A client that answers every wait

The client waits until a key is awaited, sends one message, and so on; at the wait behind the last
message it hangs up.  Whatever it does next, at most one of its messages is on its way, and as long
as one is, the machine waits for it.

* `answering`           its script;
* `Client`              where it stands, while these messages have not been handled;
* `Client.act`          its own turns;
* `Client.step`         the moves of the runner but for handling a message;
* `Client.handled`      the message that is handled is the next one, and comes during a wait;
* `Client.hungUp`       and so does the end;
* `Client.spoken`       the client does not keep a wait waiting.
-/

namespace Chip8

/-- awaits a wait before each message, and one more before it hangs up -/
def answering : List Control → List Act
  | [] => [.await .keyAwaited, .disconnect]
  | message :: rest => .await .keyAwaited :: .send message :: answering rest

/-- what is left of the script after a wait has been awaited -/
def replying : List Control → List Act
  | [] => [.disconnect]
  | message :: rest => .send message :: answering rest

theorem answering_eq (messages : List Control) :
    answering messages = .await .keyAwaited :: replying messages := by
  cases messages <;> rfl

/-- the queue and its other end are the client's, but for the message that is handled -/
theorem Thread.Step.channel {t u : Thread} {m : Move} (h : Step t m u) (ho : m.ofRunner = true)
    (hm : m.handled? = none) :
    u.runner.queue = t.runner.queue ∧ u.runner.connected = t.runner.connected := by
  cases h with
  | send message hc => cases ho
  | hangUp hc => cases ho
  | handle message rest he hp hq => cases hm
  | _ => exact ⟨rfl, rfl⟩

namespace Play
variable {p : Play} {messages : List Control}

def waiting (p : Play) : Bool := p.scheduler.isWaiting

/-- how many waits have been told that the client has not read of -/
def unread (p : Play) : Nat := (p.events.drop p.seen).count .keyAwaited

/-- where the client stands in its script; only while it is listening can there be a wait it has not
read of, and then it is the one that lasts -/
inductive Place (p : Play) : List Control → Prop
  | listening (messages : List Control) (hs : p.script = answering messages)
      (hq : p.thread.runner.queue = []) (hc : p.thread.runner.connected = true)
      (hu : p.unread = p.waiting.toNat) : Place p messages
  | replying (messages : List Control) (hs : p.script = replying messages)
      (hq : p.thread.runner.queue = []) (hc : p.thread.runner.connected = true)
      (hu : p.unread = 0) (hw : p.waiting = true) : Place p messages
  | sent (message : Control) (rest : List Control) (hs : p.script = answering rest)
      (hq : p.thread.runner.queue = [message]) (hc : p.thread.runner.connected = true)
      (hu : p.unread = 0) (hw : p.waiting = true) : Place p (message :: rest)
  | gone (hs : p.script = []) (hq : p.thread.runner.queue = [])
      (hc : p.thread.runner.connected = false) (hu : p.unread = 0) (hw : p.waiting = true) :
      Place p []

/-- where the client stands, while these messages have not been handled -/
structure Client (p : Play) (messages : List Control) : Prop where
  read : p.seen ≤ p.events.length
  place : Place p messages

/-! ## reading -/

theorem count_drop_idxOf? {events : List Event} {event : Event} {place : Nat}
    (h : events.idxOf? event = some place) :
    place < events.length ∧ (events.drop (place + 1)).count event + 1 = events.count event := by
  induction events generalizing place with
  | nil => cases h
  | cons first rest ih =>
    rw [List.idxOf?_cons] at h
    by_cases hf : first = event
    · rw [if_pos (beq_iff_eq.mpr hf)] at h
      cases h
      simp [hf]
    · rw [if_neg (by simpa using hf)] at h
      obtain ⟨k, hk, rfl⟩ := Option.map_eq_some_iff.mp h
      obtain ⟨hl, hc⟩ := ih hk
      refine ⟨Nat.succ_lt_succ hl, ?_⟩
      rw [List.drop_succ_cons, hc, List.count_cons_of_ne hf]

theorem idxOf?_iff : (p.events.drop p.seen).idxOf? .keyAwaited = none ↔ p.unread = 0 :=
  List.idxOf?_eq_none_iff.trans List.count_eq_zero.symm

theorem read_append {u : Thread} {told : List Event} (hr : p.seen ≤ p.events.length)
    (he : u.runner.events.toList = p.events ++ told) :
    p.seen ≤ ({ p with thread := u } : Play).events.length := by
  show p.seen ≤ u.runner.events.toList.length
  rw [he, List.length_append]
  exact Nat.le_add_right_of_le hr

theorem unread_append {u : Thread} {told : List Event} (hr : p.seen ≤ p.events.length)
    (he : u.runner.events.toList = p.events ++ told) :
    ({ p with thread := u } : Play).unread = p.unread + told.count .keyAwaited := by
  show (u.runner.events.toList.drop p.seen).count _ = _
  rw [he, List.drop_append_of_le_length hr, List.count_append]
  rfl

/-! ## turns of the client -/

/-- the client has nothing but the queue in its hands -/
theorem act_thread (p : Play) :
    ∃ queue connected,
      p.act.thread = ⟨{ p.thread.runner with queue, connected }, p.thread.phase⟩ := by
  unfold act
  split
  · exact ⟨_, _, rfl⟩
  · split <;> exact ⟨_, _, rfl⟩
  · next message rest hs =>
    dsimp only
    unfold Runner.send
    split <;> exact ⟨_, _, rfl⟩
  · exact ⟨_, _, rfl⟩

theorem act_awaiting (hs : p.script = answering messages) {place : Nat}
    (hp : (p.events.drop p.seen).idxOf? .keyAwaited = some place) :
    p.act = { p with script := replying messages, seen := p.seen + place + 1 } := by
  rw [answering_eq] at hs
  simp only [act, hs, hp]

theorem act_unread (hs : p.script = answering messages) (hu : p.unread = 0) : p.act = p := by
  rw [answering_eq] at hs
  simp only [act, hs, idxOf?_iff.mpr hu]

theorem act_sending {message : Control} (hs : p.script = replying (message :: messages)) :
    p.act = { p with
      thread := { p.thread with runner := p.thread.runner.send message }
      script := answering messages } := by
  simp only [act, hs, replying]

theorem act_leaving (hs : p.script = replying []) :
    p.act = { p with
      thread := { p.thread with runner := p.thread.runner.disconnect }, script := [] } := by
  simp only [act, hs, replying]

theorem Client.act (h : Client p messages) : Client p.act messages := by
  have hr := h.read
  cases h.place with
  | listening messages hs hq hc hu =>
    cases hp : (p.events.drop p.seen).idxOf? .keyAwaited with
    | none =>
      rw [act_unread hs (idxOf?_iff.mp hp)]
      exact h
    | some place =>
      obtain ⟨hl, hn⟩ := count_drop_idxOf? hp
      rw [List.length_drop] at hl
      rw [List.drop_drop, ← Nat.add_assoc] at hn
      have hn : (p.events.drop (p.seen + place + 1)).count .keyAwaited + 1 = p.waiting.toNat :=
        hn.trans hu
      cases hw : p.waiting with
      | false =>
        rw [hw] at hn
        cases hn
      | true =>
        rw [hw] at hn
        rw [act_awaiting hs hp]
        have hl : p.seen + place + 1 ≤ p.events.length := by omega
        exact ⟨hl, .replying messages rfl hq hc (Nat.succ.inj hn) hw⟩
  | replying messages hs hq hc hu hw =>
    cases messages with
    | nil =>
      rw [act_leaving hs]
      exact ⟨hr, .gone rfl hq rfl hu hw⟩
    | cons message rest =>
      have hn : p.thread.runner.send message = { p.thread.runner with queue := [message] } := by
        rw [Runner.send, if_pos hc, hq]
        rfl
      rw [act_sending hs, hn]
      exact ⟨hr, .sent message rest rfl rfl hc hu hw⟩
  | sent message rest hs hq hc hu hw =>
    rw [act_unread hs hu]
    exact h
  | gone hs hq hc hu hw =>
    have ha : p.act = p := by simp only [Play.act, hs]
    rw [ha]
    exact h

/-- a message is on its way, or the client has hung up -/
def Spoken (p : Play) : Prop :=
  p.thread.runner.queue ≠ [] ∨ p.thread.runner.connected = false

theorem spoken_act (hs : p.script = replying messages) : p.act.Spoken := by
  cases messages with
  | nil =>
    rw [act_leaving hs]
    exact .inr rfl
  | cons message rest =>
    rw [act_sending hs, Spoken]
    unfold Runner.send
    split
    · exact .inl (List.append_ne_nil_of_right_ne_nil _ (List.cons_ne_nil _ _))
    · next hc => exact .inr (by simpa using hc)

/-- **During a wait the client has its say**, in two turns at most. -/
theorem Client.spoken (h : Client p messages) (hw : p.waiting = true) :
    ∃ n, (p.after (List.replicate n .client)).Spoken := by
  cases h.place with
  | listening messages hs hq hc hu =>
    rw [hw] at hu
    cases hp : (p.events.drop p.seen).idxOf? .keyAwaited with
    | none =>
      rw [idxOf?_iff.mp hp] at hu
      cases hu
    | some place =>
      refine ⟨2, ?_⟩
      refine spoken_act (?_ : p.act.script = replying messages)
      show p.act.script = _
      rw [act_awaiting hs hp]
  | replying messages hs hq hc hu hp => exact ⟨1, spoken_act hs⟩
  | sent message rest hs hq hc hu hp =>
    refine ⟨0, .inl ?_⟩
    show p.thread.runner.queue ≠ []
    rw [hq]
    exact List.cons_ne_nil _ _
  | gone hs hq hc hu hp => exact ⟨0, .inr hc⟩

/-! ## moves of the runner -/

/-- a move that handles no message leaves the client where it is -/
theorem Client.step (h : Client p messages) {m : Move} {u : Thread}
    (hs : Thread.Step p.thread m u) (ho : m.ofRunner = true) (hm : m.handled? = none) :
    Client { p with thread := u } messages := by
  obtain ⟨told, he, hw⟩ := hs.awaited hm
  obtain ⟨hq, hc⟩ := hs.channel ho hm
  have hr := read_append h.read he
  have hn := unread_append h.read he
  have hw : told.count .keyAwaited + p.waiting.toNat = u.runner.scheduler.isWaiting.toNat := hw
  have hlast : p.waiting = true →
      told.count .keyAwaited = 0 ∧ u.runner.scheduler.isWaiting = true := fun hp => by
    rw [hp] at hw
    cases hu : u.runner.scheduler.isWaiting with
    | true =>
      rw [hu] at hw
      exact ⟨Nat.succ.inj hw, rfl⟩
    | false =>
      rw [hu] at hw
      cases hw
  cases h.place with
  | listening messages hs hpq hpc hu =>
    refine ⟨hr, .listening messages hs (hq.trans hpq) (hc.trans hpc) ?_⟩
    rw [hn, hu, Nat.add_comm]
    exact hw
  | replying messages hs hpq hpc hu hp =>
    obtain ⟨hz, hw⟩ := hlast hp
    exact ⟨hr, .replying messages hs (hq.trans hpq) (hc.trans hpc) (by rw [hn, hu, hz]) hw⟩
  | sent message rest hs hpq hpc hu hp =>
    obtain ⟨hz, hw⟩ := hlast hp
    exact ⟨hr, .sent message rest hs (hq.trans hpq) (hc.trans hpc) (by rw [hn, hu, hz]) hw⟩
  | gone hs hpq hpc hu hp =>
    obtain ⟨hz, hw⟩ := hlast hp
    exact ⟨hr, .gone hs (hq.trans hpq) (hc.trans hpc) (by rw [hn, hu, hz]) hw⟩

/-- **A message is handled during a wait, and it is the next one**; it ends the wait, and the client
listens again. -/
theorem Client.handled (h : Client p messages) {message : Control} {queue : List Control}
    (hq : p.thread.runner.queue = message :: queue) (hm : ∀ m ∈ messages, m.endsWait = true) :
    p.waiting = true ∧ ∃ rest, messages = message :: rest ∧
      let q := { p with thread := ⟨{ p.thread.runner with queue }.handle message, .polling⟩ }
      q.waiting = false ∧ Client q rest := by
  cases h.place with
  | listening messages hs hpq hpc hu => rw [hpq] at hq; cases hq
  | replying messages hs hpq hpc hu hp => rw [hpq] at hq; cases hq
  | gone hs hpq hpc hu hp => rw [hpq] at hq; cases hq
  | sent other rest hs hpq hpc hu hp =>
    rw [hpq] at hq
    cases hq
    obtain ⟨hw, hc⟩ := Scheduler.call_endsWait hp (hm message List.mem_cons_self)
    refine ⟨hp, rest, rfl, ?_⟩
    rw [Runner.handle_eq_absorb]
    refine ⟨hw, ?_⟩
    have he := Runner.toList_absorb { p.thread.runner with queue := [] }
      (p.scheduler.call message.call)
    have hn := unread_append (p := p) (u := ⟨_, .polling⟩) h.read he
    refine ⟨read_append (p := p) h.read he, .listening rest hs rfl hpc ?_⟩
    refine hn.trans ?_
    rw [hu, hc]
    exact (congrArg Bool.toNat hw).symm

/-- the client hangs up during a wait, when all its messages have been handled -/
theorem Client.hungUp (h : Client p messages) (hc : p.thread.runner.connected = false) :
    p.waiting = true ∧ messages = [] := by
  cases h.place with
  | listening messages hs hq hpc hu => rw [hc] at hpc; cases hpc
  | replying messages hs hq hpc hu hw => rw [hc] at hpc; cases hpc
  | sent message rest hs hq hpc hu hw => rw [hc] at hpc; cases hpc
  | gone hs hq hpc hu hw => exact ⟨hw, rfl⟩

end Play

end Chip8
