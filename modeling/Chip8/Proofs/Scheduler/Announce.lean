import Chip8.Proofs.Processor.Await
import Chip8.Proofs.Scheduler.Display
import Chip8.Proofs.Scheduler.Reset

/-!
# Waits are announced

A wait for a key is told when it begins, and not again as long as it lasts.  It ends with the press
of a key, or is given up in a reset, neither of which is told.  So the announcements are counted by
the waits that are over and the one that is not.

* `awaited_of_executed`      which instructions begin a wait;
* `count_keyAwaited_trace`   what a batch tells, against the wait before and after;
* `trace_of_awaitKey`        a batch ends with the instruction that waits;
* `Call.resolves`, `Call.abandons`    the two ways in which a wait ends;
* `balanced_call`            the account of a call;
* `waits_announced_once`     the account of any calls, and the order inside of a batch.
-/

namespace Chip8

/-! ## how a wait begins -/

namespace Processor
variable {p q : Processor} {i : Instruction} {fault : Fault} {x : Register}

/-- an instruction begins a wait just if it tells so -/
theorem awaited_of_executed (h : p.step = (.executed i, q)) :
    (Scheduler.eventsOf i).count .keyAwaited = q.isWaiting.toNat := by
  cases hw : i.writes .awaiting with
  | true =>
    obtain ⟨x, rfl⟩ := writes_awaiting hw
    obtain ⟨-, flow, after, hx, rfl⟩ := step_executed h
    cases hx
    rfl
  | false =>
    have hs : q.machine.awaiting = p.machine.awaiting := by
      have hk : p.step.2.machine.awaiting = p.machine.awaiting :=
        step_same .awaiting fun j hj => by
          rw [h] at hj
          cases hj
          exact hw
      rwa [h] at hk
    have hq : q.isWaiting = false := by
      rw [isWaiting, hs]
      exact (running_of_executed h).1
    rw [hq]
    cases i with
    | awaitKey x => cases hw
    | _ => rfl

/-- a step in which nothing is executed neither begins a wait nor ends it -/
theorem Idle.isWaiting (h : p.Idle) : p.step.2.isWaiting = p.isWaiting := by
  have hs : p.step.2.machine.awaiting = p.machine.awaiting :=
    step_same .awaiting fun i hi => absurd hi (h i)
  rw [Processor.isWaiting, hs]
  rfl

theorem isWaiting_of_faulted (h : p.step = (.faulted fault, q)) : q.isWaiting = p.isWaiting := by
  have hi : p.step.2.isWaiting = p.isWaiting := (idle_of_faulted h).isWaiting
  rwa [h] at hi

/-- nothing is executed behind an instruction that waits -/
theorem trace_of_awaitKey (h : p.step = (.executed (.awaitKey x), q)) (n : Nat) :
    q.trace n = [] :=
  (idle_of_waiting (waits_of_awaitKey h).step).trace n

theorem trace_awaitKey_last {n : Nat} {pre post : List Instruction}
    (h : (p.trace n).map Prod.fst = pre ++ .awaitKey x :: post) : post = [] := by
  induction n generalizing p pre with
  | zero => cases pre <;> cases h
  | succ n ih =>
    rcases p.idle_or_executed with hi | ⟨i, q, hs⟩
    · rw [hi.trace] at h
      cases pre <;> cases h
    · rw [trace_executed hs, List.map_cons] at h
      cases pre with
      | nil =>
        obtain ⟨rfl, hq⟩ := List.cons.inj h
        rw [trace_of_awaitKey hs] at hq
        exact hq.symm
      | cons j pre => exact ih (List.cons.inj h).2

end Processor

namespace Scheduler
variable {s : Scheduler}

def isWaiting (s : Scheduler) : Bool := s.processor.isWaiting

/-! ## announcements -/

theorem count_keyAwaited_toneChange (playing wanted : Bool) :
    (toneChange playing wanted).count .keyAwaited = 0 := by
  cases playing <;> cases wanted <;> rfl

theorem count_keyAwaited_picture (redraw : Bool) (screen : Screen) :
    (picture redraw screen).count .keyAwaited = 0 := by
  cases redraw <;> rfl

theorem isWaiting_tickTimers (s : Scheduler) :
    s.tickTimers.scheduler.isWaiting = s.isWaiting := by
  rw [tickTimers_eq]
  rfl

theorem count_keyAwaited_tickTimers (s : Scheduler) :
    s.tickTimers.events.count .keyAwaited = 0 := by
  rw [tickTimers_eq]
  exact count_keyAwaited_toneChange _ _

theorem count_keyAwaited_trace (p : Processor) (playing : Bool) (n : Nat) :
    (told playing (p.trace n)).count .keyAwaited + p.isWaiting.toNat =
      (p.stepMany n).isWaiting.toNat := by
  induction n generalizing p playing with
  | zero => exact Nat.zero_add _
  | succ n ih =>
    rcases p.idle_or_executed with hi | ⟨i, q, hs⟩
    · -- nothing is told any more, and the wait, if it is one, lasts
      rw [hi.trace, hi.stepMany_succ, hi.isWaiting]
      exact Nat.zero_add _
    · have hw : p.isWaiting = false := (Processor.running_of_executed hs).1
      have hq : (told q.sounds (q.trace n)).count .keyAwaited + q.isWaiting.toNat =
          (q.stepMany n).isWaiting.toNat := ih q q.sounds
      rw [Processor.trace_executed hs, Processor.stepMany_succ, hs, told, List.count_append,
        List.count_append, count_keyAwaited_toneChange, Processor.awaited_of_executed hs, hw, ← hq]
      show q.isWaiting.toNat + 0 + _ + 0 = _
      omega

theorem mem_keyAwaited_eventsOf (i : Instruction) :
    .keyAwaited ∈ eventsOf i ↔ ∃ x, .awaitKey x = i := by
  cases i <;> simp [eventsOf]

theorem mem_keyAwaited_told (playing : Bool) (trace : List (Instruction × Processor)) :
    .keyAwaited ∈ told playing trace ↔ ∃ x, .awaitKey x ∈ trace.map Prod.fst := by
  induction trace generalizing playing with
  | nil => simp [told]
  | cons y rest ih =>
    obtain ⟨i, q⟩ := y
    have ht : .keyAwaited ∉ toneChange playing q.sounds := fun h => by
      rcases mem_toneChange h with h | h <;> cases h
    simp only [told, List.mem_append, ht, or_false, mem_keyAwaited_eventsOf, ih, List.map_cons,
      List.mem_cons, exists_or]

theorem count_keyAwaited_runCycles (s : Scheduler) (n : Nat) :
    (s.runCycles n).events.count .keyAwaited + s.isWaiting.toNat =
      (s.runCycles n).scheduler.isWaiting.toNat := by
  rw [runCycles_eq, List.count_append, count_keyAwaited_picture]
  exact count_keyAwaited_trace s.processor s.tonePlaying n

theorem count_keyAwaited_runTick (s : Scheduler) :
    s.runTick.events.count .keyAwaited + s.isWaiting.toNat =
      s.runTick.scheduler.isWaiting.toNat := by
  have hb := s.count_keyAwaited_runCycles s.batchSize
  rw [runTick_eq]
  cases (s.runCycles s.batchSize).fault with
  | some fault => exact hb
  | none =>
    dsimp only
    rw [List.count_append, count_keyAwaited_tickTimers, isWaiting_tickTimers]
    exact hb

theorem mem_keyAwaited_runCycles (s : Scheduler) (n : Nat) :
    .keyAwaited ∈ (s.runCycles n).events ↔ ∃ x, .awaitKey x ∈ s.executed n := by
  have hp : ∀ (redraw : Bool) (screen : Screen), .keyAwaited ∉ picture redraw screen :=
    fun redraw screen => List.count_eq_zero.mp (count_keyAwaited_picture redraw screen)
  rw [runCycles_eq, List.mem_append, mem_keyAwaited_told]
  exact or_iff_left (hp _ _)

/-! ## how a wait ends -/

/-- the call is the press of a key, and a wait is over with it -/
def Call.resolves (s : Scheduler) (c : Call) : Bool :=
  match c with
  | .key _ pressed => pressed && s.isWaiting && !(s.call c).scheduler.isWaiting
  | _ => false

/-- the call is a reset that succeeds, while a key is awaited -/
def Call.abandons (s : Scheduler) (c : Call) : Bool :=
  match c with
  | .reset program => s.isWaiting && (s.reset program).isOk
  | _ => false

/-- each call with the scheduler that it finds -/
def visits (s : Scheduler) : List Call → List (Scheduler × Call)
  | [] => []
  | c :: calls => (s, c) :: (s.call c).scheduler.visits calls

theorem balanced_key (s : Scheduler) (k : Key) (pressed : Bool) :
    s.isWaiting.toNat = (Call.resolves s (.key k pressed)).toNat +
      (s.setKey k pressed).isWaiting.toNat := by
  show s.isWaiting.toNat =
    (pressed && s.isWaiting && !(s.setKey k pressed).isWaiting).toNat + _
  rcases s.processor.setKey_cases k pressed with ⟨-, hs⟩ | ⟨x, hx, hp, hs⟩
  · have hw : (s.setKey k pressed).isWaiting = s.isWaiting := by
      rw [isWaiting, setKey, hs]
      rfl
    rw [hw, Bool.and_assoc, Bool.and_not_self, Bool.and_false]
    exact (Nat.zero_add _).symm
  · have hw : s.isWaiting = true := by
      rw [isWaiting, Processor.isWaiting, hx]
      rfl
    have hn : (s.setKey k pressed).isWaiting = false := by
      rw [isWaiting, setKey, hs]
      rfl
    rw [hw, hn, hp]
    rfl

theorem balanced_reset (s : Scheduler) (program : List UInt8) :
    (s.call (.reset program)).events.count .keyAwaited + s.isWaiting.toNat =
      (Call.abandons s (.reset program)).toNat +
        (s.call (.reset program)).scheduler.isWaiting.toNat := by
  show _ = (s.isWaiting && (s.reset program).isOk).toNat + _
  by_cases hf : program.length ≤ Memory.maxProgramLength
  · rw [call, reset_of_fits hf]
    cases s.isWaiting <;> cases s.tonePlaying <;> rfl
  · have hr : s.reset program = .error ⟨program.length⟩ := reset_of_longer (Nat.lt_of_not_le hf) s
    rw [call, hr, Except.isOk, Except.toBool, Bool.and_false]
    rfl

/-- **The account of a call**: what was pending before or is announced, is over or pending behind. -/
theorem balanced_call (s : Scheduler) (c : Call) :
    (s.call c).events.count .keyAwaited + s.isWaiting.toNat =
      (c.resolves s).toNat + (c.abandons s).toNat + (s.call c).scheduler.isWaiting.toNat := by
  cases c with
  | runCycles n => exact (s.count_keyAwaited_runCycles n).trans (Nat.zero_add _).symm
  | runTick => exact s.count_keyAwaited_runTick.trans (Nat.zero_add _).symm
  | tickTimers =>
    show s.tickTimers.events.count .keyAwaited + _ =
      0 + 0 + s.tickTimers.scheduler.isWaiting.toNat
    rw [count_keyAwaited_tickTimers, isWaiting_tickTimers]
  | key k pressed => exact (Nat.zero_add _).trans (s.balanced_key k pressed)
  | reset program =>
    show _ = 0 + _ + _
    rw [Nat.zero_add]
    exact s.balanced_reset program

theorem balanced_history (s : Scheduler) (calls : List Call) :
    (s.history calls).count .keyAwaited + s.isWaiting.toNat =
      (s.visits calls).countP (fun v => v.2.resolves v.1) +
        (s.visits calls).countP (fun v => v.2.abandons v.1) + (s.after calls).isWaiting.toNat := by
  have hb : ∀ b : Bool, (if b = true then 1 else 0) = b.toNat := by
    intro b
    cases b <;> rfl
  induction calls generalizing s with
  | nil => rfl
  | cons c calls ih =>
    have hc := s.balanced_call c
    have hr := ih (s.call c).scheduler
    simp only [history, visits, after, List.count_append, List.countP_cons, hb]
    omega

/-- no call announces more than one wait, and none does so while one is pending -/
theorem count_keyAwaited_call (s : Scheduler) (c : Call) :
    (s.call c).events.count .keyAwaited + s.isWaiting.toNat ≤ 1 := by
  have hle : ∀ t : Scheduler, t.isWaiting.toNat ≤ 1 := fun t => Bool.toNat_le t.isWaiting
  cases c with
  | runCycles n => exact (s.count_keyAwaited_runCycles n).trans_le (hle _)
  | runTick => exact s.count_keyAwaited_runTick.trans_le (hle _)
  | tickTimers =>
    show s.tickTimers.events.count .keyAwaited + _ ≤ 1
    rw [count_keyAwaited_tickTimers, Nat.zero_add]
    exact hle s
  | key k pressed => exact (Nat.zero_add _).trans_le (hle s)
  | reset program =>
    have he : (s.call (.reset program)).events.count .keyAwaited = 0 := by
      rw [call_reset]
      split
      · exact count_keyAwaited_toneChange _ _
      · rfl
    rw [he, Nat.zero_add]
    exact hle s

theorem count_keyAwaited_of_waiting (hw : s.isWaiting = true) (c : Call) :
    (s.call c).events.count .keyAwaited = 0 := by
  have hc := s.count_keyAwaited_call c
  rw [hw] at hc
  exact Nat.le_zero.mp (Nat.le_of_succ_le_succ hc)

theorem awaitKey_last {n : Nat} {pre post : List Instruction} {x : Register}
    (h : s.executed n = pre ++ .awaitKey x :: post) : post = [] :=
  Processor.trace_awaitKey_last h

theorem mem_keyAwaited_iff_last (s : Scheduler) (n : Nat) :
    .keyAwaited ∈ (s.runCycles n).events ↔ ∃ x, (s.executed n).getLast? = some (.awaitKey x) := by
  rw [mem_keyAwaited_runCycles]
  refine exists_congr fun x => ⟨fun h => ?_, List.mem_of_getLast?⟩
  obtain ⟨pre, post, hs⟩ := List.append_of_mem h
  rw [hs, awaitKey_last hs]
  exact List.getLast?_concat

/-- **Each wait for a key is announced exactly once.**  Start a scheduler with a processor that does
not wait.  Whatever the calls, the announcements so far are as many as the waits ended by the press
of a key, the resets that succeeded during a wait, and the wait that is pending, if one is.

From any scheduler on, no call announces more than one wait, and none does so while a wait is
pending; a batch announces one just if the last instruction it executes waits, and no other one
waits. -/
theorem waits_announced_once {p : Processor} (hp : p.isWaiting = false) (pace : Pace)
    (calls : List Call) :
    let visits := (start p pace).visits calls
    let announced := ((start p pace).history calls).count .keyAwaited
    let pending := ((start p pace).after calls).isWaiting
    announced = visits.countP (fun v => v.2.resolves v.1) +
      visits.countP (fun v => v.2.abandons v.1) + (if pending then 1 else 0) ∧
    (∀ (s : Scheduler) (c : Call),
      (s.call c).events.count .keyAwaited ≤ 1 ∧
      (s.isWaiting = true → .keyAwaited ∉ (s.call c).events)) ∧
    ∀ (s : Scheduler) (n : Nat),
      (.keyAwaited ∈ (s.runCycles n).events ↔
        ∃ x, (s.executed n).getLast? = some (.awaitKey x)) ∧
      ∀ pre x post, s.executed n = pre ++ .awaitKey x :: post → post = [] := by
  intro visits announced pending
  refine ⟨?_, ?_, ?_⟩
  · have hw : (start p pace).isWaiting = false := hp
    have hb := (start p pace).balanced_history calls
    rw [hw] at hb
    have ht : pending.toNat = if pending then 1 else 0 := by cases pending <;> rfl
    rw [← ht]
    exact hb
  · intro s c
    refine ⟨le_trans (Nat.le_add_right _ _) (s.count_keyAwaited_call c), ?_⟩
    intro hw
    exact List.count_eq_zero.mp (count_keyAwaited_of_waiting hw c)
  · intro s n
    exact ⟨s.mem_keyAwaited_iff_last n, fun pre x post => awaitKey_last⟩

/-- it waits for one key after the other -/
def inquiring : List UInt8 := [0xF0, 0x0A, 0xF1, 0x0A]

/-- the first wait ends with a key, the second begins at the end of a batch and is given up, the
third lasts -/
def inquirerCalls : List Call :=
  [.runCycles 5, .runTick, .key 3 false, .key 5 true, .runCycles 1, .reset inquiring, .runTick,
    .runCycles 2]

theorem waits_announced_once_inquirer :
    let s := start (.start (.ofProgram inquiring) (.ofSeed 0)) ⟨60, 4⟩
    (s.visits inquirerCalls).countP (fun v => v.2.resolves v.1) = 1 ∧
    (s.visits inquirerCalls).countP (fun v => v.2.abandons v.1) = 1 ∧
    (s.after inquirerCalls).isWaiting = true ∧
    (s.history inquirerCalls).count .keyAwaited = 3 := by
  intro s
  have h : (s.visits inquirerCalls).countP (fun v => v.2.resolves v.1) = 1 ∧
      (s.visits inquirerCalls).countP (fun v => v.2.abandons v.1) = 1 ∧
      (s.after inquirerCalls).isWaiting = true := by
    decide +kernel
  obtain ⟨hr, ha, hw⟩ := h
  have hs : (Processor.start (.ofProgram inquiring) (.ofSeed 0)).isWaiting = false := rfl
  obtain ⟨hc, -⟩ := waits_announced_once hs ⟨60, 4⟩ inquirerCalls
  refine ⟨hr, ha, hw, ?_⟩
  rw [hc, hr, ha, if_pos hw]

end Scheduler

end Chip8
