import Chip8.Proofs.Scheduler.Call

/-!
# The tone: what the speaker is told against the sound timer

The scheduler remembers what it told the speaker last, and makes up for the difference behind every
instruction, tick and reset.  So the speaker is told of every change of the sound timer between zero
and running, once and in order, and of nothing else.

* `Edge`, `edges`           the calls of a processor that start or stop the sound timer;
* `edge_cause`              which calls can do so;
* `Synced`, `tells_call`    what the speaker was told is so, and every call tells its edges;
* `tone_events_exact`       the same for any calls, and the shape of what the speaker is told.
-/

namespace Chip8

def Event.tone? : Event → Option Bool
  | .toneStarted => some true
  | .toneStopped => some false
  | _ => none

/-! ## edges of the sound timer -/

namespace Processor

theorem sounds_iff {p : Processor} : p.sounds = true ↔ p.machine.soundTimer ≠ 0 := bne_iff_ne

/-- a call that has started or stopped the sound timer, and what it has answered -/
structure Edge where
  call : Call
  answer : Answer
  starts : Bool
  deriving DecidableEq, Repr

/-- the calls, of those made one after the other, that start or stop the sound timer -/
def edges (p : Processor) : List Call → List Edge
  | [] => []
  | c :: calls =>
    let q := (p.call c).2
    (if q.sounds = p.sounds then [] else [⟨c, (p.call c).1, q.sounds⟩]) ++ q.edges calls

theorem edges_append (p : Processor) (a b : List Call) :
    p.edges (a ++ b) = p.edges a ++ (p.after a).edges b := by
  induction a generalizing p with
  | nil => rfl
  | cons c a ih => rw [List.cons_append, edges, edges, ih, List.append_assoc, after_cons]

/-- the timer runs at the end if it was started last, or ran before and was left alone -/
theorem sounds_after (p : Processor) (calls : List Call) :
    (p.after calls).sounds = ((p.edges calls).map Edge.starts).getLast?.getD p.sounds := by
  induction calls generalizing p with
  | nil => rfl
  | cons c calls ih =>
    rw [after_cons, ih, edges, List.map_append, List.getLast?_append]
    by_cases h : (p.call c).2.sounds = p.sounds
    · rw [if_pos h, h]
      simp
    · rw [if_neg h]
      simp

/-- starts and stops take turns, and the first one changes what was before -/
theorem edges_alternate {p : Processor} {calls : List Call} {k : Nat} {b : Bool}
    (h : ((p.edges calls).map Edge.starts)[k]? = some b) : b = !p.sounds ↔ k % 2 = 0 := by
  induction calls generalizing p k with
  | nil => cases h
  | cons c calls ih =>
    rw [edges] at h
    by_cases hs : (p.call c).2.sounds = p.sounds
    · rw [if_pos hs, List.nil_append] at h
      rw [← hs]
      exact ih h
    · rw [if_neg hs] at h
      have hq : (p.call c).2.sounds = !p.sounds := Bool.eq_not.mpr hs
      cases k with
      | zero =>
        cases h
        simp [hq]
      | succ k =>
        have hk : b = p.sounds ↔ k % 2 = 0 := by simpa [hq] using ih (k := k) h
        have hb : b = !p.sounds ↔ ¬ b = p.sounds := Bool.eq_not
        rw [hb, hk]
        omega

/-! ## what starts and stops it -/

theorem step_sounds (p : Processor) :
    p.step.2.sounds = p.sounds ∨ ∃ x, p.step.1 = .executed (.setSound x) := by
  obtain hs | ⟨i, hi, hw⟩ := p.step_same_or_writes .soundTimer
  · have ht : p.step.2.machine.soundTimer = p.machine.soundTimer := hs
    exact .inl (congrArg (· != 0) ht)
  · obtain ⟨x, rfl⟩ := writes_soundTimer hw
    exact .inr ⟨x, hi⟩

theorem setKey_sounds (p : Processor) (k : Key) (pressed : Bool) :
    (p.setKey k pressed).2.sounds = p.sounds := by
  have h : (p.setKey k pressed).2.machine.soundTimer = p.machine.soundTimer :=
    setKey_same .soundTimer k pressed nofun nofun fun _ => nofun
  exact congrArg (· != 0) h

theorem tickTimers_sounds {p : Processor} (h : p.tickTimers.sounds ≠ p.sounds) :
    p.tickTimers.sounds = false := by
  cases hp : p.sounds with
  | true =>
    rw [hp] at h
    simpa using h
  | false =>
    have hz : p.machine.soundTimer = 0 := by simpa [sounds] using hp
    simp [sounds, tickTimers, Machine.tickTimers, Machine.countDown, hz]

/-- what a call must be to start the sound timer, or to stop it -/
def Edge.Caused (e : Edge) : Prop :=
  (∃ x, e.answer = .stepped (.executed (.setSound x))) ∨
    e.starts = false ∧ (e.answer = .ticked ∨ e.answer = .reset none)

/-- **Only an instruction starts the sound timer; an instruction, a tick or a reset stops it.** -/
theorem edge_cause {p : Processor} {calls : List Call} {e : Edge} (he : e ∈ p.edges calls) :
    e.Caused := by
  induction calls generalizing p with
  | nil => cases he
  | cons c calls ih =>
    rw [edges, List.mem_append] at he
    obtain he | he := he
    · split at he
      · cases he
      · next hs =>
        rw [List.mem_singleton.mp he]
        cases c with
        | step =>
          obtain ⟨x, hx⟩ := p.step_sounds.resolve_left hs
          exact .inl ⟨x, congrArg Answer.stepped hx⟩
        | tick => exact .inr ⟨tickTimers_sounds hs, .inl rfl⟩
        | key k pressed => exact absurd (p.setKey_sounds k pressed) hs
        | reset program =>
          rw [call_reset] at hs ⊢
          split at hs
          · next hr =>
            rw [if_pos hr]
            exact .inr ⟨rfl, .inr rfl⟩
          · exact absurd rfl hs
    · exact ih he

end Processor

/-! ## what the speaker is told -/

namespace Scheduler
open Processor (Edge trace_executed)

def Synced (s : Scheduler) : Prop := s.tonePlaying = s.processor.sounds

theorem tones_eventsOf (i : Instruction) : (eventsOf i).filterMap Event.tone? = [] := by
  cases i <;> rfl

theorem tones_toneChange (playing wanted : Bool) :
    (toneChange playing wanted).filterMap Event.tone? =
      if wanted = playing then [] else [wanted] := by
  cases playing <;> cases wanted <;> rfl

theorem tones_picture (redraw : Bool) (screen : Screen) :
    (picture redraw screen).filterMap Event.tone? = [] := by
  cases redraw <;> rfl

theorem tones_told (p : Processor) (n : Nat) :
    (told p.sounds (p.trace n)).filterMap Event.tone? =
        (p.edges (List.replicate n .step)).map Edge.starts ∧
      toneAfter p.sounds (p.trace n) = (p.stepMany n).sounds := by
  induction n generalizing p with
  | zero => exact ⟨rfl, rfl⟩
  | succ n ih =>
    rw [List.replicate_succ, Processor.edges, Processor.stepMany_succ]
    obtain h | ⟨i, q, h⟩ := p.idle_or_executed
    · -- the batch has ended; the steps that are left out have no edges
      have hs : p.step.2.sounds = p.sounds := p.step_sounds.resolve_right fun ⟨_, hx⟩ => h _ hx
      obtain ⟨ht, ha⟩ := ih p.step.2
      rw [h.step.trace, hs] at ht ha
      rw [h.trace]
      refine ⟨?_, ha⟩
      rw [ht, Processor.call, if_pos hs]
      rfl
    · obtain ⟨ht, ha⟩ := ih q
      rw [trace_executed h, Processor.call, h]
      refine ⟨?_, ha⟩
      rw [told, List.filterMap_append, List.filterMap_append, tones_eventsOf, tones_toneChange, ht,
        List.map_append, List.nil_append]
      congr 1
      split
      · rfl
      · rfl

/-- the reply leaves the speaker told what is so, and has told it the edges of the moves -/
structure Tells (p : Processor) (moves : List Processor.Call) (r : Reply) : Prop where
  tones : r.events.filterMap Event.tone? = (p.edges moves).map Edge.starts
  synced : r.scheduler.Synced

theorem tones_single (p : Processor) (c : Processor.Call) :
    (toneChange p.sounds (p.call c).2.sounds).filterMap Event.tone? =
      (p.edges [c]).map Edge.starts := by
  rw [tones_toneChange, Processor.edges]
  split
  · rfl
  · rfl

section
variable {s : Scheduler}

theorem tells_runCycles (h : s.Synced) (n : Nat) :
    Tells s.processor (List.replicate n .step) (s.runCycles n) := by
  obtain ⟨ht, ha⟩ := tones_told s.processor n
  rw [runCycles_eq, h]
  refine ⟨?_, ha⟩
  rw [List.filterMap_append, tones_picture, List.append_nil]
  exact ht

theorem tells_tickTimers (h : s.Synced) : Tells s.processor [.tick] s.tickTimers := by
  rw [tickTimers_eq, h]
  exact ⟨tones_single s.processor .tick, rfl⟩

theorem tells_runTick (h : s.Synced) : Tells s.processor (s.moves .runTick) s.runTick := by
  have hb := tells_runCycles h s.batchSize
  have hp : (s.runCycles s.batchSize).scheduler.processor =
      s.processor.after (List.replicate s.batchSize .step) :=
    s.processor_call (.runCycles s.batchSize)
  rw [runTick_eq, moves]
  cases (s.runCycles s.batchSize).fault with
  | some fault =>
    dsimp only
    rw [List.append_nil]
    exact hb
  | none =>
    have ht := tells_tickTimers hb.synced
    refine ⟨?_, ht.synced⟩
    dsimp only
    rw [List.filterMap_append, hb.tones, ht.tones, hp, Processor.edges_append, List.map_append]

/-- **Every call tells the speaker its edges.** -/
theorem tells_call (h : s.Synced) (c : Call) : Tells s.processor (s.moves c) (s.call c) := by
  cases c with
  | runCycles n => exact tells_runCycles h n
  | runTick => exact tells_runTick h
  | tickTimers => exact tells_tickTimers h
  | key k pressed =>
    have hk := s.processor.setKey_sounds k pressed
    refine ⟨?_, h.trans hk.symm⟩
    rw [moves, Processor.edges, Processor.call, if_pos hk]
    rfl
  | reset program =>
    have hr := tones_single s.processor (.reset program)
    rw [call_reset, moves]
    rw [Processor.call_reset] at hr
    split
    · next hf =>
      rw [if_pos hf] at hr
      rw [h]
      exact ⟨hr, rfl⟩
    · next hf =>
      rw [if_neg hf] at hr
      exact ⟨by rw [← hr, tones_toneChange, if_pos rfl]; rfl, h⟩

theorem tones_history (h : s.Synced) (calls : List Call) :
    (s.history calls).filterMap Event.tone? =
      (s.processor.edges (s.allMoves calls)).map Edge.starts := by
  induction calls generalizing s with
  | nil => rfl
  | cons c calls ih =>
    have hc := tells_call h c
    rw [history, List.filterMap_append, hc.tones, ih hc.synced, processor_call, allMoves,
      Processor.edges_append, List.map_append]

end

/-- **The speaker is told every change of the sound timer, and nothing else.**  From a processor
with a silent sound timer on, whatever the calls, the events of the tone are the edges of the sound
timer, in order.  An edge up is an instruction, an edge down an instruction, a tick or a reset.
Starts and stops take turns beginning with a start, and behind every call the last one tells whether
the timer runs. -/
theorem tone_events_exact {p : Processor} (hp : p.machine.soundTimer = 0) (pace : Pace)
    (calls : List Call) :
    let s := start p pace
    let edges := p.edges (s.allMoves calls)
    let tones := (s.history calls).filterMap Event.tone?
    (s.after calls).processor = p.after (s.allMoves calls) ∧
    tones = edges.map Edge.starts ∧
    (∀ e ∈ edges, e.Caused) ∧
    (∀ k b, tones[k]? = some b → (b = true ↔ k % 2 = 0)) ∧
    (tones.getLast? = some true ↔ (s.after calls).processor.machine.soundTimer ≠ 0) := by
  have hs : p.sounds = false := by simp [Processor.sounds, hp]
  have hy : (start p pace).Synced := hs.symm
  have ht : ((start p pace).history calls).filterMap Event.tone? =
      (p.edges ((start p pace).allMoves calls)).map Edge.starts := tones_history hy calls
  have ha : ((start p pace).after calls).processor = p.after ((start p pace).allMoves calls) :=
    processor_after _ calls
  refine ⟨ha, ht, fun e he => Processor.edge_cause he, fun k b hk => ?_, ?_⟩
  · rw [ht] at hk
    have hb := Processor.edges_alternate hk
    rw [hs] at hb
    exact hb
  · have hl := p.sounds_after ((start p pace).allMoves calls)
    rw [hs, ← ht, ← ha] at hl
    rw [← Processor.sounds_iff, hl]
    cases (((start p pace).history calls).filterMap Event.tone?).getLast? with
    | none => simp
    | some b => simp

def beep : Processor :=
  Processor.start { Machine.ofProgram [] with
    memory := Memory.zeros.write Memory.programStart [0x60, 0x02, 0xF0, 0x18] } (Generator.ofSeed 0)

/-- a batch, and what follows until a tick has stopped the tone and a reset finds it stopped -/
def beepCalls : List Call :=
  [.runCycles 2, .key 3 true, .runTick, .tickTimers, .reset [], .runTick]

theorem tone_events_exact_beep :
    ((start beep ⟨60, 1⟩).history beepCalls).filterMap Event.tone? = [true, false] ∧
    ((start beep ⟨60, 1⟩).after beepCalls).processor.machine.soundTimer = 0 := by
  have h := tone_events_exact (p := beep) rfl ⟨60, 1⟩ beepCalls
  have ht : ((start beep ⟨60, 1⟩).history beepCalls).filterMap Event.tone? = [true, false] := by
    decide +kernel
  refine ⟨ht, ?_⟩
  by_cases hz : ((start beep ⟨60, 1⟩).after beepCalls).processor.machine.soundTimer = 0
  · exact hz
  · have hl := h.2.2.2.2.mpr hz
    rw [ht] at hl
    cases hl

end Scheduler

end Chip8
