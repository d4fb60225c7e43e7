import Chip8.Proofs.Processor.Call
import Chip8.Proofs.Processor.Step

/-!
# Faults are final

A step that faults changes nothing but that the processor is stopped, and from then on every call
finds it stopped by the same fault, up to a reset with a program that fits.

* `Stopped`                      stopped by a fault, and no key is awaited;
* `Stopped.call`, `Stopped.after`    only a restart ends that;
* `fault_atomic_and_final`       all of it together.
-/

namespace Chip8.Processor

/-- the processor has been stopped by the fault, and waits for no key; the generator stands at
`g` -/
structure Stopped (fault : Fault) (g : Generator) (p : Processor) : Prop where
  halted : p.halted = some fault
  silent : p.machine.awaiting = none
  generator : p.generator = g

namespace Stopped
variable {fault : Fault} {g : Generator} {p : Processor}

theorem step_eq (h : Stopped fault g p) : p.step = (.faulted fault, p) := step_of_halted h.halted

theorem setKey_eq (h : Stopped fault g p) (k : Key) (pressed : Bool) :
    p.setKey k pressed = (false, { p with machine := p.machine.setKey k pressed }) :=
  setKey_of_silent h.silent k pressed

theorem call (h : Stopped fault g p) {c : Call} (hc : c.restarts = false) :
    Stopped fault g (p.call c).2 := by
  cases c with
  | step =>
    show Stopped fault g p.step.2
    rw [h.step_eq]
    exact h
  | tick => exact ⟨h.halted, h.silent, h.generator⟩
  | key k pressed =>
    show Stopped fault g (p.setKey k pressed).2
    rw [h.setKey_eq]
    exact ⟨h.halted, h.silent, h.generator⟩
  | reset program =>
    rw [call_reset, hc]
    exact h

/-- nothing but a reset that succeeds ends the halt -/
theorem halted_call_iff (h : Stopped fault g p) (c : Call) :
    (p.call c).2.halted = none ↔
      ∃ program fresh, c = .reset program ∧ p.reset program = .ok fresh := by
  constructor
  · intro hn
    cases hc : c.restarts with
    | false =>
      rw [(h.call hc).halted] at hn
      cases hn
    | true =>
      cases c with
      | reset program =>
        have hl : program.length ≤ Memory.maxProgramLength := by simpa [Call.restarts] using hc
        exact ⟨program, _, rfl, by rw [reset_eq, if_pos hl]⟩
      | _ => cases hc
  · rintro ⟨program, fresh, rfl, hr⟩
    have hf : fresh.halted = none := by
      rw [reset_eq] at hr
      split at hr
      · cases hr
        rfl
      · cases hr
    simp only [Processor.call, hr, hf]

theorem after (h : Stopped fault g p) {calls : List Call} (hc : ∀ c ∈ calls, c.restarts = false) :
    Stopped fault g (p.after calls) :=
  after_invariant (I := Stopped fault g) (fun c hm _ hq => hq.call (hc c hm)) h

end Stopped

/-- **A faulting step is atomic and final.**  Machine and generator are as before it, and the fault
tells the program counter.  Behind any calls among which no reset succeeds, steps answer with the
fault and change nothing, no key ends a wait, and nothing but a reset that succeeds ends the
halt. -/
theorem fault_atomic_and_final {p q : Processor} {fault : Fault} (hh : p.halted = none)
    (hw : p.isWaiting = false) (hs : p.step = (.faulted fault, q)) :
    q = { p with halted := some fault } ∧
    fault.programCounter = p.machine.programCounter ∧
    ∀ calls : List Call, (∀ c ∈ calls, c.restarts = false) →
      (q.after calls).halted = some fault ∧
      (q.after calls).generator = p.generator ∧
      (q.after calls).call .step = (.stepped (.faulted fault), q.after calls) ∧
      (∀ k pressed, ((q.after calls).call (.key k pressed)).1 = .keySet false) ∧
      ∀ c, ((q.after calls).call c).2.halted = none ↔
        ∃ program fresh, c = .reset program ∧ (q.after calls).reset program = .ok fresh := by
  cases p.stepCase with
  | halted e he h => rw [hh] at he; cases he
  | waiting hn hp h => rw [hw] at hp; cases hp
  | executed i flow last hn hp hd hx h => rw [hs] at h; cases h
  | faulted e hn hp hpc h =>
    rw [hs] at h
    cases h
    refine ⟨rfl, hpc, fun calls hc => ?_⟩
    have hq : Stopped fault p.generator { p with halted := some fault } :=
      ⟨rfl, isWaiting_eq_false_iff.mp hw, rfl⟩
    have hr := hq.after hc
    refine ⟨hr.halted, hr.generator, ?_, fun k pressed => ?_, fun c => ?_⟩
    · rw [call, hr.step_eq]
    · rw [call, hr.setKey_eq]
    · exact hr.halted_call_iff c

/-- a machine that is about to store four registers at the last but one byte of memory -/
def overrun : Processor :=
  start { Machine.ofProgram [] with
    memory := Memory.zeros.write Memory.programStart [0xF3, 0x55], index := 0xFFE, soundTimer := 1 }
    (Generator.ofSeed 0)

theorem overrun_step : overrun.step.1 = .faulted (.outOfBounds 0x200 0x1001) := by decide +kernel

/-- a tick, a key, a program that is too long and a step do not set it going again -/
theorem fault_atomic_and_final_overrun :
    overrun.step.2 = { overrun with halted := some (.outOfBounds 0x200 0x1001) } ∧
    (overrun.step.2.after [.tick, .key 3 true, .reset (List.replicate 3585 0), .step]).halted =
      some (.outOfBounds 0x200 0x1001) := by
  have hs : overrun.step = (.faulted (.outOfBounds 0x200 0x1001), overrun.step.2) := by
    rw [← overrun_step]
  have hc : ∀ c ∈ [Call.tick, .key 3 true, .reset (List.replicate 3585 0), .step],
      c.restarts = false := by
    simp only [List.forall_mem_cons, Call.restarts, List.length_replicate]
    decide
  have h := fault_atomic_and_final rfl rfl hs
  exact ⟨h.1, (h.2.2 _ hc).1⟩

end Chip8.Processor
