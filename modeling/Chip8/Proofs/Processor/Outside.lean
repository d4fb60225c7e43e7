import Mathlib.Data.List.DropRight
import Chip8.Proofs.Machine.Outside
import Chip8.Proofs.Processor.Call
import Chip8.Proofs.Processor.Overlook

/-!
# Keys and timers between the steps

A step does the same whatever keys are pressed and wherever the timers stand, unless its instruction
heeds them.  Which keys are pressed depends on the calls alone.

* `Processor.facing`, `step_facing`    a step with other keys and timers;
* `setKey_of_running`                  a key while none is awaited;
* `Call.lastSet`                       how a key has been set last, since the last restart;
* `isDown_after`                       so it is.
-/

namespace Chip8

/-- an instruction that heeds what is outside does not fault -/
theorem Instruction.total_of_heedsOutside {i : Instruction} (h : i.heedsOutside = true) :
    i.execute.Total := by
  cases i with
  | readDelay x => exact Action.total_update _
  | setDelay x => exact Action.total_update _
  | setSound x => exact Action.total_update _
  | awaitKey x => exact Action.total_update _
  | skip condition => exact fun _ => ⟨_, _, rfl⟩
  | _ => cases h

theorem Machine.isDown_setKey (m : Machine) (j k : Key) (pressed : Bool) :
    (m.setKey j pressed).isDown k = if j = k then pressed else m.isDown k := by
  show (m.keys.set j pressed)[k.val] = if j = k then pressed else m.keys[k.val]
  simp [Vector.getElem_set, Fin.ext_iff]

theorem Machine.isDown_congr {m n : Machine} (h : n.keys = m.keys) (k : Key) :
    n.isDown k = m.isDown k := by
  rw [isDown, h, isDown]

theorem Machine.isDown_ofProgram (program : List UInt8) (k : Key) :
    (Machine.ofProgram program).isDown k = false := Vector.getElem_replicate k.isLt

namespace Processor
open Chip8.Action

/-- the processor with other timers and keys -/
def facing (p : Processor) (o : Outside) : Processor := { p with machine := p.machine.facing o }

@[simp] theorem facing_outside (p : Processor) : p.facing p.machine.outside = p := rfl

@[simp] theorem facing_facing (p : Processor) (o o' : Outside) :
    (p.facing o).facing o' = p.facing o' := rfl

/-! ## a step -/

theorem step_of_total {p : Processor} {i : Instruction} (hh : p.halted = none)
    (hw : p.isWaiting = false) (hd : decodeNext p.machine = .ok i) (ht : i.execute.Total) :
    p.step.1 = .executed i := by
  obtain ⟨flow, after, hx⟩ := ht p.core
  exact executed_of_run hh hw hd hx

/-- **A step whose instruction does not heed what is outside does the same whatever it is.** -/
theorem step_facing {p : Processor} (hw : p.isWaiting = false)
    (h : ∀ i, p.step.1 = .executed i → i.heedsOutside = false) (o : Outside) :
    (p.facing o).step = (p.step.1, p.step.2.facing o) := by
  refine step_changed (g := (·.facing o)) rfl fun hh _ =>
    executeNext_changed (aside_facing o) p.core rfl fun i hd => i.execute_blind ?_ p.core o
  cases he : i.heedsOutside with
  | false => rfl
  | true => exact he.symm.trans (h i (step_of_total hh hw hd (i.total_of_heedsOutside he)))

/-- waiting for a key is heeding what is outside -/
theorem isWaiting_step {p : Processor} (hw : p.isWaiting = false)
    (h : ∀ i, p.step.1 = .executed i → i.heedsOutside = false) : p.step.2.isWaiting = false := by
  have hs : p.step.2.machine.awaiting = p.machine.awaiting := by
    refine step_same .awaiting fun i hi => ?_
    cases hwr : i.writes .awaiting with
    | false => rfl
    | true =>
      obtain ⟨x, rfl⟩ := writes_awaiting hwr
      exact absurd (h _ hi) nofun
  rw [isWaiting, hs]
  exact hw

/-! ## the keys -/

theorem setKey_of_running {p : Processor} (hw : p.isWaiting = false) (k : Key) (pressed : Bool) :
    p.setKey k pressed = (false, p.facing (p.machine.setKey k pressed).outside) :=
  setKey_of_silent (isWaiting_eq_false_iff.mp hw) k pressed

/-- how a call sets the key, if it does -/
def Call.keyOf? (k : Key) : Call → Option Bool
  | .key j pressed => if j = k then some pressed else none
  | _ => none

/-- the calls since the last restart -/
def Call.sinceRestart (calls : List Call) : List Call := calls.rtakeWhile fun c => !c.restarts

/-- how the calls have set the key last, since the last restart, if they have -/
def Call.lastSet (k : Key) (calls : List Call) : Option Bool :=
  ((sinceRestart calls).filterMap (keyOf? k)).getLast?

theorem Call.lastSet_concat (k : Key) (calls : List Call) (c : Call) :
    lastSet k (calls ++ [c]) =
      if c.restarts then none else (c.keyOf? k).or (lastSet k calls) := by
  unfold lastSet sinceRestart
  rw [List.rtakeWhile_concat]
  cases c.restarts with
  | true => rfl
  | false => cases hk : c.keyOf? k <;> simp [hk]

theorem Call.restarts_of_isReset {c : Call} (h : c.isReset = false) : c.restarts = false := by
  cases c with
  | reset program => cases h
  | _ => rfl

theorem isDown_call (p : Processor) (c : Call) (k : Key) :
    (p.call c).2.machine.isDown k =
      if c.restarts then false else (c.keyOf? k).getD (p.machine.isDown k) := by
  cases c with
  | step =>
    have hs : p.step.2.machine.keys = p.machine.keys := step_same .keys fun i _ => writes_keys i
    exact Machine.isDown_congr hs k
  | tick => rfl
  | key j pressed =>
    have hs : (p.setKey j pressed).2.machine.keys = (p.machine.setKey j pressed).keys := by
      obtain ⟨-, h⟩ | ⟨x, -, rfl, h⟩ := p.setKey_cases j pressed
      · rw [h]
      · rw [h]
        rfl
    refine (Machine.isDown_congr hs k).trans ?_
    rw [Machine.isDown_setKey, Call.keyOf?]
    split <;> rfl
  | reset program =>
    rw [call_reset]
    cases (Call.reset program).restarts with
    | true => exact Machine.isDown_ofProgram program k
    | false => rfl

/-- **A key is as it has been set last.** -/
theorem isDown_after (p : Processor) (calls : List Call) (k : Key) :
    (p.after calls).machine.isDown k =
      (Call.lastSet k calls).getD (p.machine.isDown k && !calls.any Call.restarts) := by
  induction calls using List.reverseRecOn with
  | nil => simp [Call.lastSet, Call.sinceRestart]
  | append_singleton calls c ih =>
    rw [after_concat, isDown_call, ih, Call.lastSet_concat]
    cases hr : c.restarts with
    | true => simp [hr]
    | false => cases c.keyOf? k <;> simp [hr]

theorem isDown_after_of_isReset (p : Processor) {calls : List Call}
    (hc : ∀ c ∈ calls, c.isReset = false) (k : Key) :
    (p.after calls).machine.isDown k =
      ((calls.filterMap (Call.keyOf? k)).getLast?).getD (p.machine.isDown k) := by
  have hr : ∀ c ∈ calls, c.restarts = false := fun c hm => Call.restarts_of_isReset (hc c hm)
  have hs : Call.sinceRestart calls = calls :=
    List.rtakeWhile_eq_self_iff.mpr fun c hm => by rw [hr c hm]; rfl
  have ha : calls.any Call.restarts = false := List.any_eq_false.mpr fun c hm => by simp [hr c hm]
  rw [isDown_after, Call.lastSet, hs, ha, Bool.not_false, Bool.and_true]

end Processor

end Chip8
