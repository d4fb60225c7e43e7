import Chip8.Processor
import Chip8.Proofs.Machine.Frame

/-!
# Calls of a processor

Whoever owns a processor steps it, ticks its timers, presses and releases keys, and resets it, in
any order.

* `Call`, `Answer`, `call`     one of these, and what it answers;
* `after`                      the processor behind a list of calls;
* `Call.restarts`              a reset that succeeds, which depends on its program alone;
* `setKey_of_silent`, `setKey_same`    what a key does while none is awaited, and what it leaves
                               alone;
* `after_invariant`            what each of the calls keeps, all of them keep.
-/

namespace Chip8.Processor

inductive Call
  | step
  | tick
  | key (k : Key) (pressed : Bool)
  | reset (program : List UInt8)
  deriving DecidableEq, Repr

inductive Answer
  | stepped (outcome : Outcome)
  | ticked
  /-- whether the key has ended a wait -/
  | keySet (resolved : Bool)
  /-- why the program was not loaded, if it was not -/
  | reset (refusal : Option ProgramTooLong)
  deriving DecidableEq, Repr

def call (p : Processor) : Call → Answer × Processor
  | .step => (.stepped p.step.1, p.step.2)
  | .tick => (.ticked, p.tickTimers)
  | .key k pressed => (.keySet (p.setKey k pressed).1, (p.setKey k pressed).2)
  | .reset program =>
    match p.reset program with
    | .ok fresh => (.reset none, fresh)
    | .error refusal => (.reset (some refusal), p)

def after (p : Processor) : List Call → Processor
  | [] => p
  | c :: calls => (p.call c).2.after calls

/-! ## lists of calls -/

@[simp] theorem after_nil (p : Processor) : p.after [] = p := rfl

@[simp] theorem after_cons (p : Processor) (c : Call) (calls : List Call) :
    p.after (c :: calls) = (p.call c).2.after calls := rfl

theorem after_append (p : Processor) (a b : List Call) :
    p.after (a ++ b) = (p.after a).after b := by
  induction a generalizing p with
  | nil => rfl
  | cons c a ih => exact ih (p.call c).2

theorem after_concat (p : Processor) (calls : List Call) (c : Call) :
    p.after (calls ++ [c]) = ((p.after calls).call c).2 := p.after_append calls [c]

theorem after_invariant {I : Processor → Prop} {calls : List Call}
    (h : ∀ c ∈ calls, ∀ p, I p → I (p.call c).2) {p : Processor} (hp : I p) :
    I (p.after calls) := by
  induction calls generalizing p with
  | nil => exact hp
  | cons c calls ih =>
    have hc := h c List.mem_cons_self p hp
    exact ih (fun d hd => h d (List.mem_cons_of_mem c hd)) hc

/-! ## keys -/

/-- a key goes into the set of pressed keys, and ends a wait if it is pressed during one -/
theorem setKey_cases (p : Processor) (k : Key) (pressed : Bool) :
    ((p.machine.awaiting = none ∨ pressed = false) ∧
      p.setKey k pressed = (false, { p with machine := p.machine.setKey k pressed })) ∨
    ∃ x, p.machine.awaiting = some x ∧ pressed = true ∧
      p.setKey k pressed = (true, { p with
        machine := { p.machine.setKey k true with awaiting := none }.setRegister x
          (UInt8.ofNat k.val) }) := by
  have ha : (p.machine.setKey k pressed).awaiting = p.machine.awaiting := rfl
  unfold setKey
  cases hw : p.machine.awaiting with
  | none => simp [ha, hw]
  | some x =>
    cases pressed with
    | false => simp [ha, hw]
    | true => simp [ha, hw]

theorem isWaiting_eq_false_iff {p : Processor} :
    p.isWaiting = false ↔ p.machine.awaiting = none := by
  rw [isWaiting, Option.isSome_eq_false_iff, Option.isNone_iff_eq_none]

/-- no key is taken while none is awaited -/
theorem setKey_of_silent {p : Processor} (h : p.machine.awaiting = none) (k : Key)
    (pressed : Bool) :
    p.setKey k pressed = (false, { p with machine := p.machine.setKey k pressed }) := by
  obtain ⟨-, hs⟩ | ⟨x, hx, -⟩ := p.setKey_cases k pressed
  · exact hs
  · cases h.symm.trans hx

/-- a key changes nothing but keys, the wait it ends and the register that has waited -/
theorem setKey_same (part : Part) {p : Processor} (k : Key) (pressed : Bool) (hk : part ≠ .keys)
    (ha : part ≠ .awaiting) (hr : ∀ x, part ≠ .register x) :
    part.Same p.core (p.setKey k pressed).2.core := by
  cases part with
  | keys => exact absurd rfl hk
  | awaiting => exact absurd rfl ha
  | register x => exact absurd rfl (hr x)
  | _ =>
    obtain ⟨-, h⟩ | ⟨x, -, -, h⟩ := p.setKey_cases k pressed
    · rw [h]
      rfl
    · rw [h]
      rfl

/-! ## resets -/

/-- the call is a reset with a program that fits -/
def Call.restarts : Call → Bool
  | .reset program => program.length ≤ Memory.maxProgramLength
  | _ => false

def Call.isReset : Call → Bool
  | .reset _ => true
  | _ => false

theorem reset_eq (p : Processor) (program : List UInt8) :
    p.reset program =
      if program.length ≤ Memory.maxProgramLength then
        .ok (start (Machine.ofProgram program) p.generator)
      else .error ⟨program.length⟩ := by
  unfold reset load Machine.load
  split
  · rfl
  · rfl

/-- a reset either starts afresh and keeps only the generator, or changes nothing -/
theorem call_reset (p : Processor) (program : List UInt8) :
    p.call (.reset program) =
      if (Call.reset program).restarts then
        (.reset none, start (Machine.ofProgram program) p.generator)
      else (.reset (some ⟨program.length⟩), p) := by
  by_cases h : program.length ≤ Memory.maxProgramLength
  · simp [call, Call.restarts, reset_eq, h]
  · simp [call, Call.restarts, reset_eq, h]

end Chip8.Processor
