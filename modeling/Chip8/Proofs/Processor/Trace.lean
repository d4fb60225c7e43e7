import Chip8.Proofs.Processor.Call
import Chip8.Proofs.Processor.Step

/-!
# Bare steps, and what is executed in them

Steps are counted here whatever they answer.  Once a step executes nothing, no later one does and
nothing changes any more, so whoever stops there has the processor of all the steps that were left.

* `stepMany`       the processor behind `n` steps;
* `trace`          the instructions executed in them, each with the processor behind it;
* `lastFault`      the fault the last of them answers with;
* `Idle`           the next step executes nothing, nor does any later one.

All of them split at any place: `stepMany_add`, `trace_add`, `lastFault_add`.
-/

namespace Chip8

def Outcome.fault? : Outcome → Option Fault
  | .faulted fault => some fault
  | _ => none

namespace Processor

def stepMany (p : Processor) (n : Nat) : Processor := p.after (List.replicate n .step)

/-- the instructions executed in `n` steps, each with the processor behind it -/
def trace (p : Processor) : Nat → List (Instruction × Processor)
  | 0 => []
  | n + 1 =>
    match p.step with
    | (.executed instruction, q) => (instruction, q) :: q.trace n
    | (_, q) => q.trace n

def lastFault (p : Processor) : Nat → Option Fault
  | 0 => none
  | n + 1 => (p.stepMany n).step.1.fault?

def Idle (p : Processor) : Prop := ∀ instruction, p.step.1 ≠ .executed instruction

variable {p q : Processor} {i : Instruction} {fault : Fault}

theorem stepMany_zero (p : Processor) : p.stepMany 0 = p := rfl

theorem stepMany_succ (p : Processor) (n : Nat) : p.stepMany (n + 1) = p.step.2.stepMany n := rfl

theorem trace_zero (p : Processor) : p.trace 0 = [] := rfl

theorem trace_executed (h : p.step = (.executed i, q)) (n : Nat) :
    p.trace (n + 1) = (i, q) :: q.trace n := by
  rw [trace, h]

theorem lastFault_executed (h : p.step = (.executed i, q)) (n : Nat) :
    p.lastFault (n + 1) = q.lastFault n := by
  cases n with
  | zero =>
    show p.step.1.fault? = none
    rw [h]
    rfl
  | succ n =>
    show (p.step.2.stepMany n).step.1.fault? = _
    rw [h]
    rfl

/-! ## nothing more is executed -/

theorem idle_of_waiting (h : p.step = (.waiting, q)) : p.Idle := by
  intro j hj
  rw [h] at hj
  cases hj

theorem idle_of_faulted (h : p.step = (.faulted fault, q)) : p.Idle := by
  intro j hj
  rw [h] at hj
  cases hj

theorem idle_or_executed (p : Processor) : p.Idle ∨ ∃ i q, p.step = (.executed i, q) := by
  cases hs : p.step with
  | mk outcome q =>
    cases outcome with
    | executed i => exact .inr ⟨i, q, rfl⟩
    | waiting => exact .inl (idle_of_waiting hs)
    | faulted fault => exact .inl (idle_of_faulted hs)

namespace Idle

theorem step (h : p.Idle) : p.step.2.Idle := by
  intro i hi
  rw [step_repeat h] at hi
  exact h i hi

/-- every later step answers the same -/
theorem step_stepMany (h : p.Idle) (n : Nat) : (p.stepMany n).step = p.step := by
  induction n generalizing p with
  | zero => rfl
  | succ n ih =>
    rw [stepMany_succ, ih h.step]
    exact step_repeat h

theorem stepMany_succ (h : p.Idle) (n : Nat) : p.stepMany (n + 1) = p.step.2 := by
  induction n generalizing p with
  | zero => rfl
  | succ n ih =>
    rw [Processor.stepMany_succ, ih h.step, step_repeat h]

theorem trace (h : p.Idle) (n : Nat) : p.trace n = [] := by
  induction n generalizing p with
  | zero => rfl
  | succ n ih =>
    unfold Processor.trace
    split
    · next i q hs => exact absurd (congrArg Prod.fst hs) (h i)
    · next outcome q _ hs =>
      have hq : q = p.step.2 := by rw [hs]
      rw [hq]
      exact ih h.step

theorem lastFault_succ (h : p.Idle) (n : Nat) : p.lastFault (n + 1) = p.step.1.fault? := by
  show (p.stepMany n).step.1.fault? = _
  rw [h.step_stepMany]

end Idle

/-! ## the steps cut in two -/

theorem stepMany_add (p : Processor) (m n : Nat) :
    p.stepMany (m + n) = (p.stepMany m).stepMany n := by
  unfold stepMany
  rw [← List.replicate_append_replicate, after_append]

theorem trace_add (p : Processor) (m n : Nat) :
    p.trace (m + n) = p.trace m ++ (p.stepMany m).trace n := by
  induction m generalizing p with
  | zero => rw [Nat.zero_add, trace_zero, stepMany_zero, List.nil_append]
  | succ m ih =>
    rw [Nat.succ_add]
    obtain h | ⟨i, q, h⟩ := p.idle_or_executed
    · rw [h.trace, h.trace, h.stepMany_succ, h.step.trace]
      rfl
    · rw [trace_executed h, trace_executed h, ih q, stepMany_succ, h]
      rfl

/-- a fault is answered to all steps from the first one on that it is answered to -/
theorem lastFault_add (p : Processor) (m n : Nat) :
    p.lastFault (m + n) = some fault ↔
      p.lastFault m = some fault ∨ (p.stepMany m).lastFault n = some fault := by
  induction m generalizing p with
  | zero => simp [lastFault, stepMany_zero]
  | succ m ih =>
    rw [Nat.succ_add]
    obtain h | ⟨i, q, h⟩ := p.idle_or_executed
    · -- all answers are the first one, in either part
      rw [h.lastFault_succ, h.lastFault_succ, h.stepMany_succ]
      cases n with
      | zero => simp [lastFault]
      | succ n => rw [h.step.lastFault_succ, step_repeat h, or_self]
    · rw [lastFault_executed h, lastFault_executed h, ih q, stepMany_succ, h]

/-- what none of the instructions writes is as before -/
theorem stepMany_same {n : Nat} (part : Part) (h : ∀ x ∈ p.trace n, x.1.writes part = false) :
    part.Same p.core (p.stepMany n).core := by
  induction n generalizing p with
  | zero => exact Part.Same.refl
  | succ n ih =>
    obtain hi | ⟨i, q, hs⟩ := p.idle_or_executed
    · rw [hi.stepMany_succ]
      exact step_same part fun j hj => absurd hj (hi j)
    · rw [trace_executed hs] at h
      have hw : i.writes part = false := h (i, q) List.mem_cons_self
      have hp : part.Same p.core p.step.2.core := by
        refine step_same part fun j hj => ?_
        rw [hs] at hj
        cases hj
        exact hw
      rw [stepMany_succ]
      rw [hs] at hp ⊢
      exact hp.trans (ih fun x hx => h x (List.mem_cons_of_mem _ hx))

end Processor

end Chip8
