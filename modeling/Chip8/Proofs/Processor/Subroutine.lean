import Chip8.Proofs.Processor.Call
import Chip8.Proofs.Processor.Step

/-!
# Calls of subroutines and their returns

As long as a call has not returned, the stack as it was at the call, with the return address on
top, stands untouched at the bottom of the stack.  The return address goes away only by the return
that jumps to it, which leaves the stack as it was at the call.

* `step_stack`             the three things a step can do to the stack;
* `Pending`                a call that has not returned;
* `Pending.call`           after every call of the processor it still has not, or it has just then;
* `subroutine_returns`     the same along a run.
-/

namespace Chip8.Processor

/-! ## the stack in a step -/

theorem step_call {p q : Processor} {target : Address}
    (hs : p.step = (.executed (.call target), q)) :
    p.machine.stack.push (p.machine.programCounter + 2) = .ok q.machine.stack := by
  obtain ⟨-, flow, after, hx, rfl⟩ := step_executed hs
  rw [Instruction.run_execute_call] at hx
  split at hx
  · next stack hp =>
    cases hx
    exact hp
  · cases hx

theorem step_ret {p q : Processor} (hs : p.step = (.executed .ret, q)) :
    p.machine.stack.pop = some (q.machine.programCounter, q.machine.stack) := by
  obtain ⟨-, flow, after, hx, rfl⟩ := step_executed hs
  rw [Instruction.run_execute_ret] at hx
  split at hx
  · next address stack hp =>
    cases hx
    exact hp
  · cases hx

theorem step_stack (p : Processor) :
    p.step.2.machine.stack = p.machine.stack ∨
      (∃ target, p.step.1 = .executed (.call target)) ∨ p.step.1 = .executed .ret := by
  obtain hs | ⟨i, hi, hw⟩ := p.step_same_or_writes .stack
  · exact .inl hs
  · obtain ⟨target, rfl⟩ | rfl := writes_stack hw
    · exact .inr (.inl ⟨target, hi⟩)
    · exact .inr (.inr hi)

theorem call_stack {p : Processor} {c : Call} (hc : c.isReset = false) (hs : c ≠ .step) :
    (p.call c).2.machine.stack = p.machine.stack := by
  cases c with
  | step => exact absurd rfl hs
  | tick => rfl
  | key k pressed => exact setKey_same .stack k pressed nofun nofun fun _ => nofun
  | reset program => cases hc

/-! ## a call that has not returned -/

/-- on the stack `base` there is the return address `ret`, and whatever came later -/
structure Pending (base : CallStack) (ret : UInt16) (s : CallStack) : Prop where
  capacity : s.capacity = base.capacity
  prefixed : base.toList ++ [ret] <+: s.toList

theorem Pending.push {base s t : CallStack} {ret address : UInt16} (h : Pending base ret s)
    (hp : s.push address = .ok t) : Pending base ret t := by
  obtain ⟨hl, hc⟩ := CallStack.toList_push hp
  refine ⟨hc.trans h.capacity, ?_⟩
  rw [hl]
  exact List.prefix_append_of_prefix h.prefixed

/-- a pop takes the return address off only if nothing else is left above the base -/
theorem Pending.pop {base s t : CallStack} {ret address : UInt16} (h : Pending base ret s)
    (hp : s.pop = some (address, t)) : Pending base ret t ∨ t = base ∧ address = ret := by
  obtain ⟨hl, hc⟩ := CallStack.toList_pop hp
  have hb := h.prefixed
  rw [hl, List.prefix_concat_iff] at hb
  obtain he | hb := hb
  · obtain ⟨hb, ha⟩ := List.append_inj' he rfl
    right
    exact ⟨CallStack.ext_toList hb.symm (hc.trans h.capacity), (List.cons.inj ha).1.symm⟩
  · exact .inl ⟨hc.trans h.capacity, hb⟩

theorem Pending.size_lt {base s : CallStack} {ret : UInt16} (h : Pending base ret s) :
    base.size < s.size := by
  have hl := h.prefixed.length_le
  simp only [List.length_append, CallStack.length_toList, List.length_singleton] at hl
  omega

/-- no call but the return that jumps to the return address ends a call of a subroutine -/
theorem Pending.call {base : CallStack} {ret : UInt16} {p : Processor}
    (h : Pending base ret p.machine.stack) {c : Call} (hc : c.isReset = false) :
    Pending base ret (p.call c).2.machine.stack ∨
      c = .step ∧ p.step.1 = .executed .ret ∧ p.step.2.machine.stack = base ∧
        p.step.2.machine.programCounter = ret := by
  by_cases hs : c = .step
  · subst hs
    show Pending base ret p.step.2.machine.stack ∨ _
    obtain he | ⟨target, ht⟩ | hr := p.step_stack
    · left
      rw [he]
      exact h
    · exact .inl (h.push (step_call (Prod.ext ht rfl)))
    · obtain hk | ⟨hb, ha⟩ := h.pop (step_ret (Prod.ext hr rfl))
      · exact .inl hk
      · exact .inr ⟨rfl, hr, hb, ha⟩
  · left
    rw [call_stack hc hs]
    exact h

/-- while the stack is longer than at the call, the subroutine has not returned -/
theorem Pending.after {base : CallStack} {ret : UInt16} {p : Processor} {calls : List Call}
    (h : Pending base ret p.machine.stack) (hc : ∀ c ∈ calls, c.isReset = false)
    (hl : ∀ n, base.size < (p.after (calls.take n)).machine.stack.size) :
    Pending base ret (p.after calls).machine.stack := by
  induction calls generalizing p with
  | nil => exact h
  | cons c calls ih =>
    obtain hk | ⟨rfl, -, hb, -⟩ := h.call (hc c List.mem_cons_self)
    · exact ih hk (fun d hd => hc d (List.mem_cons_of_mem c hd)) fun n => hl (n + 1)
    · -- it has returned, so the stack is no longer than the base, against `hl`
      have h1 : base.size < p.step.2.machine.stack.size := hl 1
      rw [hb] at h1
      exact absurd h1 (Nat.lt_irrefl _)

/-- **A subroutine returns behind its call, with the stack as it was there.**  While the stack is
longer than at the call, the addresses at the call and the return address are the oldest ones on it;
and what makes it as short again is a return to the return address, which leaves the stack of the
call.  The return address does not wrap around. -/
theorem subroutine_returns {p q : Processor} {target : Address}
    (hs : p.step = (.executed (.call target), q)) {calls : List Call}
    (hc : ∀ c ∈ calls, c.isReset = false)
    (hl : ∀ n, p.machine.stack.size < (q.after (calls.take n)).machine.stack.size) :
    (p.machine.programCounter + 2).toNat = p.machine.programCounter.toNat + 2 ∧
    q.machine.stack.toList = p.machine.stack.toList ++ [p.machine.programCounter + 2] ∧
    p.machine.stack.toList ++ [p.machine.programCounter + 2] <+:
      (q.after calls).machine.stack.toList ∧
    ∀ c, c.isReset = false →
      ((q.after calls).call c).2.machine.stack.size ≤ p.machine.stack.size →
      c = .step ∧ (q.after calls).step.1 = .executed .ret ∧
        (q.after calls).step.2.machine.stack = p.machine.stack ∧
        (q.after calls).step.2.machine.programCounter = p.machine.programCounter + 2 := by
  obtain ⟨ht, hcap⟩ := CallStack.toList_push (step_call hs)
  have hq : Pending p.machine.stack (p.machine.programCounter + 2) q.machine.stack :=
    ⟨hcap, ht ▸ List.prefix_rfl⟩
  have hr := hq.after hc hl
  refine ⟨?_, ht, hr.prefixed, fun c hcr hle => ?_⟩
  · have hm : p.machine.programCounter.toNat + 2 ≤ 4096 :=
      covers_of_decodeNext (step_executed hs).1
    rw [UInt16.toNat_add]
    exact Nat.mod_eq_of_lt (by simp; omega)
  · obtain hk | hd := hr.call hcr
    · exact absurd hk.size_lt (Nat.not_lt.mpr hle)
    · exact hd

/-- a machine with a subroutine at 0x204 that first calls its own end -/
def nested : Processor :=
  start { Machine.ofProgram [] with
    memory := Memory.zeros.write Memory.programStart [0x22, 0x04, 0, 0, 0x22, 0x06, 0x00, 0xEE] }
    (Generator.ofSeed 0)

def nestedCalls : List Call := [.step, .tick, .key 3 true, .step]

theorem nested_step : nested.step.1 = .executed (.call 0x204) := by decide +kernel

theorem nested_deeper (n : Nat) :
    0 < (nested.step.2.after (nestedCalls.take n)).machine.stack.size := by
  by_cases hn : n < 4
  · revert n
    decide +kernel
  · rw [List.take_of_length_le (by simp [nestedCalls]; omega)]
    decide +kernel

theorem subroutine_returns_nested :
    (nested.step.2.after nestedCalls).step.1 = .executed .ret ∧
    (nested.step.2.after nestedCalls).step.2.machine.programCounter = 0x202 := by
  have hs : nested.step = (.executed (.call 0x204), nested.step.2) := by rw [← nested_step]
  have hc : ∀ c ∈ nestedCalls, c.isReset = false := by decide
  have h := subroutine_returns hs hc nested_deeper
  have hr := h.2.2.2 .step rfl (by decide +kernel)
  exact ⟨hr.2.1, hr.2.2.2⟩

end Chip8.Processor
