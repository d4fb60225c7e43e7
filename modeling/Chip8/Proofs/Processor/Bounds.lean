import Chip8.Proofs.Machine.Flow
import Chip8.Proofs.Processor.Answer
import Chip8.Proofs.Processor.Faults
import Chip8.Proofs.Processor.Outside
import Chip8.Proofs.Processor.Subroutine

/-!
# How far a processor gets

The farthest jump is to the last address an opcode can hold plus the largest byte, and nothing is
executed there.  So no sum of addresses wraps around, on the call stack as little as in the program
counter.

* `CallStack.Sound`          a stack of the usual size, with addresses behind calls on it;
* `Bounded`                  program counter, stack and fault of a processor are in bounds;
* `Bounded.after`            they are so behind any calls;
* `size_after`               the stack is as long as there are calls that have not returned;
* `reachable_in_bounds`      all of it together.
-/

namespace Chip8

/-! ## the stack -/

namespace CallStack

/-- a stack of the usual capacity, whose addresses are behind instructions in memory -/
structure Sound (s : CallStack) : Prop where
  capacity : s.capacity = defaultCapacity
  size : s.size ≤ defaultCapacity
  returns : ∀ address ∈ s.entries, 2 ≤ address.toNat ∧ address.toNat ≤ Memory.size

variable {s t : CallStack} {address : UInt16}

theorem sound_empty : Sound empty := ⟨rfl, Nat.zero_le _, nofun⟩

theorem push_ok (h : s.push address = .ok t) :
    s.size < s.capacity ∧ t = { s with entries := address :: s.entries } := by
  unfold push at h
  split at h
  · next hs =>
    cases h
    exact ⟨hs, rfl⟩
  · cases h

theorem pop_eq_some (h : s.pop = some (address, t)) :
    s.entries = address :: t.entries ∧ t.capacity = s.capacity := by
  unfold pop at h
  split at h
  · cases h
  · next he =>
    cases h
    exact ⟨he, rfl⟩

theorem Sound.push (h : s.Sound) (hp : s.push address = .ok t)
    (ha : 2 ≤ address.toNat ∧ address.toNat ≤ Memory.size) : t.Sound := by
  obtain ⟨hs, rfl⟩ := push_ok hp
  refine ⟨h.capacity, ?_, List.forall_mem_cons.mpr ⟨ha, h.returns⟩⟩
  exact h.capacity ▸ hs

theorem Sound.pop (h : s.Sound) (hp : s.pop = some (address, t)) : t.Sound := by
  obtain ⟨he, hc⟩ := pop_eq_some hp
  refine ⟨hc.trans h.capacity, ?_, fun a ha => h.returns a ?_⟩
  · have hs : s.size = t.size + 1 := congrArg List.length he
    have hl := h.size
    omega
  · rw [he]
    exact List.mem_cons_of_mem address ha

end CallStack

/-! ## the destinations -/

/-- the farthest address an instruction leads to -/
def Instruction.farthest : Nat := 0x10FE

theorem Instruction.destination_le {m : Machine} (hc : m.programCounter.toNat + 2 ≤ Memory.size)
    (hs : m.stack.Sound) (i : Instruction) : i.destination m ≤ farthest := by
  have hp : m.programCounter.toNat + 2 ≤ 4096 := hc
  unfold farthest
  cases i with
  | systemJump target => exact target.isLt.le.trans (by decide)
  | jump target => exact target.isLt.le.trans (by decide)
  | call target => exact target.isLt.le.trans (by decide)
  | jumpOffset address =>
    have hv := (m.register 0).toNat_lt
    show address.val + (m.register 0).toNat ≤ 0x10FE
    omega
  | ret =>
    show (m.stack.entries.headD 0).toNat ≤ 0x10FE
    cases he : m.stack.entries with
    | nil => decide
    | cons address rest =>
      have ha : address.toNat ≤ 4096 := (hs.returns address (he ▸ List.mem_cons_self)).2
      exact ha.trans (by decide)
  | skip condition =>
    show m.programCounter.toNat + (if condition.holds m then 4 else 2) ≤ 0x10FE
    split <;> omega
  | _ =>
    show m.programCounter.toNat + 2 ≤ 0x10FE
    omega

/-! ## faults -/

/-- the fault of a machine whose program counter is too near to the end of memory, or behind it -/
def Machine.fetchFault (m : Machine) : Fault :=
  .outOfBounds m.programCounter (m.programCounter.toNat + 1)

/-- what faults does so whatever is outside -/
theorem Machine.Faults.facing {m : Machine} {fault : Fault} (h : m.Faults fault) (o : Outside) :
    (m.facing o).Faults fault := by
  cases h with
  | fetch h => exact .fetch h
  | unknown h hd => exact .unknown h hd
  | refused i fault hi h =>
    refine .refused i fault hi ?_
    cases h with
    | full target h => exact .full target h
    | empty h => exact .empty h
    | behind i n hn h => exact .behind i n hn h

namespace Processor

/-! ## the invariant -/

/-- the program counter is no farther than an instruction leads, the stack is sound, and a processor
that has been stopped waits for no key and would fault again -/
structure Bounded (p : Processor) : Prop where
  counter : p.machine.programCounter.toNat ≤ Instruction.farthest
  stack : p.machine.stack.Sound
  silent : ∀ fault, p.halted = some fault → p.machine.awaiting = none
  faults : ∀ fault, p.halted = some fault → p.machine.Faults fault

theorem bounded_start (program : List UInt8) (g : Generator) :
    Bounded (start (Machine.ofProgram program) g) where
  counter := by
    show (UInt16.ofNat Memory.programStart).toNat ≤ Instruction.farthest
    decide
  stack := CallStack.sound_empty
  silent := nofun
  faults := nofun

theorem eq_start_of_load {program : List UInt8} {g : Generator} {p : Processor}
    (h : load program g = .ok p) : p = start (Machine.ofProgram program) g := by
  unfold load Machine.load at h
  split at h
  · cases h
    rfl
  · cases h

/-- an executed instruction leads to its destination, from an address in memory -/
theorem step_destination {p q : Processor} {i : Instruction} (hs : p.step = (.executed i, q)) :
    p.machine.programCounter.toNat + 2 ≤ Memory.size ∧
      q.machine.programCounter.toNat = i.destination p.machine := by
  obtain ⟨hd, flow, after, hx, rfl⟩ := step_executed hs
  have hc : p.machine.programCounter.toNat + 2 ≤ 4096 := covers_of_decodeNext hd
  refine ⟨hc, i.execute_goesTo p.core flow after ?_ hx⟩
  show p.machine.programCounter.toNat + 4 < 65536
  omega

theorem toNat_returnAddress {m : Machine} (h : m.programCounter.toNat + 2 ≤ Memory.size) :
    (m.programCounter + 2).toNat = m.programCounter.toNat + 2 := by
  have hc : m.programCounter.toNat + 2 ≤ 4096 := h
  have hw : m.programCounter.toNat + 4 < 65536 := by omega
  exact m.toNat_programCounter_add (n := 2) (by decide) hw

namespace Bounded
variable {p : Processor}

theorem stack_step (h : Bounded p) : p.step.2.machine.stack.Sound := by
  obtain hs | ⟨target, ht⟩ | hr := p.step_stack
  · rw [hs]
    exact h.stack
  · have hs : p.step = (.executed (.call target), p.step.2) := Prod.ext ht rfl
    obtain ⟨hc, -⟩ := step_destination hs
    refine h.stack.push (step_call hs) ?_
    rw [toNat_returnAddress hc]
    exact ⟨Nat.le_add_left 2 _, hc⟩
  · exact h.stack.pop (step_ret (Prod.ext hr rfl))

theorem step (h : Bounded p) : Bounded p.step.2 := by
  have hstack := h.stack_step
  cases p.stepCase with
  | halted fault hh hs =>
    rw [hs]
    exact h
  | waiting hh hw hs =>
    rw [hs]
    exact h
  | faulted fault hh hw hpc hs =>
    have hf : p.machine.Faults fault := (step_faulted_iff hh hw).mp (congrArg Prod.fst hs)
    have ha : p.machine.awaiting = none := isWaiting_eq_false_iff.mp hw
    rw [hs]
    refine ⟨h.counter, h.stack, fun _ _ => ha, fun e he => ?_⟩
    cases he
    exact hf
  | executed i flow after hh hw hd hx hs =>
    obtain ⟨hc, hq⟩ := step_destination hs
    rw [hs] at hstack ⊢
    refine ⟨hq ▸ i.destination_le hc h.stack, hstack, fun e he => ?_, fun e he => ?_⟩
    · cases hh.symm.trans he
    · cases hh.symm.trans he

/-- timers and keys are not what is bounded -/
theorem facing (h : Bounded p) (o : Outside) : Bounded (p.facing o) :=
  ⟨h.counter, h.stack, h.silent, fun fault hf => (h.faults fault hf).facing o⟩

theorem setKey (h : Bounded p) (k : Key) (pressed : Bool) : Bounded (p.setKey k pressed).2 := by
  obtain ⟨-, hs⟩ | ⟨x, hx, -, hs⟩ := p.setKey_cases k pressed
  · rw [hs]
    exact h.facing (p.machine.setKey k pressed).outside
  · -- a wait means that nothing has stopped the processor
    have hn : ∀ fault, p.halted ≠ some fault := by
      intro fault hf
      cases hx.symm.trans (h.silent fault hf)
    rw [hs]
    exact ⟨h.counter, h.stack, fun fault hf => absurd hf (hn fault),
      fun fault hf => absurd hf (hn fault)⟩

theorem call (h : Bounded p) (c : Call) : Bounded (p.call c).2 := by
  cases c with
  | step => exact h.step
  | tick => exact h.facing p.machine.tickTimers.outside
  | key k pressed => exact h.setKey k pressed
  | reset program =>
    rw [call_reset]
    split
    · exact bounded_start program p.generator
    · exact h

theorem after (h : Bounded p) (calls : List Call) : Bounded (p.after calls) :=
  after_invariant (fun c _ _ hq => hq.call c) h

/-- nothing is executed behind memory -/
theorem step_of_behind (h : Bounded p) (hc : Memory.size < p.machine.programCounter.toNat + 2)
    (ha : p.machine.awaiting = none) :
    p.step = (.faulted p.machine.fetchFault, { p with halted := some p.machine.fetchFault }) := by
  have hone : ∀ fault, p.machine.Faults fault → fault = p.machine.fetchFault := by
    rintro _ (h | ⟨h, -⟩ | ⟨i, _, hi, -⟩)
    · rfl
    · exact absurd h (Nat.not_le.mpr hc)
    · rw [Machine.instructionAt_of_behind hc] at hi
      cases hi
  cases p.stepCase with
  | halted fault hh hs =>
    obtain rfl := hone fault (h.faults fault hh)
    rw [hs, ← hh]
  | waiting hh hw hs => cases hw.symm.trans (isWaiting_eq_false_iff.mpr ha)
  | faulted fault hh hw hpc hs =>
    rw [hs, hone fault ((step_faulted_iff hh hw).mp (congrArg Prod.fst hs))]
  | executed i flow after hh hw hd hx hs =>
    exact absurd (step_destination hs).1 (Nat.not_le.mpr hc)

theorem programCounter_of_halted (h : Bounded p) {fault : Fault} (hf : p.halted = some fault) :
    fault.programCounter = p.machine.programCounter := by
  cases h.faults fault hf with
  | fetch h => rfl
  | unknown h hd => rfl
  | refused i fault hi hr =>
    cases hr with
    | full target h => rfl
    | empty h => rfl
    | behind i n hn h => rfl

end Bounded

/-! ## how long the stack is -/

def Answer.isCall : Answer → Bool
  | .stepped (.executed (.call _)) => true
  | _ => false

def Answer.isReturn : Answer → Bool
  | .stepped (.executed .ret) => true
  | _ => false

theorem size_step (p : Processor) :
    p.step.2.machine.stack.size + [Answer.stepped p.step.1].countP Answer.isReturn =
      p.machine.stack.size + [Answer.stepped p.step.1].countP Answer.isCall := by
  cases p.stepCase with
  | halted fault hh hs => rw [hs]; rfl
  | waiting hh hw hs => rw [hs]; rfl
  | faulted fault hh hw hpc hs => rw [hs]; rfl
  | executed i flow after hh hw hd hx hs =>
    cases hi : i.writes .stack with
    | true =>
      obtain ⟨target, rfl⟩ | rfl := writes_stack hi
      · obtain ⟨-, he⟩ := CallStack.push_ok (step_call hs)
        rw [hs]
        exact congrArg CallStack.size he
      · obtain ⟨he, -⟩ := CallStack.pop_eq_some (step_ret hs)
        rw [hs]
        exact (congrArg List.length he).symm
    | false =>
      have hk : p.step.2.machine.stack = p.machine.stack := step_same .stack fun j hj => by
        rw [hs] at hj
        cases hj
        exact hi
      rw [hk, hs]
      cases i with
      | call target => cases hi
      | ret => cases hi
      | _ => rfl

/-- a call that is answered by a restart leaves the stack empty; any other one lengthens it by a
call of a subroutine and shortens it by a return -/
theorem size_call (p : Processor) (c : Call) :
    if (p.call c).1 = .reset none then (p.call c).2.machine.stack.size = 0
    else (p.call c).2.machine.stack.size + [(p.call c).1].countP Answer.isReturn =
      p.machine.stack.size + [(p.call c).1].countP Answer.isCall := by
  cases c with
  | step =>
    rw [if_neg nofun]
    exact p.size_step
  | tick => rfl
  | key k pressed =>
    have hk : (p.call (.key k pressed)).2.machine.stack = p.machine.stack := call_stack rfl nofun
    rw [if_neg nofun, hk]
    rfl
  | reset program =>
    rw [call_reset]
    by_cases hr : (Call.reset program).restarts = true
    · rw [if_pos hr]
      rfl
    · rw [if_neg hr]
      rfl

/-- **The stack is as long as there are calls that have not returned**, since the last restart. -/
theorem size_after {p : Processor} (hp : p.machine.stack.size = 0) (calls : List Call) :
    (p.after calls).machine.stack.size +
        (Answer.sinceReset (p.answers calls)).countP Answer.isReturn =
      (Answer.sinceReset (p.answers calls)).countP Answer.isCall := by
  induction calls using List.reverseRecOn with
  | nil => exact hp
  | append_singleton calls c ih =>
    have hc := size_call (p.after calls) c
    rw [after_concat, answers_concat, Answer.sinceReset_concat]
    split at hc
    · next hr =>
      rw [if_pos hr]
      exact hc
    · next hr =>
      rw [if_neg hr, List.countP_append, List.countP_append]
      omega

/-! ## all of it -/

/-- **A processor stays in bounds.**  Behind any calls of a processor that has started with a
program: the program counter is bounded; what is executed stands in memory, leads to its
destination and, if it is a call, puts the address behind it on the stack, both as plain sums; the
stack holds as many addresses as there are calls that have not returned since the last restart, at
most 16, each behind an instruction in memory; behind memory every step faults; and a processor that
has been stopped waits for no key and stands where it was stopped. -/
theorem reachable_in_bounds {program : List UInt8} {g : Generator} {p q : Processor}
    {calls : List Call} (hp : load program g = .ok p) (hq : p.after calls = q) :
    q.machine.programCounter.toNat ≤ 0x10FE ∧
    (∀ i r, q.step = (.executed i, r) →
      q.machine.programCounter.toNat ≤ 0xFFE ∧
      r.machine.programCounter.toNat = i.destination q.machine ∧
      ∀ target, i = .call target →
        r.machine.stack.toList = q.machine.stack.toList ++ [q.machine.programCounter + 2] ∧
        (q.machine.programCounter + 2).toNat = q.machine.programCounter.toNat + 2) ∧
    q.machine.stack.size ≤ 16 ∧
    q.machine.stack.size + (Answer.sinceReset (p.answers calls)).countP Answer.isReturn =
      (Answer.sinceReset (p.answers calls)).countP Answer.isCall ∧
    (∀ address ∈ q.machine.stack.toList, 2 ≤ address.toNat ∧ address.toNat ≤ 0x1000) ∧
    (0xFFE < q.machine.programCounter.toNat → q.machine.awaiting = none →
      q.step = (.faulted q.machine.fetchFault, { q with halted := some q.machine.fetchFault })) ∧
    ∀ fault, q.halted = some fault →
      q.machine.awaiting = none ∧ fault.programCounter = q.machine.programCounter := by
  obtain rfl := eq_start_of_load hp
  subst hq
  have hb := (bounded_start program g).after calls
  refine ⟨hb.counter, fun i r hs => ?_, hb.stack.size, size_after rfl calls, fun a ha => ?_,
    fun hc ha => ?_, fun fault hf => ⟨hb.silent fault hf, hb.programCounter_of_halted hf⟩⟩
  · obtain ⟨hc, hd⟩ := step_destination hs
    refine ⟨Nat.le_of_add_le_add_right hc, hd, fun target ht => ?_⟩
    subst ht
    exact ⟨(CallStack.toList_push (step_call hs)).1, toNat_returnAddress hc⟩
  · exact hb.stack.returns a (List.mem_reverse.mp ha)
  · exact hb.step_of_behind (Nat.add_lt_add_right hc 2) ha

/-- the farthest jump there is: to the last address, plus the largest byte in `V0` -/
def farJump : List UInt8 := [0x60, 0xFF, 0xBF, 0xFF]

def jumper : Processor := start (Machine.ofProgram farJump) (Generator.ofSeed 0)

theorem reachable_in_bounds_farJump :
    load farJump (Generator.ofSeed 0) = .ok jumper ∧
    (jumper.after [.step, .tick, .step]).machine.programCounter = 0x10FE ∧
    (jumper.after [.step, .tick, .step]).step.1 = .faulted (.outOfBounds 0x10FE 0x10FF) := by
  have hl : load farJump (Generator.ofSeed 0) = .ok jumper := rfl
  have h : (jumper.after [.step, .tick, .step]).machine.programCounter = 0x10FE ∧
      (jumper.after [.step, .tick, .step]).machine.awaiting = none := by decide +kernel
  obtain ⟨hc, ha⟩ := h
  obtain ⟨-, -, -, -, -, hb, -⟩ := reachable_in_bounds hl rfl
  have hs := congrArg Prod.fst (hb (by rw [hc]; decide) ha)
  rw [Machine.fetchFault, hc] at hs
  exact ⟨hl, hc, hs⟩

end Processor

end Chip8
