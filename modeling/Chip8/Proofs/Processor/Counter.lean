import Chip8.Proofs.Processor.Await

/-!
# Who moves the program counter, and where to

Some instructions put the program counter somewhere themselves, and say so; behind all others the
processor moves it on, by one instruction or by two.  Nothing but the answer of an instruction keeps
the two apart, so that answer has to be right for every instruction on every machine.

* `Action.Jumps`                  an action has or has not put the program counter somewhere;
* `Instruction.execute_jumps`     an instruction has just if it transfers control;
* `Condition.Met`                 when a skip skips, said of registers and keys;
* `Instruction.Leads`             where the instructions lead;
* `step_leads`                    there they do lead, by sums that do not wrap around;
* `program_counter_policy`        all of it together.
-/

namespace Chip8

/-! ## who moves it -/

namespace Action
variable {α : Type} {jumps : Bool}

/-- the action answers that it has put the program counter somewhere, or never does so -/
def Jumps (jumps : Bool) (a : Action Flow) : Prop :=
  ∀ core flow after, a.run core = .ok flow after → (flow = .jumped ↔ jumps = true)

theorem Jumps.bind {a : Action α} {f : α → Action Flow} (hf : ∀ x, Jumps jumps (f x)) :
    Jumps jumps (a >>= f) := by
  intro core flow after h
  rw [EStateM.run_bind] at h
  cases hx : a.run core with
  | ok x mid =>
    rw [hx] at h
    exact hf x mid flow after h
  | error e mid =>
    rw [hx] at h
    cases h

theorem update_jumps (f : Machine → Machine) : Jumps false (update f) := by
  intro core flow after h
  cases h
  exact iff_of_false nofun nofun

theorem jumpTo_jumps (target : UInt16) : Jumps true (jumpTo target) := by
  intro core flow after h
  cases h
  exact iff_of_true rfl rfl

theorem pure_jumps {flow : Flow} (hf : flow ≠ .jumped) : Jumps false (pure flow) := by
  intro core other after h
  cases h
  exact iff_of_false hf nofun

end Action

namespace Instruction
open Chip8.Action

/-- **An instruction says that it has put the program counter somewhere just if it transfers
control.** -/
theorem execute_jumps (i : Instruction) : Jumps i.transfersControl i.execute := by
  cases i with
  | systemJump target => exact jumpTo_jumps _
  | jump target => exact jumpTo_jumps _
  | jumpOffset address => exact Jumps.bind fun _ => jumpTo_jumps _
  | call target => exact Jumps.bind fun _ => jumpTo_jumps _
  | ret => exact Jumps.bind fun _ => jumpTo_jumps _
  | skip condition =>
    refine Jumps.bind fun m => pure_jumps ?_
    cases condition.holds m <;> nofun
  | random x mask => exact Jumps.bind fun _ => update_jumps _
  | draw x y rows => exact Jumps.bind fun _ => update_jumps _
  | storeDecimal x => exact Jumps.bind fun _ => update_jumps _
  | storeRegisters last => exact Jumps.bind fun _ => update_jumps _
  | loadRegisters last => exact Jumps.bind fun _ => update_jumps _
  | _ => exact update_jumps _

end Instruction

/-! ## where to -/

/-- when a skip skips: registers and constants are compared, and the number of a key is that of a
key that is down -/
def Condition.Met (m : Machine) : Condition → Prop
  | .equalsConstant x constant => m.register x = constant
  | .differsFromConstant x constant => m.register x ≠ constant
  | .equals x y => m.register x = m.register y
  | .differs x y => m.register x ≠ m.register y
  | .pressed x => ∃ k : Key, (m.register x).toNat = k.val ∧ m.isDown k = true
  | .notPressed x => ∀ k : Key, (m.register x).toNat = k.val → m.isDown k = false

theorem Condition.holds_iff {m : Machine} {condition : Condition} :
    condition.holds m = true ↔ condition.Met m := by
  cases condition with
  | equalsConstant x constant => exact beq_iff_eq
  | differsFromConstant x constant => exact bne_iff_ne
  | equals x y => exact beq_iff_eq
  | differs x y => exact bne_iff_ne
  | pressed x => exact Machine.isPressed_iff
  | notPressed x =>
    have hn : (!m.isPressed (m.register x)) = true ↔ ¬ m.isPressed (m.register x) = true := by
      rw [Bool.not_eq_true', Bool.not_eq_true]
    refine hn.trans ?_
    rw [Machine.isPressed_iff]
    simp [Met]

/-- where an executed instruction leads from the machine `m`, with `n` as the machine behind it -/
def Instruction.Leads (m n : Machine) (i : Instruction) : Prop :=
  let here := m.programCounter.toNat
  let there := n.programCounter.toNat
  match i with
  | .systemJump target | .jump target | .call target => there = target.val
  | .jumpOffset address => there = address.val + (m.register 0).toNat
  | .ret => m.stack.toList = n.stack.toList ++ [n.programCounter]
  | .skip condition =>
    (condition.Met m → there = here + 4) ∧ (¬ condition.Met m → there = here + 2)
  | _ => there = here + 2

namespace Processor
variable {p q : Processor} {i : Instruction}

theorem step_leads (h : p.step = (.executed i, q)) : i.Leads p.machine q.machine := by
  have hd := (step_destination h).2
  cases i with
  | ret => exact (CallStack.toList_pop (step_ret h)).1
  | skip condition =>
    have hs : q.machine.programCounter.toNat =
        p.machine.programCounter.toNat + if condition.holds p.machine then 4 else 2 := hd
    constructor
    · intro hm
      rw [hs, if_pos (Condition.holds_iff.mpr hm)]
    · intro hm
      rw [hs, if_neg fun hc => hm (Condition.holds_iff.mp hc)]
  | _ => exact hd

/-- the bytes at the program counter are those of the instruction that is executed -/
theorem step_decodes (h : p.step = (.executed i, q)) :
    p.machine.programCounter.toNat + 2 ≤ Memory.size ∧
      Instruction.decode? (p.machine.wordAt p.machine.programCounter.toNat) = some i := by
  have hc := (step_destination h).1
  have hi := decodeNext_ok_iff.mp (step_executed h).1
  rw [Machine.instructionAt_of_covers hc] at hi
  exact ⟨hc, hi⟩

/-- **The program counter goes where the instruction leads.**  On every machine and with every
generator, an instruction that does not fault says that it has put the program counter somewhere
just if it transfers control.  So a step executes what its two bytes at the program counter are
decoded to, and leads where this instruction leads, without any sum wrapping around. -/
theorem program_counter_policy :
    (∀ (i : Instruction) (core after : Core) (flow : Flow), i.execute.run core = .ok flow after →
      (flow = .jumped ↔ i.transfersControl = true)) ∧
    ∀ (p q : Processor) (i : Instruction), p.step = (.executed i, q) →
      let here := p.machine.programCounter.toNat
      here + 2 ≤ 4096 ∧
      Instruction.decode (opcodeOfBytes (p.machine.memory.byte here)
        (p.machine.memory.byte (here + 1))) = .ok i ∧
      i.Leads p.machine q.machine := by
  constructor
  · intro i core after flow h
    exact i.execute_jumps core flow after h
  · intro p q i h
    obtain ⟨hc, hd⟩ := step_decodes h
    refine ⟨hc, ?_, step_leads h⟩
    show Instruction.decode (p.machine.wordAt p.machine.programCounter.toNat) = .ok i
    rw [Instruction.decode, hd]

/-- so many steps of a program that calls a subroutine at 0x204, which skips to its return at 0x208,
and then jumps to itself -/
def detour : Nat → Processor
  | 0 => start { Machine.ofProgram [] with
      memory := Memory.zeros.write Memory.programStart
        [0x22, 0x04, 0x12, 0x02, 0x30, 0x00, 0x00, 0x00, 0x00, 0xEE] }
      (Generator.ofSeed 0)
  | n + 1 => (detour n).step.2

theorem step_detour {n : Nat} (h : (detour n).step.1 = .executed i) :
    (detour n).step = (.executed i, detour (n + 1)) := Prod.ext h rfl

theorem detour_executed :
    (detour 1).machine.programCounter.toNat = 0x204 ∧ (detour 1).machine.register 0 = 0 ∧
    (detour 1).step.1 = .executed (.skip (.equalsConstant 0 0)) ∧
    (detour 2).step.1 = .executed .ret ∧ (detour 3).step.1 = .executed (.jump 0x202) := by
  decide +kernel

/-- the skip skips, the return takes its address from the stack, and the jump says that it jumps -/
theorem program_counter_policy_detour :
    ((detour 1).step = (.executed (.skip (.equalsConstant 0 0)), detour 2) ∧
      (detour 1).machine.programCounter.toNat = 0x204 ∧
      (detour 2).machine.programCounter.toNat = 0x208) ∧
    ((detour 2).step = (.executed .ret, detour 3) ∧
      (detour 2).machine.stack.toList =
        (detour 3).machine.stack.toList ++ [(detour 3).machine.programCounter]) ∧
    (detour 3).step = (.executed (.jump 0x202), detour 4) ∧
      (∃ after, (Instruction.jump 0x202).execute.run (detour 3).core = .ok .jumped after) ∧
      (detour 4).machine.programCounter.toNat = 0x202 := by
  obtain ⟨hp, hm, h1, h2, h3⟩ := detour_executed
  have hs : (detour 1).step = (_, detour 2) := step_detour h1
  have hr : (detour 2).step = (_, detour 3) := step_detour h2
  have hj : (detour 3).step = (_, detour 4) := step_detour h3
  obtain ⟨hx, hl⟩ := program_counter_policy
  obtain ⟨-, -, hskip, -⟩ := hl _ _ _ hs
  obtain ⟨-, -, hret⟩ := hl _ _ _ hr
  obtain ⟨-, -, hjump⟩ := hl _ _ _ hj
  obtain ⟨-, flow, after, ha, -⟩ := step_executed hj
  obtain rfl := (hx _ _ _ _ ha).mpr rfl
  refine ⟨⟨hs, hp, ?_⟩, ⟨hr, hret⟩, hj, ⟨after, ha⟩, hjump⟩
  rw [hskip hm, hp]

end Processor

end Chip8
