import Chip8.Proofs.Processor.Step

/-!
# What changes, and by which instruction

The other way round from what an instruction writes: a part of the machine that is not as before
tells which instructions can have been executed.  For the flag register there are two reasons, since
an instruction can assign it like any other register or put a flag into it.

* `Instruction.Assigns`, `Instruction.SetsFlag`    the two ways in which a register changes;
* `Instruction.Explains`                           the instruction is a reason for all that differs;
* `explains_of_same`                               what an instruction leaves alone is all it takes;
* `changes_explained`                              every instruction explains what it has changed.
-/

namespace Chip8

namespace Instruction

/-- the register is the one the instruction computes a value for, or one of those it loads -/
def Assigns (x : Register) : Instruction → Prop
  | .setConstant y _ | .addConstant y _ | .combine _ y _ | .shift _ y | .random y _
  | .readDelay y => x = y
  | .loadRegisters last => x ≤ last
  | _ => False

/-- the instruction leaves a carry, a borrow, a bit or a collision in the flag register -/
def SetsFlag : Instruction → Prop
  | .combine operation _ _ => operation = .add ∨ operation = .subtract ∨ operation = .subtractFrom
  | .shift .. | .draw .. => True
  | _ => False

/-- all that differs between the machine `m` before the instruction and `n` behind it, the program
counter apart, is for the instruction to change -/
structure Explains (i : Instruction) (m n : Machine) : Prop where
  screen (h : n.screen ≠ m.screen) : i = .clearScreen ∨ ∃ x y rows, i = .draw x y rows
  memory (h : n.memory ≠ m.memory) : (∃ x, i = .storeDecimal x) ∨ ∃ last, i = .storeRegisters last
  index (h : n.index ≠ m.index) :
    (∃ address, i = .setIndex address) ∨ (∃ x, i = .addIndex x) ∨ ∃ x, i = .pointAtGlyph x
  delayTimer (h : n.delayTimer ≠ m.delayTimer) : ∃ x, i = .setDelay x
  soundTimer (h : n.soundTimer ≠ m.soundTimer) : ∃ x, i = .setSound x
  awaiting (h : n.awaiting ≠ m.awaiting) : ∃ x, i = .awaitKey x
  stack (h : n.stack ≠ m.stack) : (∃ target, i = .call target) ∨ i = .ret
  keys : n.keys = m.keys
  register (x : Register) (hx : x ≠ Register.flag) (h : n.register x ≠ m.register x) : i.Assigns x
  flag (h : n.register Register.flag ≠ m.register Register.flag) :
    i.Assigns Register.flag ∨ i.SetsFlag

end Instruction

/-! ## registers -/

theorem Arithmetic.setsFlag_iff (operation : Arithmetic) :
    operation.setsFlag = true ↔
      operation = .add ∨ operation = .subtract ∨ operation = .subtractFrom := by
  cases operation <;> simp [setsFlag]

theorem writes_register {i : Instruction} {x : Register} (h : i.writes (.register x) = true) :
    i.Assigns x ∨ x = Register.flag ∧ i.SetsFlag := by
  cases i with
  | setConstant y constant => exact .inl (Part.register.inj (beq_iff_eq.mp h))
  | addConstant y constant => exact .inl (Part.register.inj (beq_iff_eq.mp h))
  | readDelay y => exact .inl (Part.register.inj (beq_iff_eq.mp h))
  | random y mask =>
    have hw : x = y := by simpa [Instruction.writes] using h
    exact .inl hw
  | loadRegisters last =>
    have hw : x ≤ last := of_decide_eq_true h
    exact .inl hw
  | combine operation y z =>
    have hw : x = y ∨ operation.setsFlag = true ∧ x = Register.flag := by
      simpa [Instruction.writes] using h
    obtain hy | ⟨hs, hx⟩ := hw
    · exact .inl hy
    · exact .inr ⟨hx, operation.setsFlag_iff.mp hs⟩
  | shift direction y =>
    have hw : x = y ∨ x = Register.flag := by simpa [Instruction.writes] using h
    obtain hy | hx := hw
    · exact .inl hy
    · exact .inr ⟨hx, trivial⟩
  | draw y z rows => exact .inr ⟨by simpa [Instruction.writes] using h, trivial⟩
  | _ => cases h

/-! ## all parts -/

/-- an instruction that leaves alone what it does not write explains the rest -/
theorem explains_of_same {i : Instruction} {a b : Core}
    (h : ∀ part, i.writes part = false → part.Same a b) : i.Explains a.machine b.machine := by
  have hw : ∀ part : Part, ¬ part.Same a b → i.writes part = true := by
    intro part hn
    exact eq_true_of_ne_false fun hf => hn (h part hf)
  refine
    { screen := fun hd => writes_screen (hw .screen hd)
      memory := fun hd => writes_memory (hw .memory hd)
      index := fun hd => writes_index (hw .index hd)
      delayTimer := fun hd => writes_delayTimer (hw .delayTimer hd)
      soundTimer := fun hd => writes_soundTimer (hw .soundTimer hd)
      awaiting := fun hd => writes_awaiting (hw .awaiting hd)
      stack := fun hd => writes_stack (hw .stack hd)
      keys := h .keys (writes_keys i)
      register := ?_
      flag := ?_ }
  · intro x hx hd
    obtain ha | ⟨hf, -⟩ := writes_register (hw (.register x) hd)
    · exact ha
    · exact absurd hf hx
  · intro hd
    obtain ha | ⟨-, hs⟩ := writes_register (hw (.register Register.flag) hd)
    · exact .inl ha
    · exact .inr hs

namespace Processor

/-- **Every change is explained by the instruction that is executed**, on every machine, whether the
instruction is executed by itself or in a step. -/
theorem changes_explained :
    (∀ (i : Instruction) (core after : Core) (flow : Flow), i.execute.run core = .ok flow after →
      i.Explains core.machine after.machine) ∧
    ∀ (p q : Processor) (i : Instruction), p.step = (.executed i, q) →
      i.Explains p.machine q.machine := by
  constructor
  · intro i core after flow h
    exact explains_of_same fun part hw => Instruction.execute_keeps hw core flow after h
  · intro p q i h
    refine explains_of_same (a := p.core) (b := q.core) fun part hw => ?_
    have hs := step_same (p := p) part fun j hj => by
      rw [h] at hj
      cases hj
      exact hw
    rw [h] at hs
    exact hs

/-- about to draw over the corner of the screen what has just been drawn there -/
def eraser : Processor :=
  (start { Machine.ofProgram [] with
    memory := Memory.zeros.write Memory.programStart [0xD0, 0x01, 0xD0, 0x01], index := 0x200 }
    (Generator.ofSeed 0)).step.2

theorem eraser_erases :
    eraser.step.1 = .executed (.draw 0 0 1) ∧
    eraser.machine.screen.pixel 0 0 = true ∧ eraser.step.2.machine.screen.pixel 0 0 = false ∧
    eraser.machine.register Register.flag = 0 ∧
    eraser.step.2.machine.register Register.flag = 1 := by
  decide +kernel

/-- what was drawn goes and the collision is told: two changes, and one reason for both -/
theorem changes_explained_eraser :
    eraser.step = (.executed (.draw 0 0 1), eraser.step.2) ∧
    eraser.step.2.machine.screen ≠ eraser.machine.screen ∧
    eraser.step.2.machine.register Register.flag ≠ eraser.machine.register Register.flag ∧
    (Instruction.draw 0 0 1).Explains eraser.machine eraser.step.2.machine ∧
    ∃ flow after, (Instruction.draw 0 0 1).execute.run eraser.core = .ok flow after ∧
      (Instruction.draw 0 0 1).Explains eraser.core.machine after.machine := by
  obtain ⟨hd, hlit, hdark, hold, hnew⟩ := eraser_erases
  have hs : eraser.step = (.executed (.draw 0 0 1), eraser.step.2) := by rw [← hd]
  obtain ⟨hx, hp⟩ := changes_explained
  obtain ⟨-, flow, after, hr, -⟩ := step_executed hs
  refine ⟨hs, ?_, ?_, hp _ _ _ hs, flow, after, hr, hx _ _ _ _ hr⟩
  · intro he
    rw [he, hlit] at hdark
    cases hdark
  · rw [hold, hnew]
    decide

end Processor

end Chip8
