import Chip8.Machine.Execute

/-!
# What an instruction leaves alone

The machine and the generator are cut into parts, and every instruction has a set of parts that it
may change.  The program counter is no part, since every instruction moves it.

* `Part`, `Part.Same`        the parts, and that two states agree in one;
* `Instruction.writes`       the parts an instruction may change;
* `Action.Keeps`             an action changes nothing in a part;
* `Instruction.execute_keeps`    an instruction changes only what it writes;
* `writes_screen`, `writes_memory`, ...    the few instructions that write a part.
-/

namespace Chip8

inductive Part
  | memory
  | index
  | stack
  | delayTimer
  | soundTimer
  | screen
  | awaiting
  | keys
  | generator
  | register (x : Register)
  deriving DecidableEq, Repr

def Part.Same (a b : Core) : Part → Prop
  | memory => b.machine.memory = a.machine.memory
  | index => b.machine.index = a.machine.index
  | stack => b.machine.stack = a.machine.stack
  | delayTimer => b.machine.delayTimer = a.machine.delayTimer
  | soundTimer => b.machine.soundTimer = a.machine.soundTimer
  | screen => b.machine.screen = a.machine.screen
  | awaiting => b.machine.awaiting = a.machine.awaiting
  | keys => b.machine.keys = a.machine.keys
  | generator => b.generator = a.generator
  | register x => b.machine.register x = a.machine.register x

def Arithmetic.setsFlag : Arithmetic → Bool
  | .add | .subtract | .subtractFrom => true
  | _ => false

/-- one of the registers `V0` to `last` -/
def Part.isUpTo (last : Register) : Part → Bool
  | register z => z ≤ last
  | _ => false

/-- the parts an instruction may change -/
def Instruction.writes (i : Instruction) (part : Part) : Bool :=
  match i with
  | .systemJump _ | .jump _ | .jumpOffset _ | .skip _ => false
  | .call _ | .ret => part == .stack
  | .clearScreen => part == .screen
  | .setConstant x _ | .addConstant x _ | .readDelay x => part == .register x
  | .combine operation x _ =>
    part == .register x || operation.setsFlag && part == .register Register.flag
  | .shift _ x => part == .register x || part == .register Register.flag
  | .random x _ => part == .register x || part == .generator
  | .draw .. => part == .screen || part == .register Register.flag
  | .loadRegisters last => part.isUpTo last
  | .storeDecimal _ | .storeRegisters _ => part == .memory
  | .setIndex _ | .addIndex _ | .pointAtGlyph _ => part == .index
  | .setDelay _ => part == .delayTimer
  | .setSound _ => part == .soundTimer
  | .awaitKey _ => part == .awaiting

theorem Machine.register_setRegister (m : Machine) (x z : Register) (value : UInt8) :
    (m.setRegister x value).register z = if z = x then value else m.register z := by
  show (m.registers.set x.val value)[z.val] = _
  rw [Vector.getElem_set]
  by_cases h : z = x
  · rw [if_pos h, if_pos (congrArg Fin.val h).symm]
  · rw [if_neg h, if_neg fun hv => h (Fin.ext hv.symm)]
    rfl

namespace Part
variable {a b c : Core} {m : Machine} {g : Generator} {part : Part}

theorem Same.refl : part.Same a a := by
  cases part <;> rfl

theorem Same.trans (hab : part.Same a b) (hbc : part.Same b c) : part.Same a c := by
  cases part <;> exact Eq.trans hbc hab

theorem same_setRegister {x : Register} (value : UInt8) (h : part ≠ .register x) :
    part.Same ⟨m, g⟩ ⟨m.setRegister x value, g⟩ := by
  cases part with
  | register z =>
    have hz : z ≠ x := fun e => h (congrArg register e)
    exact (m.register_setRegister x z value).trans (if_neg hz)
  | _ => rfl

theorem same_memory (memory : Memory) (h : part ≠ .memory) :
    part.Same ⟨m, g⟩ ⟨{ m with memory }, g⟩ := by
  cases part with
  | memory => exact absurd rfl h
  | _ => rfl

theorem same_index (index : UInt16) (h : part ≠ .index) :
    part.Same ⟨m, g⟩ ⟨{ m with index }, g⟩ := by
  cases part with
  | index => exact absurd rfl h
  | _ => rfl

theorem same_stack (stack : CallStack) (h : part ≠ .stack) :
    part.Same ⟨m, g⟩ ⟨{ m with stack }, g⟩ := by
  cases part with
  | stack => exact absurd rfl h
  | _ => rfl

theorem same_screen (screen : Screen) (h : part ≠ .screen) :
    part.Same ⟨m, g⟩ ⟨{ m with screen }, g⟩ := by
  cases part with
  | screen => exact absurd rfl h
  | _ => rfl

theorem same_setFlag (flag : Option UInt8) (h : flag = none ∨ part ≠ .register Register.flag) :
    part.Same ⟨m, g⟩ ⟨m.setFlag flag, g⟩ := by
  cases flag with
  | none => exact Same.refl
  | some value => exact same_setRegister value (h.resolve_left (by simp))

end Part

/-! ## actions -/

namespace Action
variable {α β : Type} {a : Action α} {f : α → Action β} {part : Part}

/-- the action changes nothing in the part, if it does not fault -/
def Keeps (part : Part) (a : Action α) : Prop :=
  ∀ core x after, a.run core = .ok x after → part.Same core after

theorem Keeps.bind (ha : Keeps part a) (hf : ∀ x, Keeps part (f x)) : Keeps part (a >>= f) := by
  intro core y after h
  rw [EStateM.run_bind] at h
  cases hx : a.run core with
  | ok x mid =>
    rw [hx] at h
    exact (ha core x mid hx).trans (hf x mid y after h)
  | error e mid =>
    rw [hx] at h
    cases h

theorem keeps_pure (x : α) : Keeps part (pure x : Action α) := by
  intro core y after h
  cases h
  exact Part.Same.refl

theorem keeps_machine : Keeps part machine := by
  intro core y after h
  cases h
  exact Part.Same.refl

theorem keeps_update {f : Machine → Machine} (hf : ∀ m g, part.Same ⟨m, g⟩ ⟨f m, g⟩) :
    Keeps part (update f) := by
  intro core y after h
  cases h
  exact hf core.machine core.generator

theorem keeps_jumpTo (target : UInt16) : Keeps part (jumpTo target) := by
  intro core y after h
  cases h
  cases part <;> rfl

theorem keeps_covered (count : Nat) : Keeps part (covered count) := by
  intro core y after h
  rw [run_covered] at h
  split at h
  · cases h
    exact Part.Same.refl
  · cases h

theorem keeps_randomByte (hp : part ≠ .generator) : Keeps part randomByte := by
  intro core y after h
  cases h
  cases part with
  | generator => exact absurd rfl hp
  | _ => rfl

theorem keeps_pushReturn (hp : part ≠ .stack) : Keeps part pushReturn := by
  intro core y after h
  rw [run_pushReturn] at h
  split at h
  · cases h
    exact Part.same_stack _ hp
  · cases h

theorem keeps_popReturn (hp : part ≠ .stack) : Keeps part popReturn := by
  intro core y after h
  rw [run_popReturn] at h
  split at h
  · cases h
    exact Part.same_stack _ hp
  · cases h

end Action

/-! ## the instructions -/

theorem Arithmetic.flag?_eq_none {operation : Arithmetic} (h : operation.setsFlag = false)
    (u v : UInt8) : operation.flag? u v = none := by
  cases operation <;> first | rfl | cases h

namespace Part
variable {m : Machine} {g : Generator} {part : Part}

theorem same_combine {operation : Arithmetic} {x y : Register} (hx : part ≠ .register x)
    (hf : operation.setsFlag = true → part ≠ .register Register.flag) :
    part.Same ⟨m, g⟩ ⟨m.combine operation x y, g⟩ := by
  refine (same_setFlag _ ?_).trans (same_setRegister _ hx)
  cases hs : operation.setsFlag with
  | false => exact .inl (Arithmetic.flag?_eq_none hs _ _)
  | true => exact .inr (hf hs)

theorem same_shift {direction : Shift} {x : Register} (hx : part ≠ .register x)
    (hf : part ≠ .register Register.flag) : part.Same ⟨m, g⟩ ⟨m.shift direction x, g⟩ :=
  (same_setFlag _ (.inr hf)).trans (same_setRegister _ hx)

theorem same_drawSprite {x y : Register} {rows : Nibble} (hs : part ≠ .screen)
    (hf : part ≠ .register Register.flag) : part.Same ⟨m, g⟩ ⟨m.drawSprite x y rows, g⟩ :=
  (same_screen _ hs).trans (same_setRegister _ hf)

theorem same_loadRegisters {last : Register} (h : part.isUpTo last = false) :
    part.Same ⟨m, g⟩ ⟨m.loadRegisters last, g⟩ := by
  cases part with
  | register z =>
    have hz : ¬ z ≤ last := by simpa [isUpTo] using h
    simp [Same, Machine.loadRegisters, Machine.register, hz]
  | _ => simp only [Same, Machine.loadRegisters]

end Part

namespace Instruction
open Chip8.Action

/-- **An instruction changes only what it writes.** -/
theorem execute_keeps {i : Instruction} {part : Part} (h : i.writes part = false) :
    Keeps part i.execute := by
  cases i with
  | systemJump target => exact keeps_jumpTo _
  | jump target => exact keeps_jumpTo _
  | jumpOffset address => exact keeps_machine.bind fun _ => keeps_jumpTo _
  | skip condition => exact keeps_machine.bind fun _ => keeps_pure _
  | call target => exact (keeps_pushReturn (by simpa [writes] using h)).bind fun _ => keeps_jumpTo _
  | ret => exact (keeps_popReturn (by simpa [writes] using h)).bind fun _ => keeps_jumpTo _
  | setConstant x constant =>
    exact keeps_update fun _ _ => Part.same_setRegister _ (by simpa [writes] using h)
  | addConstant x constant =>
    exact keeps_update fun _ _ => Part.same_setRegister _ (by simpa [writes] using h)
  | readDelay x =>
    exact keeps_update fun _ _ => Part.same_setRegister _ (by simpa [writes] using h)
  | combine operation x y =>
    have hw : part ≠ .register x ∧ (operation.setsFlag = true → part ≠ .register Register.flag) := by
      simpa [writes] using h
    exact keeps_update fun _ _ => Part.same_combine hw.1 hw.2
  | shift direction x =>
    have hw : part ≠ .register x ∧ part ≠ .register Register.flag := by simpa [writes] using h
    exact keeps_update fun _ _ => Part.same_shift hw.1 hw.2
  | random x mask =>
    have hw : part ≠ .register x ∧ part ≠ .generator := by simpa [writes] using h
    exact (keeps_randomByte hw.2).bind fun _ => keeps_update fun _ _ =>
      Part.same_setRegister _ hw.1
  | draw x y rows =>
    have hw : part ≠ .screen ∧ part ≠ .register Register.flag := by simpa [writes] using h
    exact (keeps_covered _).bind fun _ => keeps_update fun _ _ => Part.same_drawSprite hw.1 hw.2
  | loadRegisters last =>
    exact (keeps_covered _).bind fun _ => keeps_update fun _ _ => Part.same_loadRegisters h
  | storeDecimal x =>
    exact (keeps_covered _).bind fun _ => keeps_update fun _ _ =>
      Part.same_memory _ (by simpa [writes] using h)
  | storeRegisters last =>
    exact (keeps_covered _).bind fun _ => keeps_update fun _ _ =>
      Part.same_memory _ (by simpa [writes] using h)
  | clearScreen =>
    exact keeps_update fun _ _ => Part.same_screen _ (by simpa [writes] using h)
  | setIndex address => exact keeps_update fun _ _ => Part.same_index _ (by simpa [writes] using h)
  | addIndex x => exact keeps_update fun _ _ => Part.same_index _ (by simpa [writes] using h)
  | pointAtGlyph x => exact keeps_update fun _ _ => Part.same_index _ (by simpa [writes] using h)
  | setDelay x =>
    refine keeps_update fun _ _ => ?_
    cases part with
    | delayTimer => cases h
    | _ => rfl
  | setSound x =>
    refine keeps_update fun _ _ => ?_
    cases part with
    | soundTimer => cases h
    | _ => rfl
  | awaitKey x =>
    refine keeps_update fun _ _ => ?_
    cases part with
    | awaiting => cases h
    | _ => rfl

end Instruction

/-! ## who changes a part -/

section
variable {i : Instruction}

/-- an operation on registers changes nothing but registers -/
theorem writes_combine (part : Part) (hp : ∀ x, part ≠ .register x) (operation : Arithmetic)
    (x y : Register) : (Instruction.combine operation x y).writes part = false := by
  simp [Instruction.writes, hp]

theorem writes_screen (h : i.writes .screen = true) :
    i = .clearScreen ∨ ∃ x y rows, i = .draw x y rows := by
  cases i with
  | clearScreen => exact .inl rfl
  | draw x y rows => exact .inr ⟨x, y, rows, rfl⟩
  | combine operation x y => cases (writes_combine .screen nofun operation x y).symm.trans h
  | _ => cases h

theorem writes_memory (h : i.writes .memory = true) :
    (∃ x, i = .storeDecimal x) ∨ ∃ last, i = .storeRegisters last := by
  cases i with
  | storeDecimal x => exact .inl ⟨x, rfl⟩
  | storeRegisters last => exact .inr ⟨last, rfl⟩
  | combine operation x y => cases (writes_combine .memory nofun operation x y).symm.trans h
  | _ => cases h

theorem writes_index (h : i.writes .index = true) :
    (∃ address, i = .setIndex address) ∨ (∃ x, i = .addIndex x) ∨ ∃ x, i = .pointAtGlyph x := by
  cases i with
  | setIndex address => exact .inl ⟨address, rfl⟩
  | addIndex x => exact .inr (.inl ⟨x, rfl⟩)
  | pointAtGlyph x => exact .inr (.inr ⟨x, rfl⟩)
  | combine operation x y => cases (writes_combine .index nofun operation x y).symm.trans h
  | _ => cases h

theorem writes_stack (h : i.writes .stack = true) : (∃ target, i = .call target) ∨ i = .ret := by
  cases i with
  | call target => exact .inl ⟨target, rfl⟩
  | ret => exact .inr rfl
  | combine operation x y => cases (writes_combine .stack nofun operation x y).symm.trans h
  | _ => cases h

theorem writes_delayTimer (h : i.writes .delayTimer = true) : ∃ x, i = .setDelay x := by
  cases i with
  | setDelay x => exact ⟨x, rfl⟩
  | combine operation x y => cases (writes_combine .delayTimer nofun operation x y).symm.trans h
  | _ => cases h

theorem writes_soundTimer (h : i.writes .soundTimer = true) : ∃ x, i = .setSound x := by
  cases i with
  | setSound x => exact ⟨x, rfl⟩
  | combine operation x y => cases (writes_combine .soundTimer nofun operation x y).symm.trans h
  | _ => cases h

theorem writes_awaiting (h : i.writes .awaiting = true) : ∃ x, i = .awaitKey x := by
  cases i with
  | awaitKey x => exact ⟨x, rfl⟩
  | combine operation x y => cases (writes_combine .awaiting nofun operation x y).symm.trans h
  | _ => cases h

/-- keys change from outside only -/
theorem writes_keys (i : Instruction) : i.writes .keys = false := by
  cases i with
  | combine operation x y => exact writes_combine .keys nofun operation x y
  | _ => rfl

end

end Chip8
