import Chip8.Proofs.Machine.Overlook

/-!
# What an instruction takes from the random generator

One instruction takes a byte from the generator and puts it, masked, into a register.  The others
do the same with any generator and leave it as it is.

* `Generator.upcoming`, `Generator.skip`    the bytes to come, and the generator behind some of them;
* `Instruction.mask?`          the mask of the instruction that takes a byte;
* `Action.Drawless`            an action does the same with any generator;
* `Instruction.execute_drawless`, `run_execute_random`    what the instructions do.
-/

namespace Chip8

namespace Generator

/-- the byte that comes after `k` others -/
def upcoming (g : Generator) (k : Nat) : UInt8 := g.stream (g.position + k)

/-- the generator after the next `n` bytes have been taken -/
def skip (g : Generator) (n : Nat) : Generator := { g with position := g.position + n }

@[simp] theorem skip_skip (g : Generator) (m n : Nat) : (g.skip m).skip n = g.skip (m + n) := by
  rw [skip, skip, skip, Nat.add_assoc]

@[simp] theorem upcoming_skip (g : Generator) (n k : Nat) :
    (g.skip n).upcoming k = g.upcoming (n + k) := by
  rw [upcoming, upcoming, skip, Nat.add_assoc]

end Generator

/-- the mask of the instruction, if it takes a random byte -/
def Instruction.mask? : Instruction → Option UInt8
  | .random _ mask => some mask
  | _ => none

theorem Instruction.eq_of_mask? {i : Instruction} {mask : UInt8} (h : i.mask? = some mask) :
    ∃ x, i = .random x mask := by
  cases i with
  | random x kept =>
    cases h
    exact ⟨x, rfl⟩
  | _ => cases h

/-! ## actions -/

namespace Action
variable {α β : Type} {a : Action α} {f : α → Action β}

/-- the state behind an action, with another generator -/
def resultWith (g : Generator) : EStateM.Result Fault Core α → EStateM.Result Fault Core α
  | .ok x after => .ok x { after with generator := g }
  | .error fault after => .error fault { after with generator := g }

/-- whatever the generator, the action does the same and leaves it as it is -/
def Drawless (a : Action α) : Prop :=
  ∀ m g g', a.run ⟨m, g'⟩ = resultWith g' (a.run ⟨m, g⟩)

/-- a generator put in place of another one is not noticed -/
theorem drawless_iff : Drawless a ↔ ∀ g, Overlooks (fun core => { core with generator := g }) a :=
  ⟨fun h g core => h core.machine core.generator g, fun h m g g' => h g' ⟨m, g⟩⟩

theorem aside_generator (g : Generator) : Core.Aside fun core => { core with generator := g } where
  programCounter _ := rfl
  index _ := rfl
  stack _ := rfl
  setProgramCounter _ _ := rfl
  setStack _ _ := rfl

theorem Drawless.bind (ha : Drawless a) (hf : ∀ x, Drawless (f x)) : Drawless (a >>= f) :=
  drawless_iff.mpr fun g => (drawless_iff.mp ha g).bind fun x => drawless_iff.mp (hf x) g

theorem Drawless.of_machine {f : Machine → Action α} (hf : ∀ m, Drawless (f m)) :
    Drawless (machine >>= f) :=
  fun m => hf m m

theorem drawless_pure (x : α) : Drawless (pure x : Action α) := fun _ _ _ => rfl

theorem drawless_update (f : Machine → Machine) : Drawless (update f) := fun _ _ _ => rfl

theorem drawless_jumpTo (target : UInt16) : Drawless (jumpTo target) := fun _ _ _ => rfl

theorem drawless_covered (count : Nat) : Drawless (covered count) :=
  drawless_iff.mpr fun g => overlooks_covered (aside_generator g) count

theorem drawless_pushReturn : Drawless pushReturn :=
  drawless_iff.mpr fun g => overlooks_pushReturn (aside_generator g)

theorem drawless_popReturn : Drawless popReturn :=
  drawless_iff.mpr fun g => overlooks_popReturn (aside_generator g)

end Action

/-! ## the instructions -/

namespace Instruction
open Chip8.Action

/-- **Every other instruction does the same whatever the generator.** -/
theorem execute_drawless {i : Instruction} (h : i.mask? = none) : Drawless i.execute := by
  cases i with
  | random x mask => cases h
  | systemJump target => exact drawless_jumpTo _
  | jump target => exact drawless_jumpTo _
  | jumpOffset address => exact .of_machine fun _ => drawless_jumpTo _
  | call target => exact drawless_pushReturn.bind fun _ => drawless_jumpTo _
  | ret => exact drawless_popReturn.bind drawless_jumpTo
  | skip condition => exact .of_machine fun _ => drawless_pure _
  | draw x y rows => exact (drawless_covered _).bind fun _ => drawless_update _
  | storeDecimal x => exact (drawless_covered _).bind fun _ => drawless_update _
  | storeRegisters last => exact (drawless_covered _).bind fun _ => drawless_update _
  | loadRegisters last => exact (drawless_covered _).bind fun _ => drawless_update _
  | _ => exact drawless_update _

theorem run_execute_random (x : Register) (mask : UInt8) (core : Core) :
    (random x mask).execute.run core =
      .ok .next ⟨core.machine.setRegister x (core.generator.upcoming 0 &&& mask),
        core.generator.skip 1⟩ := rfl

end Instruction

end Chip8
