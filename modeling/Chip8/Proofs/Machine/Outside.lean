import Chip8.Proofs.Machine.Overlook

/-!
# What is outside: timers and keys

The timers and the keys are changed from outside, between the instructions, and most instructions
neither ask for them nor set them.  Such an instruction does the same whatever is outside.

* `Outside`, `Machine.outside`     timers and keys of a machine;
* `Machine.isDown`                 one of the keys;
* `Machine.facing`                 the machine with other ones;
* `Instruction.heedsOutside`       the instructions that ask for them, set them or wait for a key;
* `Action.Blind`                   an action does the same whatever is outside;
* `Instruction.execute_blind`      so does every other instruction.
-/

namespace Chip8

/-- what is changed from outside between the instructions -/
structure Outside where
  delayTimer : UInt8
  soundTimer : UInt8
  keys : Vector Bool 16
  deriving DecidableEq

namespace Machine

def outside (m : Machine) : Outside := ⟨m.delayTimer, m.soundTimer, m.keys⟩

/-- whether a key is pressed -/
def isDown (m : Machine) (k : Key) : Bool := m.keys.get k

/-- the machine with other timers and keys -/
def facing (m : Machine) (o : Outside) : Machine :=
  { m with delayTimer := o.delayTimer, soundTimer := o.soundTimer, keys := o.keys }

theorem facing_setFlag (m : Machine) (o : Outside) (flag : Option UInt8) :
    (m.facing o).setFlag flag = (m.setFlag flag).facing o := by
  cases flag <;> rfl

theorem facing_loadRegisters (m : Machine) (o : Outside) (last : Register) :
    (m.facing o).loadRegisters last = (m.loadRegisters last).facing o := by
  rw [loadRegisters, loadRegisters]
  rfl

end Machine

def Core.facing (core : Core) (o : Outside) : Core := { core with machine := core.machine.facing o }

/-- the condition asks for a key -/
def Condition.asksKey : Condition → Bool
  | .pressed _ | .notPressed _ => true
  | _ => false

/-- the instruction reads or sets a timer, asks for a key or waits for one -/
def Instruction.heedsOutside : Instruction → Bool
  | .readDelay _ | .setDelay _ | .setSound _ | .awaitKey _ => true
  | .skip condition => condition.asksKey
  | _ => false

theorem Condition.holds_facing {condition : Condition} (h : condition.asksKey = false) (m : Machine)
    (o : Outside) : condition.holds (m.facing o) = condition.holds m := by
  cases condition with
  | pressed x => cases h
  | notPressed x => cases h
  | _ => rfl

/-! ## actions -/

namespace Action
variable {α β : Type}

/-- the state behind an action, with other timers and keys -/
def resultFacing (o : Outside) : EStateM.Result Fault Core α → EStateM.Result Fault Core α
  | .ok x after => .ok x (after.facing o)
  | .error fault after => .error fault (after.facing o)

/-- whatever is outside, the action does the same and leaves it as it is -/
def Blind (a : Action α) : Prop :=
  ∀ core o, a.run (core.facing o) = resultFacing o (a.run core)

theorem blind_iff {a : Action α} : Blind a ↔ ∀ o, Overlooks (·.facing o) a :=
  ⟨fun h o core => h core o, fun h core o => h o core⟩

theorem aside_facing (o : Outside) : Core.Aside (·.facing o) where
  programCounter _ := rfl
  index _ := rfl
  stack _ := rfl
  setProgramCounter _ _ := rfl
  setStack _ _ := rfl

theorem Blind.bind {a : Action α} {f : α → Action β} (ha : Blind a) (hf : ∀ x, Blind (f x)) :
    Blind (a >>= f) :=
  blind_iff.mpr fun o => (blind_iff.mp ha o).bind fun x => blind_iff.mp (hf x) o

theorem Blind.of_machine {f : Machine → Action α} (hf : ∀ m, Blind (f m))
    (ho : ∀ m o, f (m.facing o) = f m) : Blind (machine >>= f) :=
  blind_iff.mpr fun o => .of_machine (fun m => blind_iff.mp (hf m) o) fun core => ho core.machine o

theorem blind_pure (x : α) : Blind (pure x : Action α) := fun _ _ => rfl

theorem blind_update {f : Machine → Machine} (hf : ∀ m o, f (m.facing o) = (f m).facing o) :
    Blind (update f) :=
  blind_iff.mpr fun o => overlooks_update fun core =>
    congrArg (Core.mk · core.generator) (hf core.machine o)

theorem blind_jumpTo (target : UInt16) : Blind (jumpTo target) := fun _ _ => rfl

theorem blind_randomByte : Blind randomByte := fun _ _ => rfl

theorem blind_covered (count : Nat) : Blind (covered count) :=
  blind_iff.mpr fun o => overlooks_covered (aside_facing o) count

theorem blind_pushReturn : Blind pushReturn :=
  blind_iff.mpr fun o => overlooks_pushReturn (aside_facing o)

theorem blind_popReturn : Blind popReturn :=
  blind_iff.mpr fun o => overlooks_popReturn (aside_facing o)

theorem blind_covered_update (count : Nat) {f : Machine → Machine}
    (hf : ∀ m o, f (m.facing o) = (f m).facing o) : Blind (do covered count; update f) :=
  (blind_covered count).bind fun _ => blind_update hf

end Action

/-! ## the instructions -/

namespace Instruction
open Chip8.Action

/-- **An instruction that does not heed what is outside does the same whatever it is.** -/
theorem execute_blind {i : Instruction} (h : i.heedsOutside = false) : Blind i.execute := by
  cases i with
  | readDelay x => cases h
  | setDelay x => cases h
  | setSound x => cases h
  | awaitKey x => cases h
  | systemJump target => exact blind_jumpTo _
  | jump target => exact blind_jumpTo _
  | jumpOffset address => exact Blind.of_machine (fun _ => blind_jumpTo _) fun _ _ => rfl
  | call target => exact blind_pushReturn.bind fun _ => blind_jumpTo _
  | ret => exact blind_popReturn.bind blind_jumpTo
  | skip condition =>
    refine Blind.of_machine (fun _ => blind_pure _) fun m o => ?_
    rw [Condition.holds_facing h]
  | random x mask => exact blind_randomByte.bind fun _ => blind_update fun _ _ => rfl
  | combine operation x y =>
    refine blind_update fun m o => ?_
    rw [Machine.combine, Machine.facing_setFlag]
    rfl
  | draw x y rows => exact blind_covered_update _ fun _ _ => rfl
  | storeDecimal x => exact blind_covered_update _ fun _ _ => rfl
  | storeRegisters last => exact blind_covered_update _ fun _ _ => rfl
  | loadRegisters last =>
    exact blind_covered_update _ fun m o => m.facing_loadRegisters o last
  | _ => exact blind_update fun _ _ => rfl

end Instruction

end Chip8
