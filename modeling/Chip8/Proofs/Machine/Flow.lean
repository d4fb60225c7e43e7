import Chip8.Machine.Execute

/-!
# Where execution goes on

The program counter has 16 bits and its sums wrap around.  The destination of an instruction is
the address at which execution goes on behind it, as a plain sum.

* `Instruction.destination`     the address, as a number without bounds;
* `Action.GoesTo`               an action puts the program counter there, unless a sum wraps around;
* `Instruction.execute_goesTo`  every instruction does.
-/

namespace Chip8

/-- the address at which execution goes on behind the instruction -/
def Instruction.destination (m : Machine) : Instruction → Nat
  | .systemJump target | .jump target | .call target => target.val
  | .jumpOffset address => address.val + (m.register 0).toNat
  | .ret => (m.stack.entries.headD 0).toNat
  | .skip condition => m.programCounter.toNat + if condition.holds m then 4 else 2
  | _ => m.programCounter.toNat + 2

/-! ## sums that do not wrap around -/

namespace Machine

theorem toNat_programCounter_add (m : Machine) {n : Nat} (hn : n ≤ 4)
    (h : m.programCounter.toNat + 4 < UInt16.size) :
    (m.programCounter + UInt16.ofNat n).toNat = m.programCounter.toNat + n := by
  have hw : m.programCounter.toNat + 4 < 65536 := h
  rw [UInt16.toNat_add, UInt16.toNat_ofNat']
  omega

theorem toNat_proceed_next {m : Machine} (h : m.programCounter.toNat + 4 < UInt16.size) :
    (m.proceed .next).programCounter.toNat = m.programCounter.toNat + 2 :=
  m.toNat_programCounter_add (by decide) h

theorem toNat_proceed_skip {m : Machine} (h : m.programCounter.toNat + 4 < UInt16.size) :
    (m.proceed .skip).programCounter.toNat = m.programCounter.toNat + 4 :=
  m.toNat_programCounter_add (by decide) h

end Machine

/-! ## actions -/

namespace Action
variable {α : Type} {destination : Machine → Nat}

/-- from a program counter whose sums do not wrap around, the action leads to the destination -/
def GoesTo (destination : Machine → Nat) (a : Action Flow) : Prop :=
  ∀ core flow after, core.machine.programCounter.toNat + 4 < UInt16.size →
    a.run core = .ok flow after →
    (after.machine.proceed flow).programCounter.toNat = destination core.machine

theorem update_goesTo {f : Machine → Machine} (hf : ∀ m, (f m).programCounter = m.programCounter) :
    GoesTo (fun m => m.programCounter.toNat + 2) (update f) := by
  intro core flow after hw h
  cases h
  have hp : (f core.machine).programCounter = core.machine.programCounter := hf _
  show ((f core.machine).proceed .next).programCounter.toNat = _
  rw [Machine.toNat_proceed_next (hp ▸ hw), hp]

/-- what comes before leaves the machine as it is -/
theorem GoesTo.bind {a : Action α} {f : α → Action Flow}
    (ha : ∀ core x after, a.run core = .ok x after → after.machine = core.machine)
    (hf : ∀ x, GoesTo destination (f x)) : GoesTo destination (a >>= f) := by
  intro core flow after hw h
  rw [EStateM.run_bind] at h
  cases hx : a.run core with
  | ok x mid =>
    rw [hx] at h
    have hm : mid.machine = core.machine := ha core x mid hx
    rw [← hm]
    exact hf x mid flow after (hm ▸ hw) h
  | error e mid =>
    rw [hx] at h
    cases h

theorem machine_of_covered (count : Nat) (core : Core) (x : Unit) (after : Core)
    (h : (covered count).run core = .ok x after) : after.machine = core.machine := by
  rw [run_covered] at h
  split at h
  · cases h
    rfl
  · cases h

theorem machine_of_randomByte (core : Core) (byte : UInt8) (after : Core)
    (h : randomByte.run core = .ok byte after) : after.machine = core.machine := by
  cases h
  rfl

theorem covered_update_goesTo (count : Nat) {f : Machine → Machine}
    (hf : ∀ m, (f m).programCounter = m.programCounter) :
    GoesTo (fun m => m.programCounter.toNat + 2) (do covered count; update f) :=
  GoesTo.bind (machine_of_covered count) fun _ => update_goesTo hf

end Action

/-! ## the instructions -/

theorem Machine.programCounter_setFlag (m : Machine) (flag : Option UInt8) :
    (m.setFlag flag).programCounter = m.programCounter := by
  cases flag <;> rfl

theorem Machine.programCounter_loadRegisters (m : Machine) (last : Register) :
    (m.loadRegisters last).programCounter = m.programCounter := by
  rw [Machine.loadRegisters]

namespace Instruction
open Chip8.Action

theorem toNat_ofNat_address (address : Address) :
    (UInt16.ofNat address.val).toNat = address.val := by
  rw [UInt16.toNat_ofNat']
  omega

theorem call_goesTo (target : Address) :
    GoesTo (fun _ => target.val) (call target).execute := by
  intro core flow after _ h
  rw [run_execute_call] at h
  split at h
  · cases h
    show (UInt16.ofNat target.val).toNat = target.val
    exact toNat_ofNat_address target
  · cases h

theorem ret_goesTo : GoesTo (fun m => (m.stack.entries.headD 0).toNat) ret.execute := by
  intro core flow after _ h
  rw [run_execute_ret, CallStack.pop] at h
  cases he : core.machine.stack.entries with
  | nil =>
    rw [he] at h
    cases h
  | cons address rest =>
    rw [he] at h
    cases h
    show address.toNat = (core.machine.stack.entries.headD 0).toNat
    rw [he]
    rfl

theorem skip_goesTo (condition : Condition) :
    GoesTo (fun m => m.programCounter.toNat + if condition.holds m then 4 else 2)
      (skip condition).execute := by
  intro core flow after hw h
  cases h
  show (core.machine.proceed
      (if condition.holds core.machine then .skip else .next)).programCounter.toNat =
    core.machine.programCounter.toNat + if condition.holds core.machine then 4 else 2
  by_cases hc : condition.holds core.machine = true
  · rw [if_pos hc, if_pos hc, Machine.toNat_proceed_skip hw]
  · rw [if_neg hc, if_neg hc, Machine.toNat_proceed_next hw]

theorem jump_goesTo (target : Address) :
    GoesTo (fun _ => target.val) (jumpTo (UInt16.ofNat target.val)) := by
  intro core flow after _ h
  cases h
  show (UInt16.ofNat target.val).toNat = target.val
  exact toNat_ofNat_address target

theorem jumpOffset_goesTo (address : Address) :
    GoesTo (fun m => address.val + (m.register 0).toNat) (jumpOffset address).execute := by
  intro core flow after _ h
  cases h
  have hv := (core.machine.register 0).toNat_lt
  show (UInt16.ofNat address.val + (core.machine.register 0).toUInt16).toNat =
    address.val + (core.machine.register 0).toNat
  rw [UInt16.toNat_add, toNat_ofNat_address, UInt8.toNat_toUInt16]
  omega

/-- **Execution goes on at the destination**, for every instruction that does not fault. -/
theorem execute_goesTo (i : Instruction) : GoesTo i.destination i.execute := by
  cases i with
  | systemJump target => exact jump_goesTo target
  | jump target => exact jump_goesTo target
  | jumpOffset address => exact jumpOffset_goesTo address
  | call target => exact call_goesTo target
  | ret => exact ret_goesTo
  | skip condition => exact skip_goesTo condition
  | combine operation x y => exact update_goesTo fun m => m.programCounter_setFlag _
  | random x mask => exact GoesTo.bind machine_of_randomByte fun _ => update_goesTo fun _ => rfl
  | draw x y rows => exact covered_update_goesTo _ fun _ => rfl
  | storeDecimal x => exact covered_update_goesTo _ fun _ => rfl
  | storeRegisters last => exact covered_update_goesTo _ fun _ => rfl
  | loadRegisters last =>
    exact covered_update_goesTo _ fun m => m.programCounter_loadRegisters last
  | _ => exact update_goesTo fun _ => rfl

end Instruction

end Chip8
