import Chip8.Proofs.Machine.Atomic
import Chip8.Proofs.Screen.Strict

/-!
# Strict execution: nothing out of range

The instructions once more, in strict operations: each access to memory, registers or screen is by
an index or a slice that must lie in the array, bytes are copied only to as many places, and shifts
and differences must be in range.  What is not breaks off, which is no fault of the machine.  No
instruction ever does.

* `Stop`, `Work`           strict work, which a fault or a break ends;
* `plain`, `checked`       an action as strict work, and an operation that may break off;
* `memoryRange`            the check of a range of addresses, with its bounds;
* `execute`                the instructions;
* `execute_eq`             they do what the instructions do, so that nothing breaks off.
-/

namespace Chip8.Strict
open Chip8.Action

inductive Stop
  | fault (fault : Fault)
  /-- an index, a slice, a copy, a shift or a difference out of range -/
  | broken
  deriving DecidableEq, Repr

abbrev Work := EStateM Stop Core

section
variable {α : Type}

/-- an action without anything to check -/
def plain (a : Action α) : Work α := fun core =>
  match a.run core with
  | .ok x after => .ok x after
  | .error fault after => .error (.fault fault) after

def checked : Option α → Work α
  | some a => pure a
  | none => throw .broken

@[simp] theorem checked_some (a : α) : checked (some a) = pure a := rfl

theorem run_plain (a : Action α) (core : Core) :
    (plain a).run core =
      match a.run core with
      | .ok x after => .ok x after
      | .error fault after => .error (.fault fault) after := rfl

end

/-! ## registers -/

def register (x : Register) : Work UInt8 := do
  let m ← plain machine
  checked (element m.registers x.val)

def setRegister (x : Register) (value : UInt8) : Work Unit := do
  let m ← plain machine
  let registers ← checked (replace m.registers x.val value)
  plain (change ({ · with registers }))

def setFlag : Option UInt8 → Work Unit
  | none => return ()
  | some flag => setRegister Register.flag flag

/-- puts bytes into registers, one after the other -/
def setRegisters : List (Register × UInt8) → Work Unit
  | [] => return ()
  | (x, byte) :: rest => do
    setRegister x byte
    setRegisters rest

theorem register_eq (x : Register) :
    register x = plain do
      let m ← machine
      return m.register x := by
  funext core
  show checked (element core.machine.registers x.val) core = _
  rw [element_of_lt _ x.isLt]
  rfl

theorem setRegister_eq (x : Register) (value : UInt8) :
    setRegister x value = plain (change (·.setRegister x value)) := by
  funext core
  show (checked (replace core.machine.registers x.val value) >>= fun registers =>
    plain (change ({ · with registers }))) core = _
  rw [replace_of_lt _ _ x.isLt]
  rfl

theorem setFlag_eq (flag : Option UInt8) : setFlag flag = plain (change (·.setFlag flag)) := by
  cases flag with
  | none => rfl
  | some value => exact setRegister_eq Register.flag value

theorem setRegisters_eq (values : List (Register × UInt8)) :
    setRegisters values = plain (change fun m =>
      { m with registers := values.foldl (fun v p => v.set p.1 p.2) m.registers }) := by
  induction values with
  | nil => rfl
  | cons p rest ih =>
    rw [setRegisters, setRegister_eq, ih]
    rfl

/-! ## memory -/

/-- the bounds of `count` addresses, if they lie in memory -/
def memoryRange (start : UInt16) (count : Nat) : Work (Nat × Nat) := do
  let m ← plain machine
  let stop := start.toNat + count
  if Memory.size < stop then
    let last ← checked (difference stop 1)
    plain (fault (.outOfBounds m.programCounter last))
  else return (start.toNat, stop)

/-- copies bytes to as many addresses -/
def overwrite (memory : Memory) (range : Nat × Nat) (values : List UInt8) : Option Memory :=
  if range.1 ≤ range.2 ∧ range.2 ≤ Memory.size ∧ values.length = range.2 - range.1 then
    some (memory.write range.1 values)
  else none

theorem run_memoryRange (start : UInt16) (count : Nat) (core : Core) :
    (memoryRange start count).run core =
      if Memory.Covers start.toNat count then .ok (start.toNat, start.toNat + count) core
      else .error (.fault (core.machine.outOfBounds start count)) core := by
  have hr : (memoryRange start count).run core =
      (if Memory.size < start.toNat + count then do
        let last ← checked (difference (start.toNat + count) 1)
        plain (fault (.outOfBounds core.machine.programCounter last))
      else return (start.toNat, start.toNat + count) : Work (Nat × Nat)).run core := rfl
  by_cases hc : Memory.Covers start.toNat count
  · have hn : ¬ Memory.size < start.toNat + count := Nat.not_lt.mpr hc
    rw [hr, if_pos hc, if_neg hn]
    rfl
  · have hn : Memory.size < start.toNat + count := Nat.not_le.mp hc
    have h1 : 1 ≤ start.toNat + count := Nat.le_trans (by decide) (Nat.le_of_lt hn)
    rw [hr, if_neg hc, if_pos hn, difference_of_le h1]
    rfl

theorem slice_cells {memory : Memory} {start count : Nat} (h : Memory.Covers start count) :
    slice memory.cells start (start + count) = some (memory.read start count) := by
  have hs : start + count ≤ 4096 := h
  rw [slice_of_le _ (Nat.le_add_right start count) hs, Option.some.injEq]
  apply List.ext_getElem
  · simp [Memory.read]
    omega
  · intro i h1 h2
    have hi : start + i < 4096 := by
      simp at h1
      omega
    simp [Memory.read, Memory.byte, hi]

theorem overwrite_of_covers {memory : Memory} {start count : Nat} {values : List UInt8}
    (hl : values.length = count) (h : Memory.Covers start count) :
    overwrite memory (start, start + count) values = some (memory.write start values) :=
  if_pos ⟨Nat.le_add_right _ _, h, hl.trans (Nat.add_sub_cancel_left _ _).symm⟩

/-! ## the instructions -/

/-- the flag and the result of a shift -/
def shifted (byte : UInt8) : Shift → Option (UInt8 × UInt8)
  | .right => do return (byte &&& 1, ← shiftRight byte 1)
  | .left => do return (← shiftRight byte 7, ← shiftLeft byte 1)

/-- whether a skip skips; a key is looked for, so that there need not be one -/
def holds : Condition → Work Bool
  | .equalsConstant x constant => do return (← register x) == constant
  | .differsFromConstant x constant => do return (← register x) != constant
  | .equals x y => do return (← register x) == (← register y)
  | .differs x y => do return (← register x) != (← register y)
  | .pressed x => do
    let m ← plain machine
    return m.isPressed (← register x)
  | .notPressed x => do
    let m ← plain machine
    return !m.isPressed (← register x)

/-- the names of the registers, in order -/
def names : Vector Register 16 := Vector.ofFn id

def execute : Instruction → Work Flow
  | .jumpOffset address => do
    let offset ← register 0
    plain (jumpTo (UInt16.ofNat address.val + offset.toUInt16))
  | .skip condition => do return if ← holds condition then .skip else .next
  | .setConstant x constant => do
    setRegister x constant
    return .next
  | .addConstant x constant => do
    let a ← register x
    setRegister x (a + constant)
    return .next
  | .combine operation x y => do
    let a ← register x
    let b ← register y
    setFlag (operation.flag? a b)
    setRegister x (operation.result a b)
    return .next
  | .shift direction x => do
    let a ← register x
    let (flag, result) ← checked (shifted a direction)
    setFlag (some flag)
    setRegister x result
    return .next
  | .addIndex x => do
    let a ← register x
    plain (update fun m => { m with index := m.index + a.toUInt16 })
  | .pointAtGlyph x => do
    let a ← register x
    plain (update ({ · with index := Font.address (Nibble.masked a.toNat) }))
  | .random x mask => do
    let byte ← plain randomByte
    setRegister x (byte &&& mask)
    return .next
  | .readDelay x => do
    let m ← plain machine
    setRegister x m.delayTimer
    return .next
  | .setDelay x => do
    let a ← register x
    plain (update ({ · with delayTimer := a }))
  | .setSound x => do
    let a ← register x
    plain (update ({ · with soundTimer := a }))
  | .draw x y rows => do
    let m ← plain machine
    let range ← memoryRange m.index rows.val
    let left ← register x
    let top ← register y
    let sprite ← checked (slice m.memory.cells range.1 range.2)
    let drawn ← checked (draw m.screen left top sprite)
    plain (change ({ · with screen := drawn.1 }))
    setRegister Register.flag (byteOfBool drawn.2)
    return .next
  | .storeDecimal x => do
    let m ← plain machine
    let range ← memoryRange m.index 3
    let a ← register x
    let memory ← checked (overwrite m.memory range (decimalDigits a))
    plain (update ({ · with memory }))
  | .storeRegisters last => do
    let m ← plain machine
    let range ← memoryRange m.index (last.val + 1)
    let values ← checked (slice m.registers 0 (last.val + 1))
    let memory ← checked (overwrite m.memory range values)
    plain (update ({ · with memory }))
  | .loadRegisters last => do
    let m ← plain machine
    let range ← memoryRange m.index (last.val + 1)
    let targets ← checked (slice names 0 (last.val + 1))
    let bytes ← checked (slice m.memory.cells range.1 range.2)
    setRegisters (targets.zip bytes)
    return .next
  -- nothing of an array and no shift or difference in the others
  | i => plain i.execute

/-! ## what is accessed in an instruction -/

theorem shifted_eq (byte : UInt8) (direction : Shift) :
    shifted byte direction = some (direction.flag byte, direction.result byte) := by
  cases direction <;> rfl

theorem holds_eq (condition : Condition) :
    holds condition = plain do
      let m ← machine
      return condition.holds m := by
  cases condition with
  | equalsConstant x constant => rw [holds, register_eq]; rfl
  | differsFromConstant x constant => rw [holds, register_eq]; rfl
  | equals x y => rw [holds, register_eq, register_eq]; rfl
  | differs x y => rw [holds, register_eq, register_eq]; rfl
  | pressed x => rw [holds, register_eq]; rfl
  | notPressed x => rw [holds, register_eq]; rfl

theorem slice_names (last : Register) :
    slice names 0 (last.val + 1) = some (Register.upTo last) := by
  rw [slice_of_le _ (Nat.zero_le _) last.isLt]
  rfl

theorem length_upTo (last : Register) : (Register.upTo last).length = last.val + 1 := by
  have hl : last.val + 1 ≤ 16 := last.isLt
  rw [Register.upTo, Register.all, List.length_take, List.length_finRange, Nat.min_eq_left hl]

theorem length_registersUpTo (m : Machine) (last : Register) :
    (m.registersUpTo last).length = last.val + 1 := by
  rw [Machine.registersUpTo, List.length_map, length_upTo]

theorem slice_registers (m : Machine) (last : Register) :
    slice m.registers 0 (last.val + 1) = some (m.registersUpTo last) := by
  rw [slice_of_le _ (Nat.zero_le _) last.isLt, Option.some.injEq, List.drop_zero]
  apply List.ext_getElem
  · simp [Machine.registersUpTo, Register.upTo, Register.all]
  · intro i h1 h2
    simp [Machine.registersUpTo, Register.upTo, Register.all, Machine.register]

theorem read_eq_map_upTo (memory : Memory) (start : Nat) (last : Register) :
    memory.read start (last.val + 1) =
      (Register.upTo last).map fun x => memory.byte (start + x.val) := by
  apply List.ext_getElem
  · rw [Memory.read, List.length_map, List.length_range, List.length_map, length_upTo]
  · intro i h1 h2
    simp [Memory.read, Register.upTo, Register.all]

theorem mem_upTo {x last : Register} : x ∈ Register.upTo last ↔ x ≤ last := by
  simp only [Register.upTo, Register.all, List.mem_take_iff_getElem, List.getElem_finRange,
    List.length_finRange]
  constructor
  · rintro ⟨i, hi, rfl⟩
    exact Fin.le_def.mpr (by simp; omega)
  · intro h
    have hv : x.val ≤ last.val := Fin.le_def.mp h
    exact ⟨x.val, by omega, rfl⟩

/-- registers that receive a value each, and the others -/
theorem getElem_foldl_set (targets : List Register) (f : Register → UInt8) (v : Vector UInt8 16)
    (x : Nat) (hx : x < 16) :
    (⟨x, hx⟩ ∈ targets →
      ((targets.map fun y => (y, f y)).foldl (fun v p => v.set p.1 p.2) v)[x] = f ⟨x, hx⟩) ∧
    (⟨x, hx⟩ ∉ targets →
      ((targets.map fun y => (y, f y)).foldl (fun v p => v.set p.1 p.2) v)[x] = v[x]) := by
  induction targets generalizing v with
  | nil => simp
  | cons y rest ih =>
    obtain ⟨hin, hout⟩ := ih (v.set y (f y))
    rw [List.map_cons, List.foldl_cons]
    by_cases hr : ⟨x, hx⟩ ∈ rest
    · exact ⟨fun _ => hin hr, fun hn => absurd (List.mem_cons_of_mem y hr) hn⟩
    · refine ⟨fun hm => ?_, fun hn => ?_⟩
      · obtain rfl := (List.mem_cons.mp hm).resolve_right hr
        exact (hout hr).trans (Vector.getElem_set_self hx)
      · have hne : y.val ≠ x := fun he => hn (List.mem_cons.mpr (.inl (Fin.ext he.symm)))
        exact (hout hr).trans (Vector.getElem_set_ne y.isLt hx hne)

/-- the bytes behind the index, put into the registers up to the last one -/
theorem foldl_set_read (m : Machine) (last : Register) :
    ((Register.upTo last).zip (m.memory.read m.index.toNat (last.val + 1))).foldl
      (fun v p => v.set p.1 p.2) m.registers = (m.loadRegisters last).registers := by
  rw [read_eq_map_upTo, ← List.map_prod_left_eq_zip]
  apply Vector.ext
  intro i hi
  obtain ⟨hin, hout⟩ := getElem_foldl_set (Register.upTo last)
    (fun x => m.memory.byte (m.index.toNat + x.val)) m.registers i hi
  by_cases hl : (⟨i, hi⟩ : Register) ≤ last
  · rw [hin (mem_upTo.mpr hl)]
    simp [Machine.loadRegisters, hl]
  · rw [hout fun h => hl (mem_upTo.mp h)]
    simp [Machine.loadRegisters, Machine.register, hl]

/-! ## nothing breaks off -/

/-- work that begins with a range of addresses breaks off no more than the action that checks it -/
theorem memoryRange_bind_eq {count : Nat} {f : Machine → Nat × Nat → Work Flow}
    {g : Machine → Machine}
    (hf : ∀ core : Core, Memory.Covers core.machine.index.toNat count →
      (f core.machine (core.machine.index.toNat, core.machine.index.toNat + count)).run core =
        .ok .next { core with machine := g core.machine }) :
    (do
      let m ← plain machine
      let range ← memoryRange m.index count
      f m range) = plain (do covered count; update g) := by
  funext core
  show ((memoryRange core.machine.index count) >>= f core.machine).run core =
    (plain (do covered count; update g)).run core
  rw [EStateM.run_bind, run_memoryRange, run_plain, EStateM.run_bind, run_covered]
  by_cases hc : Memory.Covers core.machine.index.toNat count
  · rw [if_pos hc, if_pos hc]
    exact hf core hc
  · rw [if_neg hc, if_neg hc]

/-- **Nothing breaks off in an instruction.** -/
theorem execute_eq (i : Instruction) : execute i = plain i.execute := by
  cases i with
  | jumpOffset address => rw [execute, register_eq]; rfl
  | skip condition => rw [execute, holds_eq]; rfl
  | setConstant x constant => rw [execute, setRegister_eq]; rfl
  | addConstant x constant => simp only [execute, register_eq, setRegister_eq]; rfl
  | combine operation x y => simp only [execute, register_eq, setRegister_eq, setFlag_eq]; rfl
  | shift direction x =>
    simp only [execute, register_eq, setRegister_eq, setFlag_eq, shifted_eq]
    rfl
  | addIndex x => rw [execute, register_eq]; rfl
  | pointAtGlyph x => rw [execute, register_eq]; rfl
  | random x mask => simp only [execute, setRegister_eq]; rfl
  | readDelay x => simp only [execute, setRegister_eq]; rfl
  | setDelay x => rw [execute, register_eq]; rfl
  | setSound x => rw [execute, register_eq]; rfl
  | draw x y rows =>
    refine memoryRange_bind_eq fun core hc => ?_
    simp only [register_eq, setRegister_eq, slice_cells hc, draw_eq, checked_some]
    rfl
  | storeDecimal x =>
    refine memoryRange_bind_eq fun core hc => ?_
    have hl : ∀ a, (decimalDigits a).length = 3 := fun _ => rfl
    simp only [register_eq, overwrite_of_covers (hl _) hc, checked_some]
    rfl
  | storeRegisters last =>
    refine memoryRange_bind_eq fun core hc => ?_
    have hl : (core.machine.registersUpTo last).length = last.val + 1 := length_registersUpTo _ _
    simp only [slice_registers, checked_some, pure_bind, overwrite_of_covers hl hc]
    rfl
  | loadRegisters last =>
    refine memoryRange_bind_eq fun core hc => ?_
    simp only [slice_names, slice_cells hc, setRegisters_eq, checked_some]
    exact congrArg (fun registers => EStateM.Result.ok Flow.next
      { core with machine := { core.machine with registers } }) (foldl_set_read core.machine last)
  | _ => rfl

end Chip8.Strict
