import Chip8.Proofs.Machine.Frame

/-!
# Results and flags as whole numbers

A sum of two bytes may have a ninth bit, a difference may fall below zero, and a shift loses a bit.
What does not fit into the result goes to the flag register, so that the two together say what the
operands were.  The flag is written first and the operands are read before both; if the result goes
to the flag register as well, it is the result that stays.

* `add_exact`, `subtract_exact`, `shiftRight_exact`, `shiftLeft_exact`    the operations on bytes,
                               with their flags, against those on numbers;
* `Instruction.Leaves`         what is left of the registers, result and flag;
* `leaves_of_exact`            a flag and then a result leave just that, whatever the registers;
* `flag_arithmetic`            the five instructions that set a flag from bytes.
-/

namespace Chip8

/-! ## bytes and numbers -/

theorem toNat_byteOfBool (b : Bool) : (byteOfBool b).toNat = b.toNat := by
  cases b <;> rfl

/-- the flag is the ninth bit of the sum -/
theorem add_exact (a b : UInt8) :
    (a + b).toNat + 256 * (byteOfBool (256 ≤ a.toNat + b.toNat)).toNat = a.toNat + b.toNat := by
  have ha := a.toNat_lt
  have hb := b.toNat_lt
  have hs : (a + b).toNat = (a.toNat + b.toNat) % 256 := UInt8.toNat_add a b
  rw [hs, toNat_byteOfBool]
  by_cases h : 256 ≤ a.toNat + b.toNat
  · rw [decide_eq_true h, Bool.toNat_true]
    omega
  · rw [decide_eq_false h, Bool.toNat_false]
    omega

theorem toNat_subtract (a b : UInt8) : (a - b).toNat = (a.toNat + 256 - b.toNat) % 256 := by
  have hb := b.toNat_lt
  have hs : (a - b).toNat = (256 - b.toNat + a.toNat) % 256 := UInt8.toNat_sub a b
  rw [hs]
  omega

/-- the flag is missing if 256 had to be borrowed -/
theorem subtract_exact (a b : UInt8) :
    (a - b).toNat + b.toNat = a.toNat + 256 * (1 - (byteOfBool (b ≤ a)).toNat) := by
  have ha := a.toNat_lt
  have hb := b.toNat_lt
  rw [toNat_subtract, toNat_byteOfBool]
  by_cases h : b ≤ a
  · have hn : b.toNat ≤ a.toNat := UInt8.le_iff_toNat_le.mp h
    rw [decide_eq_true h, Bool.toNat_true]
    omega
  · have hn : ¬ b.toNat ≤ a.toNat := fun hle => h (UInt8.le_iff_toNat_le.mpr hle)
    rw [decide_eq_false h, Bool.toNat_false]
    omega

theorem toNat_shiftRight (a : UInt8) : (a >>> 1).toNat = a.toNat / 2 := by
  show a.toNat >>> (1 % 8) = a.toNat / 2
  rw [Nat.shiftRight_eq_div_pow]

theorem toNat_shiftLeft (a : UInt8) : (a <<< 1).toNat = 2 * a.toNat % 256 := by
  show a.toNat <<< (1 % 8) % 256 = 2 * a.toNat % 256
  rw [Nat.shiftLeft_eq, Nat.mul_comm]

/-- the flag is the bit that is shifted out below -/
theorem shiftRight_exact (a : UInt8) : 2 * (a >>> 1).toNat + (a &&& 1).toNat = a.toNat := by
  have hl : (a &&& 1).toNat = a.toNat % 2 := Nat.and_one_is_mod a.toNat
  rw [toNat_shiftRight, hl]
  omega

/-- the flag is the bit that is shifted out above -/
theorem shiftLeft_exact (a : UInt8) :
    (a <<< 1).toNat + 256 * (a >>> 7).toNat = 2 * a.toNat := by
  have hh : (a >>> 7).toNat = a.toNat / 128 := by
    show a.toNat >>> (7 % 8) = a.toNat / 128
    rw [Nat.shiftRight_eq_div_pow]
  have ha := a.toNat_lt
  rw [toNat_shiftLeft, hh]
  omega

theorem flag_le_one (direction : Shift) (a : UInt8) : (direction.flag a).toNat ≤ 1 := by
  have ha := a.toNat_lt
  cases direction with
  | right =>
    have h := shiftRight_exact a
    rw [toNat_shiftRight] at h
    show (a &&& 1).toNat ≤ 1
    omega
  | left =>
    have h := shiftLeft_exact a
    show (a >>> 7).toNat ≤ 1
    omega

/-! ## registers -/

namespace Instruction

/-- nothing but registers differs between the machine `m` before and `n` behind an instruction that
computes a result for `x`.  Result and flag are a byte and a bit that fulfil an equation together;
if `x` is the flag register, there is no flag and the result is what it would be elsewhere -/
structure Leaves (x : Register) (equation : Nat → Nat → Prop) (result : Nat) (m n : Machine) :
    Prop where
  exact (hx : x ≠ Register.flag) :
    equation (n.register x).toNat (n.register Register.flag).toNat
  bit (hx : x ≠ Register.flag) : n.register Register.flag = 0 ∨ n.register Register.flag = 1
  byte (hx : x ≠ Register.flag) : (n.register x).toNat < 256
  discarded (hx : x = Register.flag) : (n.register Register.flag).toNat = result
  others (z : Register) (hx : z ≠ x) (hf : z ≠ Register.flag) : n.register z = m.register z
  rest : n = { m with registers := n.registers }

/-- the flag first and then the result, in registers that may be one and the same -/
theorem leaves_of_exact {x : Register} {equation : Nat → Nat → Prop} {value bit : UInt8}
    (he : equation value.toNat bit.toNat) (hb : bit.toNat ≤ 1) (m : Machine) :
    Leaves x equation value.toNat m ((m.setFlag (some bit)).setRegister x value) := by
  have hr : ∀ z, ((m.setFlag (some bit)).setRegister x value).register z =
      if z = x then value else if z = Register.flag then bit else m.register z := by
    intro z
    rw [Machine.register_setRegister, Machine.setFlag, Machine.register_setRegister]
  refine
    { exact := ?_, bit := ?_, byte := fun _ => UInt8.toNat_lt _, discarded := ?_, others := ?_,
      rest := rfl }
  · intro hx
    rw [hr, hr, if_pos rfl, if_neg (Ne.symm hx), if_pos rfl]
    exact he
  · intro hx
    rw [hr, if_neg (Ne.symm hx), if_pos rfl]
    have h01 : bit.toNat = 0 ∨ bit.toNat = 1 := by omega
    obtain h0 | h1 := h01
    · exact .inl (UInt8.toNat_inj.mp h0)
    · exact .inr (UInt8.toNat_inj.mp h1)
  · intro hx
    rw [hr, if_pos hx.symm]
  · intro z hx hf
    rw [hr, if_neg hx, if_neg hf]

/-- the instruction is executed, goes on behind itself and leaves result and flag -/
def Computes (core : Core) (x : Register) (i : Instruction) (equation : Nat → Nat → Prop)
    (result : Nat) : Prop :=
  ∃ after, i.execute.run core = .ok .next after ∧ after.generator = core.generator ∧
    Leaves x equation result core.machine after.machine

theorem computes_combine {operation : Arithmetic} {core : Core} {x y : Register}
    {equation : Nat → Nat → Prop} {result : Nat} {bit : Bool}
    (hf : operation.flag? (core.machine.register x) (core.machine.register y) =
      some (byteOfBool bit))
    (he : equation
      (operation.result (core.machine.register x) (core.machine.register y)).toNat
      (byteOfBool bit).toNat)
    (hr : (operation.result (core.machine.register x) (core.machine.register y)).toNat = result) :
    Computes core x (.combine operation x y) equation result := by
  have hb : (byteOfBool bit).toNat ≤ 1 := by
    rw [toNat_byteOfBool]
    exact Bool.toNat_le bit
  have hl := leaves_of_exact (x := x) he hb core.machine
  rw [hr, ← hf] at hl
  exact ⟨_, rfl, rfl, hl⟩

theorem computes_shift {direction : Shift} {core : Core} {x : Register}
    {equation : Nat → Nat → Prop} {result : Nat}
    (he : equation (direction.result (core.machine.register x)).toNat
      (direction.flag (core.machine.register x)).toNat)
    (hr : (direction.result (core.machine.register x)).toNat = result) :
    Computes core x (.shift direction x) equation result := by
  have hl := leaves_of_exact (x := x) he (flag_le_one direction _) core.machine
  rw [hr] at hl
  exact ⟨_, rfl, rfl, hl⟩

/-- **Result and flag say what the operands were.**  On every machine and for any two registers, the
same one or not, the five operations are executed, and the numbers they leave add up: the flag of a
sum counts 256, that of a difference says that no 256 was borrowed, that of a shift is the bit that
was shifted out.  In the flag register the result stays, and the flag is lost. -/
theorem flag_arithmetic (core : Core) (x y : Register) :
    let a := (core.machine.register x).toNat
    let b := (core.machine.register y).toNat
    Computes core x (.combine .add x y) (fun r f => r + 256 * f = a + b) ((a + b) % 256) ∧
    Computes core x (.combine .subtract x y) (fun r f => r + b = a + 256 * (1 - f))
      ((a + 256 - b) % 256) ∧
    Computes core x (.combine .subtractFrom x y) (fun r f => r + a = b + 256 * (1 - f))
      ((b + 256 - a) % 256) ∧
    Computes core x (.shift .right x) (fun r f => 2 * r + f = a) (a / 2) ∧
    Computes core x (.shift .left x) (fun r f => r + 256 * f = 2 * a) (2 * a % 256) := by
  intro a b
  refine ⟨?_, ?_, ?_, ?_, ?_⟩
  · exact computes_combine rfl (add_exact _ _) (UInt8.toNat_add _ _)
  · exact computes_combine rfl (subtract_exact _ _) (toNat_subtract _ _)
  · exact computes_combine rfl (subtract_exact _ _) (toNat_subtract _ _)
  · exact computes_shift (shiftRight_exact _) (toNat_shiftRight _)
  · exact computes_shift (shiftLeft_exact _) (toNat_shiftLeft _)

end Instruction

end Chip8
