import Chip8.Instruction.Opcode

/-!
# Opcodes against instructions

Decoding looks at the four digits of an opcode and at nothing else, and every opcode that is written
is made of four digits: an address is three of them, a byte two.  So an opcode that has been written
is decoded by the digits it was written with.

* `decode?_opcodeOfDigits`       decoding an opcode made of four digits;
* `Instruction.homographs`       the jumps whose opcodes are read as something else, with what;
* `Instruction.spelled`          what the opcode of an instruction is read as;
* `decode?_encode`               that is what it is decoded to;
* `encode_eq_iff`                and no other two instructions share an opcode.
-/

namespace Chip8

/-! ## digits -/

theorem ofOpcode_opcodeOfDigits (family x y n : Nibble) :
    Nibble.ofOpcode (opcodeOfDigits family x y n) 0 = family ∧
    Nibble.ofOpcode (opcodeOfDigits family x y n) 1 = x ∧
    Nibble.ofOpcode (opcodeOfDigits family x y n) 2 = y ∧
    Nibble.ofOpcode (opcodeOfDigits family x y n) 3 = n := by
  have hf := family.isLt
  have hx := x.isLt
  have hy := y.isLt
  have hn := n.isLt
  have hw : (opcodeOfDigits family x y n).toNat =
      family.val * 4096 + x.val * 256 + y.val * 16 + n.val := by
    rw [opcodeOfDigits, UInt16.toNat_ofNat']
    omega
  refine ⟨?_, ?_, ?_, ?_⟩ <;> apply Fin.ext <;>
    simp only [Nibble.ofOpcode, Nibble.masked, hw, Fin.ofNat, Nat.shiftRight_eq_div_pow]
  · show (_ / 4096) % 16 = _
    omega
  · show (_ / 256) % 16 = _
    omega
  · show (_ / 16) % 16 = _
    omega
  · show (_ / 1) % 16 = _
    omega

/-- **Decoding looks at the four digits.** -/
theorem decode?_opcodeOfDigits (family x y n : Nibble) :
    Instruction.decode? (opcodeOfDigits family x y n) = Instruction.ofDigits? family x y n := by
  obtain ⟨hf, hx, hy, hn⟩ := ofOpcode_opcodeOfDigits family x y n
  rw [Instruction.decode?, hf, hx, hy, hn]

/-- every address is made of three digits -/
theorem Address.exists_ofNibbles (address : Address) :
    ∃ x y n, Address.ofNibbles x y n = address := by
  have ha := address.isLt
  refine ⟨⟨address.val / 256, by omega⟩, ⟨address.val / 16 % 16, by omega⟩,
    ⟨address.val % 16, by omega⟩, Fin.ext ?_⟩
  show address.val / 256 * 256 + address.val / 16 % 16 * 16 + address.val % 16 = address.val
  omega

/-- every byte is made of two digits -/
theorem exists_byteOfNibbles (byte : UInt8) : ∃ y n, byteOfNibbles y n = byte := by
  have hb := byte.toNat_lt
  refine ⟨⟨byte.toNat / 16, by omega⟩, ⟨byte.toNat % 16, by omega⟩, UInt8.toNat_inj.mp ?_⟩
  rw [byteOfNibbles, UInt8.toNat_ofNat']
  dsimp only
  omega

theorem opcodeOfAddress_ofNibbles (family x y n : Nibble) :
    opcodeOfAddress family (Address.ofNibbles x y n) = opcodeOfDigits family x y n := by
  have ha : (Address.ofNibbles x y n).val = x.val * 256 + (y.val * 16 + n.val) := Nat.add_assoc ..
  rw [opcodeOfAddress, opcodeOfDigits, ha, ← Nat.add_assoc, ← Nat.add_assoc]

theorem opcodeOfByte_byteOfNibbles (family x y n : Nibble) :
    opcodeOfByte family x (byteOfNibbles y n) = opcodeOfDigits family x y n := by
  have hb : (byteOfNibbles y n).toNat = y.val * 16 + n.val := by
    rw [byteOfNibbles, UInt8.toNat_ofNat']
    omega
  rw [opcodeOfByte, opcodeOfDigits, hb, Nat.add_assoc _ (y.val * 16)]

/-- an opcode with an address in it is decoded by the digits of the address -/
theorem decode?_opcodeOfAddress (family : Nibble) (address : Address) :
    ∃ x y n, Address.ofNibbles x y n = address ∧
      Instruction.decode? (opcodeOfAddress family address) =
        Instruction.ofDigits? family x y n := by
  obtain ⟨x, y, n, rfl⟩ := address.exists_ofNibbles
  exact ⟨x, y, n, rfl, by rw [opcodeOfAddress_ofNibbles, decode?_opcodeOfDigits]⟩

/-- an opcode with a byte in it is decoded by the digits of the byte -/
theorem decode?_opcodeOfByte (family x : Nibble) (byte : UInt8) :
    ∃ y n, byteOfNibbles y n = byte ∧
      Instruction.decode? (opcodeOfByte family x byte) = Instruction.ofDigits? family x y n := by
  obtain ⟨y, n, rfl⟩ := exists_byteOfNibbles byte
  exact ⟨y, n, rfl, by rw [opcodeOfByte_byteOfNibbles, decode?_opcodeOfDigits]⟩

/-! ## instructions -/

namespace Instruction

/-- the two jumps whose opcodes stand for another instruction, with that instruction -/
def homographs : List (Instruction × Instruction) :=
  [(.systemJump 0x0E0, .clearScreen), (.systemJump 0x0EE, .ret)]

/-- what the opcode of an instruction is read as -/
def spelled : Instruction → Instruction
  | .systemJump target =>
    if target = 0x0E0 then .clearScreen else if target = 0x0EE then .ret else .systemJump target
  | i => i

theorem decode?_encode_systemJump (target : Address) :
    decode? (systemJump target).encode = some (systemJump target).spelled := by
  obtain ⟨x, y, n, rfl, hd⟩ := decode?_opcodeOfAddress 0x0 target
  rw [spelled, apply_ite some, apply_ite some]
  exact hd

theorem decode?_encode_condition (condition : Condition) :
    decode? condition.encode = some (.skip condition) := by
  cases condition with
  | equalsConstant x constant =>
    obtain ⟨y, n, rfl, hd⟩ := decode?_opcodeOfByte 0x3 x constant
    exact hd
  | differsFromConstant x constant =>
    obtain ⟨y, n, rfl, hd⟩ := decode?_opcodeOfByte 0x4 x constant
    exact hd
  | equals x y => exact decode?_opcodeOfDigits 0x5 x y 0x0
  | differs x y => exact decode?_opcodeOfDigits 0x9 x y 0x0
  | pressed x => exact decode?_opcodeOfDigits 0xE x 0x9 0xE
  | notPressed x => exact decode?_opcodeOfDigits 0xE x 0xA 0x1

/-- **An opcode is decoded to the instruction it was written for**, apart from the two jumps. -/
theorem decode?_encode (i : Instruction) : decode? i.encode = some i.spelled := by
  cases i with
  | systemJump target => exact decode?_encode_systemJump target
  | clearScreen => rfl
  | ret => rfl
  | jump target =>
    obtain ⟨x, y, n, rfl, hd⟩ := decode?_opcodeOfAddress 0x1 target
    exact hd
  | call target =>
    obtain ⟨x, y, n, rfl, hd⟩ := decode?_opcodeOfAddress 0x2 target
    exact hd
  | setIndex address =>
    obtain ⟨x, y, n, rfl, hd⟩ := decode?_opcodeOfAddress 0xA address
    exact hd
  | jumpOffset address =>
    obtain ⟨x, y, n, rfl, hd⟩ := decode?_opcodeOfAddress 0xB address
    exact hd
  | skip condition => exact decode?_encode_condition condition
  | setConstant x constant =>
    obtain ⟨y, n, rfl, hd⟩ := decode?_opcodeOfByte 0x6 x constant
    exact hd
  | addConstant x constant =>
    obtain ⟨y, n, rfl, hd⟩ := decode?_opcodeOfByte 0x7 x constant
    exact hd
  | random x mask =>
    obtain ⟨y, n, rfl, hd⟩ := decode?_opcodeOfByte 0xC x mask
    exact hd
  | combine operation x y =>
    have hd := decode?_opcodeOfDigits 0x8 x y operation.code
    cases operation <;> exact hd
  | shift direction x =>
    have hd := decode?_opcodeOfDigits 0x8 x 0x0 direction.code
    cases direction <;> exact hd
  | draw x y rows => exact decode?_opcodeOfDigits 0xD x y rows
  | readDelay x => exact decode?_opcodeOfDigits 0xF x 0x0 0x7
  | awaitKey x => exact decode?_opcodeOfDigits 0xF x 0x0 0xA
  | setDelay x => exact decode?_opcodeOfDigits 0xF x 0x1 0x5
  | setSound x => exact decode?_opcodeOfDigits 0xF x 0x1 0x8
  | addIndex x => exact decode?_opcodeOfDigits 0xF x 0x1 0xE
  | pointAtGlyph x => exact decode?_opcodeOfDigits 0xF x 0x2 0x9
  | storeDecimal x => exact decode?_opcodeOfDigits 0xF x 0x3 0x3
  | storeRegisters last => exact decode?_opcodeOfDigits 0xF last 0x5 0x5
  | loadRegisters last => exact decode?_opcodeOfDigits 0xF last 0x6 0x5

/-! ## decoding with a fault -/

theorem decode_eq_ok_iff {opcode : UInt16} {i : Instruction} :
    decode opcode = .ok i ↔ decode? opcode = some i := by
  unfold decode
  cases decode? opcode with
  | none => exact iff_of_false nofun nofun
  | some j => rw [Except.ok.injEq, Option.some.injEq]

/-- what the opcode of an instruction is decoded to -/
theorem decode_encode (i : Instruction) : decode i.encode = .ok i.spelled :=
  decode_eq_ok_iff.mpr i.decode?_encode

/-! ## shared opcodes -/

theorem mem_homographs {i j : Instruction} :
    (i, j) ∈ homographs ↔
      i = .systemJump 0x0E0 ∧ j = .clearScreen ∨ i = .systemJump 0x0EE ∧ j = .ret := by
  simp [homographs]

theorem spelled_of_mem {i j : Instruction} (h : (i, j) ∈ homographs) : i.spelled = j := by
  obtain ⟨rfl, rfl⟩ | ⟨rfl, rfl⟩ := mem_homographs.mp h
  · rfl
  · rfl

theorem encode_of_mem {i j : Instruction} (h : (i, j) ∈ homographs) : i.encode = j.encode := by
  obtain ⟨rfl, rfl⟩ | ⟨rfl, rfl⟩ := mem_homographs.mp h
  · decide
  · decide

/-- an instruction whose opcode is read as another one is one of the two jumps -/
theorem spelled_eq_or_mem (i : Instruction) : i.spelled = i ∨ (i, i.spelled) ∈ homographs := by
  cases i with
  | systemJump target =>
    by_cases hc : target = 0x0E0
    · subst hc
      exact .inr List.mem_cons_self
    · by_cases hr : target = 0x0EE
      · subst hr
        exact .inr (List.mem_cons_of_mem _ List.mem_cons_self)
      · left
        rw [spelled, if_neg hc, if_neg hr]
  | _ => exact .inl rfl

theorem spelled_eq_self_iff {i : Instruction} :
    i.spelled = i ↔ i ≠ .systemJump 0x0E0 ∧ i ≠ .systemJump 0x0EE := by
  constructor
  · intro h
    constructor
    · rintro rfl
      cases h
    · rintro rfl
      cases h
  · rintro ⟨hc, hr⟩
    obtain h | h := i.spelled_eq_or_mem
    · exact h
    · obtain ⟨he, -⟩ | ⟨he, -⟩ := mem_homographs.mp h
      · exact absurd he hc
      · exact absurd he hr

/-- **No two instructions share an opcode**, apart from the two jumps and what they are read as. -/
theorem encode_eq_iff {i j : Instruction} :
    i.encode = j.encode ↔ i = j ∨ (i, j) ∈ homographs ∨ (j, i) ∈ homographs := by
  constructor
  · intro h
    have hs : i.spelled = j.spelled := by
      have hd : decode? i.encode = decode? j.encode := congrArg decode? h
      rw [decode?_encode, decode?_encode] at hd
      exact Option.some.inj hd
    obtain hi | hi := i.spelled_eq_or_mem
    · obtain hj | hj := j.spelled_eq_or_mem
      · exact .inl (hi.symm.trans (hs.trans hj))
      · exact .inr (.inr (hs.symm.trans hi ▸ hj))
    · obtain hj | hj := j.spelled_eq_or_mem
      · exact .inr (.inl (hs.trans hj ▸ hi))
      · -- two jumps that are read as the same instruction
        left
        rw [hs] at hi
        obtain ⟨rfl, hk⟩ | ⟨rfl, hk⟩ := mem_homographs.mp hi
        · rw [hk] at hj
          simpa [mem_homographs, eq_comm] using hj
        · rw [hk] at hj
          simpa [mem_homographs, eq_comm] using hj
  · rintro (rfl | h | h)
    · rfl
    · exact encode_of_mem h
    · exact (encode_of_mem h).symm

end Instruction

end Chip8
