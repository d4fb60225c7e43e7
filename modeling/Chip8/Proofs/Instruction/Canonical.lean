import Chip8.Proofs.Instruction.Opcode

/-!
# Opcodes of one instruction

Some members of a family leave one digit of their opcode unused.  Opcodes that differ in such a digit
only stand for one instruction, and one of them is the opcode that is written for it.  No other two
opcodes stand for the same instruction.

* `Instruction.Unused`            the digit of an opcode that decoding does not use;
* `Instruction.SameWhereUsed`     opcodes that differ in such a digit only;
* `Instruction.Unassigned`        the opcodes of no instruction;
* `Instruction.canonical`         the opcode that is written for the instruction of an opcode;
* `rewritten_of_ofDigits?`        it has the same digits where they are used;
* `decode?_eq_iff`                which opcodes stand for the same instruction;
* `ofDigits?_eq_none_iff`         decoding refuses the opcodes of no instruction.
-/

namespace Chip8

theorem Arithmetic.code_of_ofCode? {n : Nibble} {operation : Arithmetic}
    (h : ofCode? n = some operation) : operation.code = n := by
  revert n
  cases operation <;> decide

theorem Shift.code_of_ofCode? {n : Nibble} {direction : Shift} (h : ofCode? n = some direction) :
    direction.code = n := by
  revert n
  cases direction <;> decide

namespace Instruction

/-! ## unused digits -/

/-- the families, with their last digit, in which the third digit is not used -/
def thirdUnused : List (Nibble × Nibble) :=
  [(0x8, 0x6), (0x8, 0xE), (0xE, 0x1), (0xE, 0xE), (0xF, 0x3), (0xF, 0x7), (0xF, 0x8), (0xF, 0x9),
    (0xF, 0xA), (0xF, 0xE)]

/-- decoding does not use the digit at a place of an opcode: the last one in the families that
compare two registers, the third one where only one register is named -/
def Unused (opcode : UInt16) (place : Fin 4) : Prop :=
  place = 3 ∧ (Nibble.ofOpcode opcode 0 = 0x5 ∨ Nibble.ofOpcode opcode 0 = 0x9) ∨
    place = 2 ∧ (Nibble.ofOpcode opcode 0, Nibble.ofOpcode opcode 3) ∈ thirdUnused

instance (opcode : UInt16) (place : Fin 4) : Decidable (Unused opcode place) :=
  inferInstanceAs (Decidable (_ ∨ _))

/-- the opcodes of no instruction, by their digits -/
def Unassigned (family y n : Nibble) : Prop :=
  family = 0x8 ∧ n ∉ [0x0, 0x1, 0x2, 0x3, 0x4, 0x5, 0x6, 0x7, 0xE] ∨
  family = 0xE ∧ n ∉ [0x1, 0xE] ∨
  family = 0xF ∧ n = 0x5 ∧ y ∉ [0x1, 0x5, 0x6] ∨
  family = 0xF ∧ n ∉ [0x3, 0x5, 0x7, 0x8, 0x9, 0xA, 0xE]

instance (family y n : Nibble) : Decidable (Unassigned family y n) :=
  inferInstanceAs (Decidable (_ ∨ _))

variable {opcode other : UInt16} {i : Instruction} {family x y z n k : Nibble}

theorem ofDigits?_third (h : (family, n) ∈ thirdUnused) :
    ofDigits? family x z n = ofDigits? family x y n := by
  simp only [thirdUnused, List.mem_cons, Prod.mk.injEq, List.not_mem_nil, or_false] at h
  obtain ⟨rfl, rfl⟩ | ⟨rfl, rfl⟩ | ⟨rfl, rfl⟩ | ⟨rfl, rfl⟩ | ⟨rfl, rfl⟩ | ⟨rfl, rfl⟩ | ⟨rfl, rfl⟩ |
    ⟨rfl, rfl⟩ | ⟨rfl, rfl⟩ | ⟨rfl, rfl⟩ := h <;> rfl

theorem ofDigits?_last (h : family = 0x5 ∨ family = 0x9) :
    ofDigits? family x y k = ofDigits? family x y n := by
  obtain rfl | rfl := h
  · rfl
  · rfl

/-! ## the written opcode -/

/-- the opcode written for an instruction that has been decoded has the same digits, apart from an
unused one -/
def Rewritten (family x y n : Nibble) (i : Instruction) : Prop :=
  ∃ z k, i.encode = opcodeOfDigits family x z k ∧ (z = y ∨ (family, n) ∈ thirdUnused) ∧
    (k = n ∨ family = 0x5 ∨ family = 0x9)

theorem rewritten_same (h : i.encode = opcodeOfDigits family x y n) : Rewritten family x y n i :=
  ⟨y, n, h, .inl rfl, .inl rfl⟩

theorem rewritten_third (z : Nibble) (h : i.encode = opcodeOfDigits family x z n)
    (hu : (family, n) ∈ thirdUnused) : Rewritten family x y n i :=
  ⟨z, n, h, .inr hu, .inl rfl⟩

theorem rewritten_combine (h : ofCombineDigits? x y n = some i) : Rewritten 0x8 x y n i := by
  unfold ofCombineDigits? at h
  cases ha : Arithmetic.ofCode? n with
  | some operation =>
    rw [ha] at h
    cases h
    obtain rfl := Arithmetic.code_of_ofCode? ha
    exact rewritten_same rfl
  | none =>
    rw [ha] at h
    obtain ⟨direction, hd, rfl⟩ := Option.map_eq_some_iff.mp h
    obtain rfl := Shift.code_of_ofCode? hd
    exact rewritten_third 0x0 rfl (by cases direction <;> decide)

theorem rewritten_transfer (h : ofTransferDigits? x y n = some i) : Rewritten 0xF x y n i := by
  unfold ofTransferDigits? at h
  split at h
  · cases h
    exact rewritten_third 0x3 rfl (by decide)
  · split at h
    · cases h
      exact rewritten_same rfl
    · cases h
      exact rewritten_same rfl
    · cases h
      exact rewritten_same rfl
    · cases h
  · cases h
    exact rewritten_third 0x0 rfl (by decide)
  · cases h
    exact rewritten_third 0x1 rfl (by decide)
  · cases h
    exact rewritten_third 0x2 rfl (by decide)
  · cases h
    exact rewritten_third 0x0 rfl (by decide)
  · cases h
    exact rewritten_third 0x1 rfl (by decide)
  · cases h

/-- **The written opcode has the same digits where they are used.** -/
theorem rewritten_of_ofDigits? (h : ofDigits? family x y n = some i) : Rewritten family x y n i := by
  unfold ofDigits? at h
  dsimp only at h
  split at h
  · split at h
    · next hc =>
      cases h
      refine rewritten_same ?_
      rw [← opcodeOfAddress_ofNibbles, hc]
      rfl
    · split at h
      · next hr =>
        cases h
        refine rewritten_same ?_
        rw [← opcodeOfAddress_ofNibbles, hr]
        rfl
      · cases h
        exact rewritten_same (opcodeOfAddress_ofNibbles 0x0 x y n)
  · cases h
    exact rewritten_same (opcodeOfAddress_ofNibbles 0x1 x y n)
  · cases h
    exact rewritten_same (opcodeOfAddress_ofNibbles 0x2 x y n)
  · cases h
    exact rewritten_same (opcodeOfByte_byteOfNibbles 0x3 x y n)
  · cases h
    exact rewritten_same (opcodeOfByte_byteOfNibbles 0x4 x y n)
  · cases h
    exact ⟨y, 0x0, rfl, .inl rfl, .inr (.inl rfl)⟩
  · cases h
    exact rewritten_same (opcodeOfByte_byteOfNibbles 0x6 x y n)
  · cases h
    exact rewritten_same (opcodeOfByte_byteOfNibbles 0x7 x y n)
  · exact rewritten_combine h
  · cases h
    exact ⟨y, 0x0, rfl, .inl rfl, .inr (.inr rfl)⟩
  · cases h
    exact rewritten_same (opcodeOfAddress_ofNibbles 0xA x y n)
  · cases h
    exact rewritten_same (opcodeOfAddress_ofNibbles 0xB x y n)
  · cases h
    exact rewritten_same (opcodeOfByte_byteOfNibbles 0xC x y n)
  · cases h
    exact rewritten_same rfl
  · split at h
    · cases h
      exact rewritten_third 0xA rfl (by decide)
    · cases h
      exact rewritten_third 0x9 rfl (by decide)
    · cases h
  · next h0 h1 h2 h3 h4 h5 h6 h7 h8 h9 hA hB hC hD hE =>
    have hF : family = 0xF := by
      revert family
      decide
    subst hF
    exact rewritten_transfer h

/-! ## opcodes that differ in an unused digit -/

/-- the digits of the opcodes are the same where those of the second one are used -/
def SameWhereUsed (other opcode : UInt16) : Prop :=
  ∀ place, Nibble.ofOpcode other place ≠ Nibble.ofOpcode opcode place → Unused opcode place

instance (other opcode : UInt16) : Decidable (SameWhereUsed other opcode) :=
  inferInstanceAs (Decidable (∀ _, _))

theorem sameWhereUsed_iff :
    SameWhereUsed other opcode ↔
      Nibble.ofOpcode other 0 = .ofOpcode opcode 0 ∧ Nibble.ofOpcode other 1 = .ofOpcode opcode 1 ∧
      (Nibble.ofOpcode other 2 = .ofOpcode opcode 2 ∨
        (Nibble.ofOpcode opcode 0, Nibble.ofOpcode opcode 3) ∈ thirdUnused) ∧
      (Nibble.ofOpcode other 3 = .ofOpcode opcode 3 ∨
        Nibble.ofOpcode opcode 0 = 0x5 ∨ Nibble.ofOpcode opcode 0 = 0x9) := by
  have h0 : ¬ Unused opcode 0 := by simp [Unused]
  have h1 : ¬ Unused opcode 1 := by simp [Unused]
  have h2 : Unused opcode 2 ↔ (Nibble.ofOpcode opcode 0, Nibble.ofOpcode opcode 3) ∈ thirdUnused := by
    simp [Unused]
  have h3 : Unused opcode 3 ↔ Nibble.ofOpcode opcode 0 = 0x5 ∨ Nibble.ofOpcode opcode 0 = 0x9 := by
    simp [Unused]
  rw [← h2, ← h3]
  constructor
  · intro h
    exact ⟨Decidable.by_contra fun hn => h0 (h 0 hn), Decidable.by_contra fun hn => h1 (h 1 hn),
      Decidable.or_iff_not_imp_left.mpr (h 2), Decidable.or_iff_not_imp_left.mpr (h 3)⟩
  · rintro ⟨hf, hx, hy, hn⟩ place hp
    match place with
    | 0 => exact absurd hf hp
    | 1 => exact absurd hx hp
    | 2 => exact hy.resolve_left hp
    | 3 => exact hn.resolve_left hp

/-- **What an unused digit is does not matter.** -/
theorem decode?_congr (h : SameWhereUsed other opcode) : decode? other = decode? opcode := by
  obtain ⟨hf, hx, hy, hn⟩ := sameWhereUsed_iff.mp h
  unfold decode?
  rw [hf, hx]
  have hl : ∀ y, ofDigits? (.ofOpcode opcode 0) (.ofOpcode opcode 1) y (.ofOpcode other 3) =
      ofDigits? (.ofOpcode opcode 0) (.ofOpcode opcode 1) y (.ofOpcode opcode 3) := by
    intro y
    obtain hn | hu := hn
    · rw [hn]
    · exact ofDigits?_last hu
  rw [hl]
  obtain hy | hu := hy
  · rw [hy]
  · exact ofDigits?_third hu

theorem sameWhereUsed_encode (h : decode? opcode = some i) : SameWhereUsed i.encode opcode := by
  obtain ⟨z, k, he, hz, hk⟩ := rewritten_of_ofDigits? h
  obtain ⟨hf, hx, hy, hn⟩ := ofOpcode_opcodeOfDigits (.ofOpcode opcode 0) (.ofOpcode opcode 1) z k
  rw [he]
  exact sameWhereUsed_iff.mpr ⟨hf, hx, hy.symm ▸ hz, hn.symm ▸ hk⟩

/-- **The written opcode stands for the instruction that has been decoded.** -/
theorem decode?_encode_of_decode? (h : decode? opcode = some i) : decode? i.encode = some i :=
  (decode?_congr (sameWhereUsed_encode h)).trans h

/-- which digit is unused does not depend on that digit -/
theorem unused_congr (h : SameWhereUsed other opcode) {place : Fin 4} :
    Unused other place ↔ Unused opcode place := by
  obtain ⟨hf, -, -, hn⟩ := sameWhereUsed_iff.mp h
  unfold Unused
  obtain hn | hu := hn
  · rw [hf, hn]
  · have ht : ∀ n : Nibble, (Nibble.ofOpcode opcode 0, n) ∉ thirdUnused := by
      obtain hu | hu := hu
      · rw [hu]
        decide
      · rw [hu]
        decide
    rw [hf]
    simp only [ht]

/-- **Opcodes stand for the same instruction just if they are the same where they are used.** -/
theorem decode?_eq_iff (h : decode? opcode = some i) :
    decode? other = some i ↔ SameWhereUsed other opcode := by
  constructor
  · intro ho place hp
    have hs := sameWhereUsed_encode h
    by_cases hc : Nibble.ofOpcode i.encode place = .ofOpcode opcode place
    · -- the written opcode differs from the other one there
      have hu : Unused other place :=
        sameWhereUsed_encode ho place (hc.symm ▸ hp.symm)
      exact (unused_congr hs).mp ((unused_congr (sameWhereUsed_encode ho)).mpr hu)
    · exact hs place hc
  · intro hs
    exact (decode?_congr hs).trans h

/-! ## opcodes of no instruction -/

theorem ofCombineDigits?_eq_none_iff :
    ofCombineDigits? x y n = none ↔ Unassigned 0x8 y n := by
  have hn : ∀ y n : Nibble, Unassigned 0x8 y n ↔
      Arithmetic.ofCode? n = none ∧ Shift.ofCode? n = none := by decide
  rw [hn, ofCombineDigits?]
  cases Arithmetic.ofCode? n with
  | some operation => exact iff_of_false nofun nofun
  | none => simp

theorem ofTransferDigits?_eq_none_iff :
    ofTransferDigits? x y n = none ↔ Unassigned 0xF y n := by
  unfold ofTransferDigits?
  split
  · exact iff_of_false nofun (by revert y; decide)
  · split
    · exact iff_of_false nofun (by decide)
    · exact iff_of_false nofun (by decide)
    · exact iff_of_false nofun (by decide)
    · next h1 h5 h6 =>
      refine iff_of_true rfl ?_
      revert y
      decide
  · exact iff_of_false nofun (by revert y; decide)
  · exact iff_of_false nofun (by revert y; decide)
  · exact iff_of_false nofun (by revert y; decide)
  · exact iff_of_false nofun (by revert y; decide)
  · exact iff_of_false nofun (by revert y; decide)
  · next h3 h5 h7 h8 h9 hA hE =>
    refine iff_of_true rfl (.inr (.inr (.inr ⟨rfl, ?_⟩)))
    simpa using ⟨h3, h5, h7, h8, h9, hA, hE⟩

/-- in the other families no opcode is left out -/
theorem not_unassigned (h8 : family ≠ 0x8) (hE : family ≠ 0xE) (hF : family ≠ 0xF) :
    ¬ Unassigned family y n := by
  rintro (⟨h, -⟩ | ⟨h, -⟩ | ⟨h, -⟩ | ⟨h, -⟩)
  · exact h8 h
  · exact hE h
  · exact hF h
  · exact hF h

/-- **Decoding refuses the opcodes of no instruction**, and no others. -/
theorem ofDigits?_eq_none_iff : ofDigits? family x y n = none ↔ Unassigned family y n := by
  unfold ofDigits?
  dsimp only
  split
  case h_1 =>
    refine iff_of_false ?_ (not_unassigned (by decide) (by decide) (by decide))
    split
    · exact Option.some_ne_none _
    · split
      · exact Option.some_ne_none _
      · exact Option.some_ne_none _
  case h_9 => exact ofCombineDigits?_eq_none_iff
  case h_15 =>
    split
    · exact iff_of_false nofun (by revert y; decide)
    · exact iff_of_false nofun (by revert y; decide)
    · next h1 hE => exact iff_of_true rfl (.inr (.inl ⟨rfl, by simpa using ⟨h1, hE⟩⟩))
  case h_16 =>
    have hF : family = 0xF := by
      revert family
      decide
    subst hF
    exact ofTransferDigits?_eq_none_iff
  all_goals
    exact iff_of_false (Option.some_ne_none _) (not_unassigned (by decide) (by decide) (by decide))

theorem decode_eq_error_iff {u : UnknownOpcode} :
    decode opcode = .error u ↔
      u = ⟨opcode⟩ ∧
        Unassigned (.ofOpcode opcode 0) (.ofOpcode opcode 2) (.ofOpcode opcode 3) := by
  rw [← ofDigits?_eq_none_iff (x := .ofOpcode opcode 1)]
  show _ ↔ _ ∧ decode? opcode = none
  unfold decode
  cases decode? opcode with
  | none => simp [eq_comm]
  | some j => exact iff_of_false nofun nofun

/-! ## the canonical opcode -/

/-- the opcode that is written for the instruction of an opcode -/
def canonical (opcode : UInt16) : Except UnknownOpcode UInt16 := (decode opcode).map encode

theorem canonical_of_decode (h : decode opcode = .ok i) : canonical opcode = .ok i.encode := by
  rw [canonical, h]
  rfl

theorem decode_encode_of_decode (h : decode opcode = .ok i) : decode i.encode = .ok i :=
  decode_eq_ok_iff.mpr (decode?_encode_of_decode? (decode_eq_ok_iff.mp h))

end Instruction

end Chip8
