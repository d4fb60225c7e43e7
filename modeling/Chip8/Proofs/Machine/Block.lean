import Chip8.Proofs.Machine.Memory

/-!
# Registers to memory and back

Registers are put down behind the index as one block and taken up again from there, as far as the
last address; the digits of a register are put down as a block of three.  What lies in memory does
not depend on the registers any more, so a block may be taken up much later, by fewer registers.

* `Machine.Stored`           a block has been put down behind the index, and nothing else;
* `Machine.Loaded`           registers have been taken up, and nothing else;
* `run_storeRegisters`, `run_loadRegisters`, `run_storeDecimal`    the three instructions, where the
                             block lies in memory;
* `digits_exact`             the digits of a byte as a number;
* `block_transfer`           what is taken up is what was put down, both ways round.
-/

namespace Chip8

/-! ## blocks -/

namespace Machine

/-- behind the index of `m` stand the values, and `n` has nothing else that is new in memory, nor
another index -/
structure Stored (values : List UInt8) (m n : Machine) : Prop where
  inside (k : Nat) (hk : k < values.length) :
    n.memory.byte (m.index.toNat + k) = values.getD k 0
  outside (address : Nat)
    (h : address < m.index.toNat ∨ m.index.toNat + values.length ≤ address) :
    n.memory.byte address = m.memory.byte address
  index : n.index = m.index

/-- the registers up to the last one have their values in `n`, the others those of `m`, and neither
memory nor the index has changed -/
structure Loaded (last : Register) (value : Register → UInt8) (m n : Machine) : Prop where
  upTo (x : Register) (h : x ≤ last) : n.register x = value x
  above (x : Register) (h : last < x) : n.register x = m.register x
  memory : n.memory = m.memory
  index : n.index = m.index

/-- the byte that the block at the index has for a register -/
def blockByte (m : Machine) (x : Register) : UInt8 := m.memory.byte (m.index.toNat + x.val)

theorem stored_store {m : Machine} {values : List UInt8}
    (h : Memory.Covers m.index.toNat values.length) : Stored values m (m.store values) := by
  have hs : m.index.toNat + values.length ≤ Memory.size := h
  refine { inside := ?_, outside := ?_, index := rfl }
  · intro k hk
    show (m.memory.write _ _).byte _ = _
    rw [Memory.byte_write, if_pos (by omega), Nat.add_sub_cancel_left]
  · intro address ha
    show (m.memory.write _ _).byte _ = _
    rw [Memory.byte_write, if_neg (by omega)]

theorem loaded_loadRegisters (m : Machine) (last : Register) :
    Loaded last m.blockByte m (m.loadRegisters last) := by
  have hr : ∀ x : Register, (m.loadRegisters last).register x =
      if x ≤ last then m.blockByte x else m.register x := by
    intro x
    simp [loadRegisters, register, blockByte]
  have hm : (m.loadRegisters last).memory = m.memory := by rw [loadRegisters]
  have hi : (m.loadRegisters last).index = m.index := by rw [loadRegisters]
  refine { upTo := ?_, above := ?_, memory := hm, index := hi }
  · intro x h
    rw [hr, if_pos h]
  · intro x h
    rw [hr, if_neg (Fin.not_le.mpr h)]

/-- a block that has been put down is read again, wherever the registers stand by then -/
theorem Stored.blockByte_eq {m n between : Machine} {values : List UInt8} (h : Stored values m n)
    (hm : between.memory = n.memory) (hi : between.index = n.index) {x : Register}
    (hx : x.val < values.length) : between.blockByte x = values.getD x.val 0 := by
  rw [blockByte, hm, hi, h.index]
  exact h.inside x.val hx

/-- a block that is put down where it has been read changes nothing -/
theorem Stored.memory_eq {m n : Machine} {last : Register}
    (h : Stored (m.registersUpTo last) m n) (hb : ∀ x ≤ last, m.register x = m.blockByte x) :
    n.memory = m.memory := by
  have hl := Strict.length_registersUpTo m last
  apply Memory.ext_byte
  intro address _
  by_cases ha : m.index.toNat ≤ address ∧ address < m.index.toNat + (last.val + 1)
  · obtain ⟨k, rfl⟩ := Nat.exists_eq_add_of_le ha.1
    have hk : k < last.val + 1 := by omega
    have hk16 : k < 16 := Nat.lt_of_lt_of_le hk last.isLt
    rw [h.inside k (hl ▸ hk), getD_registersUpTo m last hk16 (Nat.le_of_lt_succ hk)]
    exact hb ⟨k, hk16⟩ (Nat.le_of_lt_succ hk)
  · exact h.outside address (by omega)

end Machine

/-! ## the digits of a byte -/

theorem digits_exact (value : UInt8) :
    (value / 100).toNat ≤ 9 ∧ (value / 10 % 10).toNat ≤ 9 ∧ (value % 10).toNat ≤ 9 ∧
      100 * (value / 100).toNat + 10 * (value / 10 % 10).toNat + (value % 10).toNat =
        value.toNat := by
  have hv := value.toNat_lt
  have hh : (value / 100).toNat = value.toNat / 100 := UInt8.toNat_div value 100
  have ht : (value / 10 % 10).toNat = value.toNat / 10 % 10 := by
    rw [UInt8.toNat_mod, UInt8.toNat_div]
    rfl
  have hu : (value % 10).toNat = value.toNat % 10 := UInt8.toNat_mod value 10
  rw [hh, ht, hu]
  omega

/-! ## the instructions -/

namespace Instruction

theorem run_covered_update {core : Core} {count : Nat}
    (h : Memory.Covers core.machine.index.toNat count) (f : Machine → Machine) :
    (do Action.covered count; Action.update f).run core =
      .ok .next { core with machine := f core.machine } := by
  rw [EStateM.run_bind, Action.run_covered, if_pos h]
  rfl

variable {core : Core} {x : Register}

theorem run_storeRegisters (h : core.machine.index.toNat + x.val + 1 ≤ Memory.size) :
    ∃ after, (storeRegisters x).execute.run core = .ok .next after ∧
      Machine.Stored (core.machine.registersUpTo x) core.machine after.machine := by
  have hc : Memory.Covers core.machine.index.toNat (x.val + 1) := h
  refine ⟨_, run_covered_update hc _, Machine.stored_store ?_⟩
  rw [Strict.length_registersUpTo]
  exact hc

theorem run_loadRegisters (h : core.machine.index.toNat + x.val + 1 ≤ Memory.size) :
    ∃ after, (loadRegisters x).execute.run core = .ok .next after ∧
      Machine.Loaded x core.machine.blockByte core.machine after.machine := by
  have hc : Memory.Covers core.machine.index.toNat (x.val + 1) := h
  exact ⟨_, run_covered_update hc _, Machine.loaded_loadRegisters core.machine x⟩

theorem run_storeDecimal (h : core.machine.index.toNat + 3 ≤ Memory.size) :
    ∃ after, (storeDecimal x).execute.run core = .ok .next after ∧
      Machine.Stored (decimalDigits (core.machine.register x)) core.machine after.machine :=
  ⟨_, run_covered_update h _, Machine.stored_store h⟩

/-- registers that have been put down are taken up again, by as many of them as one likes -/
theorem load_stored {stored between : Core} {last : Register}
    (h : core.machine.index.toNat + x.val + 1 ≤ Memory.size)
    (hs : Machine.Stored (core.machine.registersUpTo x) core.machine stored.machine)
    (hm : between.machine.memory = stored.machine.memory)
    (hi : between.machine.index = stored.machine.index) (hx : last ≤ x) :
    ∃ loaded, (loadRegisters last).execute.run between = .ok .next loaded ∧
      Machine.Loaded last core.machine.register between.machine loaded.machine := by
  have hv : last.val ≤ x.val := hx
  have hc : between.machine.index.toNat + last.val + 1 ≤ Memory.size := by
    rw [hi, hs.index]
    omega
  obtain ⟨loaded, hr, hl⟩ := run_loadRegisters hc
  refine ⟨loaded, hr, { hl with upTo := ?_ }⟩
  intro z hz
  have hzx : z.val ≤ x.val := Nat.le_trans hz hv
  have hlen : z.val < (core.machine.registersUpTo x).length := by
    rw [Strict.length_registersUpTo]
    omega
  rw [hl.upTo z hz, hs.blockByte_eq hm hi hlen]
  exact getD_registersUpTo core.machine x z.isLt hzx

/-- registers that have been taken up are put down where they come from -/
theorem store_loaded {loaded between : Core}
    (h : core.machine.index.toNat + x.val + 1 ≤ Memory.size)
    (hl : Machine.Loaded x core.machine.blockByte core.machine loaded.machine)
    (hm : between.machine.memory = loaded.machine.memory)
    (hi : between.machine.index = loaded.machine.index)
    (hr : ∀ z ≤ x, between.machine.register z = loaded.machine.register z) :
    ∃ stored, (storeRegisters x).execute.run between = .ok .next stored ∧
      stored.machine.memory = core.machine.memory ∧
      stored.machine.index = core.machine.index := by
  have hmc : between.machine.memory = core.machine.memory := hm.trans hl.memory
  have hic : between.machine.index = core.machine.index := hi.trans hl.index
  have hc : between.machine.index.toNat + x.val + 1 ≤ Memory.size := by
    rw [hic]
    exact h
  obtain ⟨stored, hs, hst⟩ := run_storeRegisters hc
  refine ⟨stored, hs, ?_, hst.index.trans hic⟩
  rw [hst.memory_eq, hmc]
  intro z hz
  rw [hr z hz, hl.upTo z hz, Machine.blockByte, Machine.blockByte, hmc, hic]

/-- digits that have been put down are taken up by three registers -/
theorem load_digits {stored between : Core} {h t u : UInt8}
    (hc : core.machine.index.toNat + 3 ≤ Memory.size)
    (hs : Machine.Stored [h, t, u] core.machine stored.machine)
    (hm : between.machine.memory = stored.machine.memory)
    (hi : between.machine.index = stored.machine.index) :
    ∃ loaded, (loadRegisters 2).execute.run between = .ok .next loaded ∧
      Machine.Loaded 2 between.machine.blockByte between.machine loaded.machine ∧
      loaded.machine.register 0 = h ∧ loaded.machine.register 1 = t ∧
      loaded.machine.register 2 = u := by
  have hb : between.machine.index.toNat + (2 : Register).val + 1 ≤ Memory.size := by
    rw [hi, hs.index]
    exact hc
  obtain ⟨loaded, hr, hl⟩ := run_loadRegisters hb
  have hd : ∀ z : Register, z ≤ 2 → loaded.machine.register z = [h, t, u].getD z.val 0 := by
    intro z hz
    have hv : z.val < 3 := Nat.lt_succ_of_le hz
    rw [hl.upTo z hz]
    exact hs.blockByte_eq hm hi hv
  exact ⟨loaded, hr, hl, hd 0 (by decide), hd 1 (by decide), hd 2 (by decide)⟩

/-- **Blocks come back as they were put down.**  On every machine with room for the block behind its
index: registers that are put down are taken up again by any number of them, whatever has become of
the registers in between, as long as memory and the index are the same; registers that are taken up
and put down again leave memory as it was.  With room for three bytes, the digits of a register are
put down, which make up its value, and are taken up by the first three registers.  Nothing else in
memory changes, and the index does not. -/
theorem block_transfer (core : Core) (x : Register) :
    (core.machine.index.toNat + x.val + 1 ≤ Memory.size →
      (∃ stored, (storeRegisters x).execute.run core = .ok .next stored ∧
        Machine.Stored (core.machine.registersUpTo x) core.machine stored.machine ∧
        ∀ between : Core, between.machine.memory = stored.machine.memory →
          between.machine.index = stored.machine.index → ∀ y ≤ x,
          ∃ loaded, (loadRegisters y).execute.run between = .ok .next loaded ∧
            Machine.Loaded y core.machine.register between.machine loaded.machine) ∧
      ∃ loaded, (loadRegisters x).execute.run core = .ok .next loaded ∧
        Machine.Loaded x core.machine.blockByte core.machine loaded.machine ∧
        ∀ between : Core, between.machine.memory = loaded.machine.memory →
          between.machine.index = loaded.machine.index →
          (∀ z ≤ x, between.machine.register z = loaded.machine.register z) →
          ∃ stored, (storeRegisters x).execute.run between = .ok .next stored ∧
            stored.machine.memory = core.machine.memory ∧
            stored.machine.index = core.machine.index) ∧
    (core.machine.index.toNat + 3 ≤ Memory.size →
      ∃ stored h t u, (storeDecimal x).execute.run core = .ok .next stored ∧
        Machine.Stored [h, t, u] core.machine stored.machine ∧
        h.toNat ≤ 9 ∧ t.toNat ≤ 9 ∧ u.toNat ≤ 9 ∧
        100 * h.toNat + 10 * t.toNat + u.toNat = (core.machine.register x).toNat ∧
        ∀ between : Core, between.machine.memory = stored.machine.memory →
          between.machine.index = stored.machine.index →
          ∃ loaded, (loadRegisters 2).execute.run between = .ok .next loaded ∧
            Machine.Loaded 2 between.machine.blockByte between.machine loaded.machine ∧
            loaded.machine.register 0 = h ∧ loaded.machine.register 1 = t ∧
            loaded.machine.register 2 = u) := by
  constructor
  · intro hc
    obtain ⟨stored, hr, hs⟩ := run_storeRegisters hc
    obtain ⟨loaded, hrl, hl⟩ := run_loadRegisters hc
    refine ⟨⟨stored, hr, hs, ?_⟩, loaded, hrl, hl, ?_⟩
    · intro between hm hi y hy
      exact load_stored hc hs hm hi hy
    · intro between hm hi hz
      exact store_loaded hc hl hm hi hz
  · intro hc
    obtain ⟨stored, hr, hs⟩ := run_storeDecimal (x := x) hc
    obtain ⟨hh, ht, hu, he⟩ := digits_exact (core.machine.register x)
    refine ⟨stored, _, _, _, hr, hs, hh, ht, hu, he, ?_⟩
    intro between hm hi
    exact load_digits hc hs hm hi

/-- a block of all registers there would end with the last byte of memory -/
def brimful : Core :=
  ⟨{ Machine.ofProgram [] with
      index := 0xFF0, registers := Vector.ofFn fun x => UInt8.ofNat (255 - x.val) },
    Generator.ofSeed 0⟩

/-- all registers are put down, cleared and taken up again; so are the digits of the last one -/
theorem block_transfer_brimful :
    brimful.machine.index.toNat + Register.flag.val + 1 ≤ Memory.size ∧
    brimful.machine.index.toNat + 3 ≤ Memory.size ∧
    (∃ stored loaded, (storeRegisters Register.flag).execute.run brimful = .ok .next stored ∧
      (loadRegisters Register.flag).execute.run
        { stored with machine := { stored.machine with registers := Vector.replicate 16 0 } } =
          .ok .next loaded ∧
      loaded.machine.register Register.flag = 240) ∧
    ∃ stored h t u, (storeDecimal Register.flag).execute.run brimful = .ok .next stored ∧
      Machine.Stored [h, t, u] brimful.machine stored.machine ∧
      100 * h.toNat + 10 * t.toNat + u.toNat = 240 := by
  have hc : brimful.machine.index.toNat + Register.flag.val + 1 ≤ Memory.size := by decide
  have hd : brimful.machine.index.toNat + 3 ≤ Memory.size := by decide
  obtain ⟨hb, ht⟩ := block_transfer brimful Register.flag
  obtain ⟨⟨stored, hs, -, hl⟩, -⟩ := hb hc
  obtain ⟨loaded, hr, hv⟩ := hl
    { stored with machine := { stored.machine with registers := Vector.replicate 16 0 } } rfl rfl
    Register.flag (Fin.le_refl _)
  obtain ⟨digits, h, t, u, hx, hp, -, -, -, he, -⟩ := ht hd
  have h240 : brimful.machine.register Register.flag = 240 := by decide +kernel
  refine ⟨hc, hd, ⟨stored, loaded, hs, hr, ?_⟩, digits, h, t, u, hx, hp, ?_⟩
  · rw [hv.upTo Register.flag (Fin.le_refl _), h240]
  · rw [he, h240]
    rfl

end Instruction

end Chip8
