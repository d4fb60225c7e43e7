import Chip8.Screen

/-!
# Drawing, pixel by pixel

The screen is a torus: its columns are counted by 64 and its rows by 32.  A sprite flips the pixels
below its set bits, whichever bytes they fall into, so a screen and what is drawn on it differ by a
pattern that does not depend on the screen.

* `Screen.ext_pixel`             a screen is known by its pixels;
* `Screen.column`, `Screen.rowFlips`, `Screen.flips`    the pattern of a row, and of a sprite;
* `Screen.pixel_draw`            a drawn pixel is the old one, flipped where the pattern is set;
* `Screen.Erases`                a lit pixel of one screen is off in another;
* `Screen.draw_erases`           the flag of a draw says that, up to 32 rows;
* `Screen.draw_torus`            all of it together, and sprites in two parts.

With more than 32 rows a sprite meets itself: the later row may light again what the earlier one has
put out, and the flag of the draw still tells it.
-/

namespace Chip8

/-! ## bits of bytes -/

theorem testBit_ofNat (n : Nat) {i : Nat} (hi : i < 8) :
    (UInt8.ofNat n).toNat.testBit i = n.testBit i := by
  rw [UInt8.toNat_ofNat', Nat.testBit_mod_two_pow, decide_eq_true hi, Bool.true_and]

theorem testBit_of_le (byte : UInt8) {i : Nat} (hi : 8 ≤ i) : byte.toNat.testBit i = false :=
  Nat.testBit_lt_two_pow (Nat.lt_of_lt_of_le byte.toNat_lt (Nat.pow_le_pow_right (by omega) hi))

/-- bytes that share a set bit -/
theorem and_bne_zero_iff (a b : UInt8) :
    (a &&& b != 0) = true ↔
      ∃ i, i < 8 ∧ a.toNat.testBit i = true ∧ b.toNat.testBit i = true := by
  constructor
  · intro h
    have hn : (a &&& b).toNat ≠ 0 := fun e => bne_iff_ne.mp h (UInt8.toNat_inj.mp e)
    obtain ⟨i, hi⟩ := Nat.exists_testBit_of_ne_zero hn
    rw [UInt8.toNat_and, Nat.testBit_and, Bool.and_eq_true] at hi
    refine ⟨i, Nat.lt_of_not_le fun h8 => ?_, hi⟩
    rw [testBit_of_le a h8] at hi
    cases hi.1
  · rintro ⟨i, -, ha, hb⟩
    refine bne_iff_ne.mpr fun e => ?_
    have hz : (a &&& b).toNat.testBit i = true := by
      rw [UInt8.toNat_and, Nat.testBit_and, ha, hb, Bool.and_self]
    rw [e, UInt8.toNat_zero, Nat.zero_testBit] at hz
    cases hz

namespace Screen
variable {s t w : Screen} {x y u v : Nat}

/-! ## the torus -/

theorem cell_eq_iff : cell u v = cell x y ↔ v % 32 = y % 32 ∧ u % 64 / 8 = x % 64 / 8 := by
  simp only [cell, Fin.mk.injEq]
  omega

theorem pixel_of_cell (s : Screen) {k : Fin 256} (h : cell u v = k) :
    s.pixel u v = s.bytes[k].toNat.testBit (7 - u % 8) := by
  subst h
  rfl

theorem pixel_mod (s : Screen) (u v : Nat) : s.pixel (u % 64) (v % 32) = s.pixel u v := by
  have hc : cell (u % 64) (v % 32) = cell u v := cell_eq_iff.mpr ⟨by omega, by omega⟩
  have hb : u % 64 % 8 = u % 8 := by omega
  rw [s.pixel_of_cell hc, hb]
  rfl

/-- where the bit of a byte stands on the screen -/
theorem cell_of_bit (k : Fin 256) {i : Nat} (hi : i < 8) :
    cell (8 * (k.val % 8) + (7 - i)) (k.val / 8) = k := by
  apply Fin.ext
  simp only [cell]
  omega

theorem pixel_of_bit (s : Screen) (k : Fin 256) {i : Nat} (hi : i < 8) :
    s.pixel (8 * (k.val % 8) + (7 - i)) (k.val / 8) = s.bytes[k].toNat.testBit i := by
  have hj : 7 - (8 * (k.val % 8) + (7 - i)) % 8 = i := by omega
  rw [s.pixel_of_cell (cell_of_bit k hi), hj]

/-- a screen is known by its pixels -/
theorem ext_pixel (h : ∀ u v, s.pixel u v = t.pixel u v) : s = t := by
  obtain ⟨a⟩ := s
  obtain ⟨b⟩ := t
  congr 1
  apply Vector.ext
  intro k hk
  apply UInt8.toNat_inj.mp
  apply Nat.eq_of_testBit_eq
  intro i
  by_cases hi : i < 8
  · have hp := h (8 * (k % 8) + (7 - i)) (k / 8)
    rw [pixel_of_bit ⟨a⟩ ⟨k, hk⟩ hi, pixel_of_bit ⟨b⟩ ⟨k, hk⟩ hi] at hp
    exact hp
  · rw [testBit_of_le a[k] (Nat.le_of_not_lt hi), testBit_of_le b[k] (Nat.le_of_not_lt hi)]

/-- the column of a sprite at `x` that stands on column `u` of the screen, of its eight columns -/
def column (x u : Nat) : Nat := (u % 64 + 64 - x % 64) % 64

/-- whether a row of a sprite at `x` flips column `u`; its highest bit stands leftmost -/
def rowFlips (x : Nat) (row : UInt8) (u : Nat) : Bool :=
  column x u < 8 && row.toNat.testBit (7 - column x u)

/-- whether a sprite at `x`, `y` flips the pixel at `u`, `v` -/
def flips (x y : Nat) : List UInt8 → Nat → Nat → Bool
  | [], _, _ => false
  | row :: rest, u, v => (decide (v % 32 = y % 32) && rowFlips x row u) ^^ flips x (y + 1) rest u v

/-! ## a row -/

theorem pixel_flip (s : Screen) (k : Fin 256) (bits : UInt8) (u v : Nat) :
    (s.flip k bits).1.pixel u v =
      (s.pixel u v ^^ (decide (cell u v = k) && bits.toNat.testBit (7 - u % 8))) := by
  by_cases h : cell u v = k
  · subst h
    simp [pixel, flip]
  · have hk : k.val ≠ (cell u v).val := fun e => h (Fin.ext e.symm)
    simp [pixel, flip, Vector.getElem_set_ne _ _ hk, h]

/-- the two halves of a row are the row: where it starts in a byte its upper bits stand in that byte
and the others in the next one -/
theorem halves_eq_rowFlips (x : Nat) (row : UInt8) (u : Nat) :
    ((decide (u % 64 / 8 = x % 64 / 8) && row.toNat.testBit (x % 8 + (7 - u % 8))) ^^
      (decide (u % 64 / 8 = (x + 8) % 64 / 8) &&
        (decide (7 - u % 8 ≥ 8 - x % 8) && row.toNat.testBit (7 - u % 8 - (8 - x % 8))))) =
      rowFlips x row u := by
  unfold rowFlips column
  by_cases h1 : u % 64 / 8 = x % 64 / 8
  · have h2 : ¬ u % 64 / 8 = (x + 8) % 64 / 8 := by omega
    rw [decide_eq_true h1, decide_eq_false h2, Bool.true_and, Bool.false_and, Bool.xor_false]
    by_cases hr : x % 8 ≤ u % 8
    · have hc : (u % 64 + 64 - x % 64) % 64 = u % 8 - x % 8 := by omega
      have hb : x % 8 + (7 - u % 8) = 7 - (u % 8 - x % 8) := by omega
      have hl : u % 8 - x % 8 < 8 := by omega
      rw [hc, hb, decide_eq_true hl, Bool.true_and]
    · have hc : ¬ (u % 64 + 64 - x % 64) % 64 < 8 := by omega
      rw [testBit_of_le row (by omega), decide_eq_false hc, Bool.false_and]
  · rw [decide_eq_false h1, Bool.false_and, Bool.false_xor]
    by_cases h2 : u % 64 / 8 = (x + 8) % 64 / 8
    · rw [decide_eq_true h2, Bool.true_and]
      by_cases hr : u % 8 < x % 8
      · have hc : (u % 64 + 64 - x % 64) % 64 = 8 + u % 8 - x % 8 := by omega
        have hb : 7 - u % 8 - (8 - x % 8) = 7 - (8 + u % 8 - x % 8) := by omega
        have hl : 8 + u % 8 - x % 8 < 8 := by omega
        have hg : 7 - u % 8 ≥ 8 - x % 8 := by omega
        rw [hc, hb, decide_eq_true hl, decide_eq_true hg]
      · have hc : ¬ (u % 64 + 64 - x % 64) % 64 < 8 := by omega
        have hg : ¬ 7 - u % 8 ≥ 8 - x % 8 := by omega
        rw [decide_eq_false hc, decide_eq_false hg, Bool.false_and, Bool.false_and]
    · have hc : ¬ (u % 64 + 64 - x % 64) % 64 < 8 := by omega
      rw [decide_eq_false h2, decide_eq_false hc, Bool.false_and, Bool.false_and]

theorem pixel_drawRow (s : Screen) (x y : Nat) (row : UInt8) (u v : Nat) :
    (s.drawRow x y row).1.pixel u v =
      (s.pixel u v ^^ (decide (v % 32 = y % 32) && rowFlips x row u)) := by
  have h7 : 7 - u % 8 < 8 := by omega
  rw [← halves_eq_rowFlips]
  simp only [drawRow, pixel_flip, testBit_ofNat _ h7, Nat.testBit_shiftRight,
    Nat.testBit_shiftLeft, cell_eq_iff, Bool.decide_and, Bool.and_xor_distrib_left, Bool.and_assoc,
    Bool.xor_assoc]

/-- a row that starts at a byte stands in that byte alone -/
theorem drawRow_of_aligned (s : Screen) (y : Nat) (row : UInt8) (h : x % 8 = 0) :
    s.drawRow x y row = s.flip (cell x y) row := by
  have hl : UInt8.ofNat (row.toNat >>> 0) = row := UInt8.ofNat_toNat
  have hr : UInt8.ofNat (row.toNat <<< 8) = 0 := by
    apply UInt8.toNat_inj.mp
    rw [UInt8.toNat_ofNat', Nat.shiftLeft_eq, Nat.mul_mod_left]
    rfl
  simp only [drawRow, h, Nat.sub_zero, hl, hr, flip]
  simp

/-! ## a sprite -/

/-- **A draw flips the pixels of a pattern that does not depend on the screen.** -/
theorem pixel_draw (s : Screen) (x y : Nat) (sprite : List UInt8) (u v : Nat) :
    (s.draw x y sprite).1.pixel u v = (s.pixel u v ^^ flips x y sprite u v) := by
  induction sprite generalizing s y with
  | nil => simp [flips]
  | cons row rest ih => simp only [draw, ih, pixel_drawRow, flips, Bool.xor_assoc]

theorem of_flips {sprite : List UInt8} (h : flips x y sprite u v = true) :
    ∃ a, a < sprite.length ∧ v % 32 = (y + a) % 32 ∧ column x u < 8 := by
  induction sprite generalizing y with
  | nil => cases h
  | cons row rest ih =>
    by_cases hr : flips x (y + 1) rest u v = true
    · obtain ⟨a, ha, hv, hc⟩ := ih hr
      exact ⟨a + 1, Nat.succ_lt_succ ha, by rw [hv]; congr 1; omega, hc⟩
    · have hf : flips x (y + 1) rest u v = false := by simpa using hr
      have hp : v % 32 = y % 32 ∧ column x u < 8 ∧ row.toNat.testBit (7 - column x u) = true := by
        simpa [flips, hf, rowFlips] using h
      exact ⟨0, Nat.succ_pos _, hp.1, hp.2.1⟩

/-- the rows below a row of the screen do not come back to it before there are 32 of them -/
theorem flips_below {rest : List UInt8} (hl : rest.length < 32) (hv : v % 32 = y % 32) :
    flips x (y + 1) rest u v = false := by
  refine Bool.eq_false_iff.mpr fun h => ?_
  obtain ⟨a, ha, hr, -⟩ := of_flips h
  omega

theorem column_add {j : Nat} (hj : j < 8) : column x (x + j) = j := by
  unfold column
  omega

/-- each pixel under a sprite of up to 32 rows stands under one bit of it -/
theorem flips_add {sprite : List UInt8} (hl : sprite.length ≤ 32) {a j : Nat}
    (ha : a < sprite.length) (hj : j < 8) :
    flips x y sprite (x + j) (y + a) = sprite[a].toNat.testBit (7 - j) := by
  induction sprite generalizing y a with
  | nil => cases ha
  | cons row rest ih =>
    have hl' : rest.length < 32 := hl
    cases a with
    | zero => simp [flips, flips_below hl' rfl, rowFlips, column_add hj, hj]
    | succ a =>
      have ha' : a < rest.length := Nat.lt_of_succ_lt_succ ha
      have hv : ¬ (y + (a + 1)) % 32 = y % 32 := by omega
      have hi := ih (y := y + 1) (Nat.le_of_lt hl') ha'
      rw [Nat.add_right_comm, Nat.add_assoc] at hi
      simp [flips, hv, hi]

/-! ## the flag -/

/-- a lit pixel of the first screen is off in the second -/
def Erases (s t : Screen) : Prop := ∃ u v, s.pixel u v = true ∧ t.pixel u v = false

/-- where no pixel is flipped twice, what two changes put out is what either of them does -/
theorem erases_trans_iff {m n : Nat → Nat → Bool}
    (hst : ∀ u v, t.pixel u v = (s.pixel u v ^^ m u v))
    (htw : ∀ u v, w.pixel u v = (t.pixel u v ^^ n u v))
    (hd : ∀ u v, m u v = true → n u v = false) : s.Erases w ↔ s.Erases t ∨ t.Erases w := by
  have hp : ∀ u v, s.pixel u v = true ∧ w.pixel u v = false ↔
      s.pixel u v = true ∧ t.pixel u v = false ∨ t.pixel u v = true ∧ w.pixel u v = false := by
    intro u v
    rw [htw, hst]
    cases hm : m u v with
    | true =>
      rw [hd u v hm]
      simp
    | false => simp
  simp only [Erases, hp, exists_or]

theorem flip_erases (s : Screen) (k : Fin 256) (bits : UInt8) :
    (s.flip k bits).2 = true ↔ s.Erases (s.flip k bits).1 := by
  have hf : (s.flip k bits).2 = true ↔
      ∃ i, i < 8 ∧ s.bytes[k].toNat.testBit i = true ∧ bits.toNat.testBit i = true :=
    and_bne_zero_iff s.bytes[k] bits
  rw [hf]
  constructor
  · rintro ⟨i, hi, hs, hb⟩
    have hj : 7 - (8 * (k.val % 8) + (7 - i)) % 8 = i := by omega
    have hl : s.pixel (8 * (k.val % 8) + (7 - i)) (k.val / 8) = true := by
      rw [s.pixel_of_bit k hi, hs]
    refine ⟨8 * (k.val % 8) + (7 - i), k.val / 8, hl, ?_⟩
    rw [pixel_flip, hl, decide_eq_true (cell_of_bit k hi), hj, hb]
    rfl
  · rintro ⟨u, v, hs, ht⟩
    rw [pixel_flip, hs] at ht
    have hp : cell u v = k ∧ bits.toNat.testBit (7 - u % 8) = true := by simpa using ht
    rw [s.pixel_of_cell hp.1] at hs
    exact ⟨7 - u % 8, by omega, hs, hp.2⟩

theorem drawRow_erases (s : Screen) (x y : Nat) (row : UInt8) :
    (s.drawRow x y row).2 = true ↔ s.Erases (s.drawRow x y row).1 := by
  have hd : ∀ u v (b c : Bool), (decide (cell u v = cell x y) && b) = true →
      (decide (cell u v = cell (x + 8) y) && c) = false := by
    intro u v b c h
    have hc : cell u v = cell x y ∧ b = true := by simpa using h
    have hn : ¬ cell u v = cell (x + 8) y := by
      rw [hc.1, cell_eq_iff]
      omega
    simp [hn]
  unfold drawRow
  rw [Bool.or_eq_true, flip_erases, flip_erases]
  exact (erases_trans_iff (s.pixel_flip _ _) (pixel_flip _ _ _) fun u v => hd u v _ _).symm

/-- **The flag of a draw says that a lit pixel has been put out**, for up to 32 rows. -/
theorem draw_erases (s : Screen) (x y : Nat) {sprite : List UInt8} (hl : sprite.length ≤ 32) :
    (s.draw x y sprite).2 = true ↔ s.Erases (s.draw x y sprite).1 := by
  induction sprite generalizing s y with
  | nil => simp [Erases]
  | cons row rest ih =>
    have hl' : rest.length < 32 := hl
    have hd : ∀ u v, (decide (v % 32 = y % 32) && rowFlips x row u) = true →
        flips x (y + 1) rest u v = false := by
      intro u v h
      have hv : v % 32 = y % 32 := by
        rw [Bool.and_eq_true] at h
        exact of_decide_eq_true h.1
      exact flips_below hl' hv
    rw [draw, Bool.or_eq_true, drawRow_erases, ih _ _ (Nat.le_of_lt hl')]
    exact (erases_trans_iff (s.pixel_drawRow x y row) (pixel_draw _ x (y + 1) rest) hd).symm

theorem erases_iff (s t : Screen) :
    s.Erases t ↔ ∃ u v, u < 64 ∧ v < 32 ∧ s.pixel u v = true ∧ t.pixel u v = false := by
  constructor
  · rintro ⟨u, v, hs, ht⟩
    refine ⟨u % 64, v % 32, Nat.mod_lt u (by omega), Nat.mod_lt v (by omega), ?_, ?_⟩
    · rw [pixel_mod, hs]
    · rw [pixel_mod, ht]
  · rintro ⟨u, v, -, -, h⟩
    exact ⟨u, v, h⟩

/-! ## sprites in two parts -/

theorem drawRow_mod (s : Screen) (x y : Nat) (row : UInt8) :
    s.drawRow x (y % 32) row = s.drawRow x y row := by
  have hc : ∀ x, cell x (y % 32) = cell x y := fun x => cell_eq_iff.mpr ⟨by omega, rfl⟩
  simp only [drawRow, hc]

theorem draw_mod (s : Screen) (x y : Nat) (sprite : List UInt8) :
    s.draw x (y % 32) sprite = s.draw x y sprite := by
  induction sprite generalizing s y with
  | nil => rfl
  | cons row rest ih =>
    have hy : ∀ s : Screen, s.draw x (y % 32 + 1) rest = s.draw x (y + 1) rest := by
      intro s
      rw [← ih s (y % 32 + 1), ← ih s (y + 1), Nat.mod_add_mod]
    simp only [draw, drawRow_mod, hy]

/-- **A draw is an exclusive or on a torus.**  With up to 32 rows, the pixel below a bit of the
sprite is flipped by that bit, every other pixel is as it was, and the flag says that a lit pixel is
off afterwards.  A sprite of any length in two parts is drawn part by part, each from the row on
which it starts, and the flags are joined. -/
theorem draw_torus (s : Screen) (x y : Nat) :
    (∀ sprite : List UInt8, sprite.length ≤ 32 →
      let drawn := s.draw x y sprite
      (∀ a j, (ha : a < sprite.length) → j < 8 →
        drawn.1.pixel ((x + j) % 64) ((y + a) % 32) =
          (s.pixel ((x + j) % 64) ((y + a) % 32) ^^ sprite[a].toNat.testBit (7 - j))) ∧
      (∀ u v, u < 64 → v < 32 →
        (∀ a j, a < sprite.length → j < 8 → ¬ (u = (x + j) % 64 ∧ v = (y + a) % 32)) →
        drawn.1.pixel u v = s.pixel u v) ∧
      (drawn.2 = true ↔
        ∃ u v, u < 64 ∧ v < 32 ∧ s.pixel u v = true ∧ drawn.1.pixel u v = false)) ∧
    ∀ a b,
      let first := s.draw x y a
      let second := first.1.draw x ((y + a.length) % 32) b
      s.draw x y (a ++ b) = (second.1, first.2 || second.2) := by
  constructor
  · intro sprite hl
    refine ⟨?_, ?_, ?_⟩
    · intro a j ha hj
      rw [pixel_mod, pixel_mod, pixel_draw, flips_add hl ha hj]
    · intro u v hu hv ho
      have hf : flips x y sprite u v = false := by
        refine Bool.eq_false_iff.mpr fun h => ?_
        obtain ⟨a, ha, hr, hc⟩ := of_flips h
        have hcol : u = (x + column x u) % 64 := by
          unfold column
          omega
        exact ho a (column x u) ha hc ⟨hcol, by omega⟩
      rw [pixel_draw, hf, Bool.xor_false]
    · rw [draw_erases s x y hl, erases_iff]
  · intro a b
    dsimp only
    rw [draw_append, draw_mod]

/-- a screen with one pixel lit, in the corner -/
def spot : Screen := (blank.draw 0 0 [0x80]).1

/-- drawn across both edges, the first row comes out on the left, and the second one at the top,
where it puts out the pixel in the corner -/
theorem draw_torus_corner :
    let sprite : List UInt8 := [0xFF, 0x08]
    let drawn := spot.draw 60 31 sprite
    sprite.length ≤ 32 ∧ drawn.1.pixel 3 31 = true ∧ drawn.1.pixel 0 0 = false ∧
      drawn.1.pixel 1 0 = false ∧ drawn.2 = true := by
  have hl : [0xFF, 0x08].length ≤ 32 := by decide
  obtain ⟨hd, -, hf⟩ := (draw_torus spot 60 31).1 [0xFF, 0x08] hl
  have hc := hd 1 4 (by decide) (by decide)
  have hs : spot.pixel 0 0 = true := by decide +kernel
  rw [hs] at hc
  refine ⟨hl, ?_, hc, ?_, hf.mpr ⟨0, 0, by decide, by decide, hs, hc⟩⟩
  · rw [hd 0 7 (by decide) (by decide)]
    decide +kernel
  · rw [hd 1 5 (by decide) (by decide)]
    decide +kernel

end Screen

end Chip8
