import Chip8.Proofs.Screen.Draw

/-!
# Many draws

A draw flips pixels, and which ones does not depend on the screen.  So it does not matter in which
order sprites are drawn, and what is drawn a second time is gone, however the sprites overlap each
other or themselves.  The flags are another matter: which draw hits a lit pixel depends on the order.

* `Stroke`, `Screen.drawAll`     a draw as data, and draws one after the other;
* `Screen.stroke_comm`           two draws in either order;
* `Screen.drawAll_perm`          any number of them in any order;
* `Screen.drawAll_reverse`       draws taken back, the last one first;
* `Screen.hits_of_twice`         a sprite that is not empty hits a lit pixel if it is drawn twice.
-/

namespace Chip8

/-- a draw: the sprite, and where its upper left corner is put -/
structure Stroke where
  x : Nat
  y : Nat
  sprite : List UInt8
  deriving DecidableEq, Repr

namespace Screen

/-- the screen after a draw -/
def stroke (s : Screen) (d : Stroke) : Screen := (s.draw d.x d.y d.sprite).1

/-- the screen after draws one after the other -/
def drawAll (s : Screen) (strokes : List Stroke) : Screen := strokes.foldl stroke s

variable {a b : List Stroke}

theorem drawAll_cons (s : Screen) (d : Stroke) (a : List Stroke) :
    s.drawAll (d :: a) = (s.stroke d).drawAll a := rfl

theorem drawAll_append (s : Screen) (a b : List Stroke) :
    s.drawAll (a ++ b) = (s.drawAll a).drawAll b := List.foldl_append

/-! ## the order of draws -/

theorem pixel_stroke (s : Screen) (d : Stroke) (u v : Nat) :
    (s.stroke d).pixel u v = (s.pixel u v ^^ flips d.x d.y d.sprite u v) :=
  s.pixel_draw d.x d.y d.sprite u v

theorem stroke_comm (s : Screen) (d e : Stroke) : (s.stroke d).stroke e = (s.stroke e).stroke d := by
  apply ext_pixel
  intro u v
  rw [pixel_stroke, pixel_stroke, pixel_stroke, pixel_stroke, Bool.xor_right_comm]

theorem stroke_stroke (s : Screen) (d : Stroke) : (s.stroke d).stroke d = s := by
  apply ext_pixel
  intro u v
  rw [pixel_stroke, pixel_stroke, Bool.xor_assoc, Bool.xor_self, Bool.xor_false]

/-- **Draws may be put into any order.** -/
theorem drawAll_perm (s : Screen) (h : a.Perm b) : s.drawAll a = s.drawAll b :=
  h.foldl_eq' (fun d _ e _ t => t.stroke_comm d e) s

/-- draws are taken back by drawing again, the last one first -/
theorem drawAll_reverse (s : Screen) (a : List Stroke) : (s.drawAll a).drawAll a.reverse = s := by
  induction a generalizing s with
  | nil => rfl
  | cons d rest ih =>
    rw [drawAll_cons, List.reverse_cons, drawAll_append, ih]
    exact s.stroke_stroke d

/-! ## the flags -/

theorem exists_testBit_of_ne_zero {row : UInt8} (h : row ≠ 0) :
    ∃ j, j < 8 ∧ row.toNat.testBit (7 - j) = true := by
  have hb : (row &&& row != 0) = true := by
    rw [UInt8.and_self]
    exact bne_iff_ne.mpr h
  obtain ⟨i, hi, ht, -⟩ := (and_bne_zero_iff row row).mp hb
  exact ⟨7 - i, by omega, by rwa [Nat.sub_sub_self (Nat.le_of_lt_succ hi)]⟩

/-- a sprite with a set bit flips some pixel, if its rows do not meet on the screen -/
theorem exists_flips {sprite : List UInt8} (x y : Nat) (hl : sprite.length ≤ 32)
    (hr : ∃ row ∈ sprite, row ≠ 0) : ∃ u v, flips x y sprite u v = true := by
  obtain ⟨row, hm, hne⟩ := hr
  obtain ⟨a, ha, rfl⟩ := List.getElem_of_mem hm
  obtain ⟨j, hj, ht⟩ := exists_testBit_of_ne_zero hne
  exact ⟨x + j, y + a, (flips_add hl ha hj).trans ht⟩

/-- a pixel that is flipped twice is on before one of the two draws, and that draw puts it out -/
theorem hits_of_twice {sprite : List UInt8} (s : Screen) (x y : Nat) (hl : sprite.length ≤ 32)
    (hr : ∃ row ∈ sprite, row ≠ 0) :
    (s.draw x y sprite).2 = true ∨ ((s.draw x y sprite).1.draw x y sprite).2 = true := by
  obtain ⟨u, v, hf⟩ := exists_flips x y hl hr
  have hp : (s.draw x y sprite).1.pixel u v = !s.pixel u v := by
    rw [pixel_draw, hf, Bool.xor_true]
  cases hs : s.pixel u v with
  | true =>
    left
    rw [hs] at hp
    exact (s.draw_erases x y hl).mpr ⟨u, v, hs, hp⟩
  | false =>
    right
    rw [hs] at hp
    refine (draw_erases _ x y hl).mpr ⟨u, v, hp, ?_⟩
    rw [pixel_draw, hp, hf]
    rfl

/-- **Draws commute and cancel.**  Draws of sprites of any length leave the same screen in whichever
order they are made, and made once more, in whichever order, they leave the screen as it was before
all of them.  A sprite of up to 32 rows with a set bit, drawn twice at one place, hits a lit pixel
at least once. -/
theorem draws_commute_and_cancel (s : Screen) :
    (∀ a b : List Stroke, a.Perm b →
      s.drawAll b = s.drawAll a ∧ (s.drawAll a).drawAll b = s) ∧
    ∀ (x y : Nat) (sprite : List UInt8), sprite.length ≤ 32 → (∃ row ∈ sprite, row ≠ 0) →
      let first := s.draw x y sprite
      let second := first.1.draw x y sprite
      first.2 = true ∨ second.2 = true := by
  refine ⟨fun a b h => ⟨s.drawAll_perm h.symm, ?_⟩, fun x y sprite => s.hits_of_twice x y⟩
  have hb : b.Perm a.reverse := h.symm.trans a.reverse_perm.symm
  rw [drawAll_perm (s.drawAll a) hb, drawAll_reverse]

/-- two sprites that overlap in the corner, one of them across both edges; and drawn on a screen that
is lit only beside it, a sprite hits nothing at first, and its own picture the second time -/
theorem draws_commute_and_cancel_crossing :
    let corner : Stroke := ⟨60, 31, [0xFF, 0x08]⟩
    let dot : Stroke := ⟨0, 0, [0x80]⟩
    [corner, dot].Perm [dot, corner] ∧
      spot.drawAll [dot, corner] = spot.drawAll [corner, dot] ∧
      (spot.drawAll [corner, dot]).drawAll [dot, corner] = spot ∧
      [0x40].length ≤ 32 ∧ (∃ row ∈ [(0x40 : UInt8)], row ≠ 0) ∧ (spot.draw 0 0 [0x40]).2 = false ∧
      ((spot.draw 0 0 [0x40]).1.draw 0 0 [0x40]).2 = true := by
  have hp : [(⟨60, 31, [0xFF, 0x08]⟩ : Stroke), ⟨0, 0, [0x80]⟩].Perm
      [⟨0, 0, [0x80]⟩, ⟨60, 31, [0xFF, 0x08]⟩] := .swap ..
  have hr : ∃ row ∈ [(0x40 : UInt8)], row ≠ 0 := ⟨0x40, List.mem_cons_self, by decide⟩
  have hn : (spot.draw 0 0 [0x40]).2 = false := by decide +kernel
  obtain ⟨hd, hh⟩ := draws_commute_and_cancel spot
  obtain ⟨ho, hc⟩ := hd _ _ hp
  obtain hf | hs := hh 0 0 [0x40] (by decide) hr
  · exact absurd hf (by rw [hn]; nofun)
  · exact ⟨hp, ho, hc, by decide, hr, hn, hs⟩

end Screen

end Chip8
