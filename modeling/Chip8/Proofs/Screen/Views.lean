import Mathlib.Algebra.Group.Nat.Defs
import Mathlib.Data.List.Basic
import Chip8.Proofs.Screen.Draw

/-!
# The views of a screen

A screen is shown pixel by pixel, row by row, and as lines of text.  All of them show the same
picture, and the text shows all of it: its lines are read back into the bytes of the screen.

* `Screen.rows_eq`            the rows are made of the pixels;
* `Screen.picture_eq`         so are the lines of the text;
* `Screen.readBack`           the bytes of a text, eight marks of a line to a byte;
* `Screen.readBack_picture`   for the text of a screen these are its bytes;
* `Screen.isBlank_iff`        a blank screen has no pixel that is on;
* `Screen.views_agree`        all of it together.
-/

namespace Chip8

/-! ## lists in blocks -/

/-- blocks of eight put together -/
theorem flatMap_blocks {α : Type} (l : List α) (n : Nat) :
    ((List.range n).flatMap fun k => (l.drop (8 * k)).take 8) = l.take (8 * n) := by
  induction n with
  | zero => rfl
  | succ n ih =>
    rw [List.range_succ, List.flatMap_append, ih, List.flatMap_singleton, Nat.mul_succ,
      List.take_add]

theorem range_64 :
    List.range 64 = (List.range 8).flatMap fun k => (List.range 8).map (8 * k + ·) := rfl

/-- lines with a line break behind each but the last -/
theorem intercalate_concat {α : Type} (sep : α) (lines : List (List α)) (last : List α) :
    [sep].intercalate (lines ++ [last]) = lines.flatMap (· ++ [sep]) ++ last := by
  induction lines with
  | nil => exact List.intercalate_singleton
  | cons line rest ih =>
    have hne : rest ++ [last] ≠ [] := List.append_ne_nil_of_right_ne_nil _ (List.cons_ne_nil _ _)
    rw [List.cons_append, List.intercalate_cons_of_ne_nil hne, ih, List.flatMap_cons,
      List.append_assoc (line ++ [sep])]

namespace Screen
variable {s t : Screen}

/-! ## pixels and rows -/

/-- the bit of the packed bytes that a pixel of the screen is -/
theorem pixel_eq_bit (s : Screen) {x y : Nat} (hx : x < 64) (hy : y < 32) :
    s.pixel x y = (s.bytes.toList.getD (8 * y + x / 8) 0).toNat.testBit (7 - x % 8) := by
  have hk : 8 * y + x / 8 < 256 := by omega
  have hc : cell x y = ⟨8 * y + x / 8, hk⟩ := by
    apply Fin.ext
    simp only [cell]
    omega
  rw [s.pixel_of_cell hc, List.getD_eq_getElem?_getD,
    List.getElem?_eq_getElem (by simpa using hk), Option.getD_some, Vector.getElem_toList]
  rfl

theorem rowBytes_eq (s : Screen) {y : Nat} (hy : y < 32) :
    s.rowBytes y = (List.range 8).map fun k => s.bytes.toList.getD (8 * y + k) 0 := by
  apply List.ext_getElem
  · simp [rowBytes]
    omega
  · intro k hk _
    have hl : 8 * y + k < s.bytes.toList.length := by
      simp [rowBytes] at hk ⊢
      omega
    rw [List.getElem_map, List.getElem_range, List.getD_eq_getElem?_getD,
      List.getElem?_eq_getElem hl, Option.getD_some]
    simp only [rowBytes, List.getElem_take, List.getElem_drop]

theorem bits_eq (byte : UInt8) :
    bits byte = (List.range 8).map fun j => byte.toNat.testBit (7 - j) := rfl

/-- a row, eight bits of a byte after the other, is made of the pixels from left to right -/
theorem flatMap_bits_rowBytes (s : Screen) {y : Nat} (hy : y < 32) :
    (s.rowBytes y).flatMap bits = (List.range 64).map fun x => s.pixel x y := by
  rw [rowBytes_eq s hy, range_64, List.map_flatMap, List.flatMap_map]
  refine List.flatMap_congr fun k hk => ?_
  rw [bits_eq, List.map_map]
  refine List.map_congr_left fun j hj => ?_
  have hk8 : k < 8 := List.mem_range.mp hk
  have hj8 : j < 8 := List.mem_range.mp hj
  have hd : (8 * k + j) / 8 = k := by omega
  have hm : (8 * k + j) % 8 = j := by omega
  rw [Function.comp_apply, s.pixel_eq_bit (by omega) hy, hd, hm]

/-- **The rows are made of the pixels.** -/
theorem rows_eq (s : Screen) :
    s.rows = (List.range 32).map fun y => (List.range 64).map fun x => s.pixel x y :=
  List.map_congr_left fun _ hy => s.flatMap_bits_rowBytes (List.mem_range.mp hy)

/-! ## nothing on the screen -/

theorem pixel_blank (u v : Nat) : blank.pixel u v = false := by
  simp [pixel, blank]

/-- **A screen is blank if no pixel is on.** -/
theorem isBlank_iff : s.isBlank = true ↔ ∀ u v, s.pixel u v = false := by
  have hb : s.isBlank = true ↔ ∀ k : Fin 256, s.bytes[k] = 0 := by
    simp only [isBlank, List.all_eq_true, beq_iff_eq, Vector.mem_toList_iff, Vector.mem_iff_getElem]
    constructor
    · intro h k
      exact h s.bytes[k] ⟨k.val, k.isLt, rfl⟩
    · rintro h byte ⟨k, hk, rfl⟩
      exact h ⟨k, hk⟩
  rw [hb]
  constructor
  · intro h u v
    rw [pixel, h, UInt8.toNat_zero, Nat.zero_testBit]
  · intro h k
    have hs : s = blank := ext_pixel fun u v => (h u v).trans (pixel_blank u v).symm
    rw [hs]
    exact Vector.getElem_replicate k.isLt

/-! ## the text -/

/-- the line of text for a row of pixels -/
def line (row : List Bool) : String := String.ofList (row.map mark)

/-- **The text is made of lines**: one for each row, between a line that opens it and one that
closes it. -/
theorem picture_eq (s : Screen) :
    s.picture = "\n".intercalate ("Screen(" :: s.rows.map line ++ [")"]) := by
  apply String.toList_inj.mp
  rw [String.toList_intercalate, List.map_append, List.map_cons, List.map_map]
  show _ = ['\n'].intercalate (("Screen(".toList :: s.rows.map fun row => (line row).toList) ++
    [")".toList])
  rw [intercalate_concat, List.flatMap_cons, List.flatMap_map]
  simp only [picture, line, String.toList_append, String.toList_ofList]
  rfl

/-- the byte that eight marks stand for, the leftmost one being its highest bit -/
def byteOfMarks (marks : List Char) : UInt8 :=
  UInt8.ofNat (marks.foldl (fun n c => 2 * n + if c = '#' then 1 else 0) 0)

/-- the bytes of a line, eight marks to each of them -/
def bytesOfLine : List Char → List UInt8
  | a :: b :: c :: d :: e :: f :: g :: h :: rest =>
    byteOfMarks [a, b, c, d, e, f, g, h] :: bytesOfLine rest
  | _ => []

/-- the bytes of a text: those of the 32 lines behind the first one -/
def readBack (text : String) : List UInt8 :=
  (((text.toList.splitOn '\n').drop 1).take 32).flatMap bytesOfLine

theorem mark_eq_iff {lit : Bool} : mark lit = '#' ↔ lit = true := by
  cases lit <;> decide

theorem mark_ne_lineBreak (lit : Bool) : mark lit ≠ '\n' := by
  cases lit <;> decide

/-- the marks of the lower bits of a number, read behind a number -/
theorem foldl_marks (n k m : Nat) :
    (((List.range k).reverse.map fun i => mark (n.testBit i)).foldl
      (fun n c => 2 * n + if c = '#' then 1 else 0) m) = m * 2 ^ k + n % 2 ^ k := by
  induction k generalizing m with
  | zero => simp [Nat.mod_one]
  | succ k ih =>
    have hb : (if mark (n.testBit k) = '#' then 1 else 0) = n / 2 ^ k % 2 := by
      rw [Nat.testBit_eq_decide_div_mod_eq]
      simp only [mark_eq_iff, decide_eq_true_eq]
      split <;> omega
    rw [List.range_succ, List.reverse_append, List.reverse_singleton, List.singleton_append,
      List.map_cons, List.foldl_cons, ih, hb, Nat.pow_succ, Nat.mod_mul]
    grind

theorem byteOfMarks_bits (byte : UInt8) : byteOfMarks ((bits byte).map mark) = byte := by
  have hf := foldl_marks byte.toNat 8 0
  have hb : byte.toNat % 2 ^ 8 = byte.toNat := Nat.mod_eq_of_lt byte.toNat_lt
  rw [Nat.zero_mul, Nat.zero_add, hb] at hf
  rw [byteOfMarks, bits, List.map_map]
  exact (congrArg UInt8.ofNat hf).trans UInt8.ofNat_toNat

/-- the line of a row of bytes is read back into the bytes -/
theorem bytesOfLine_line (bytes : List UInt8) :
    bytesOfLine (line (bytes.flatMap bits)).toList = bytes := by
  rw [line, String.toList_ofList]
  induction bytes with
  | nil => rfl
  | cons byte rest ih =>
    rw [List.flatMap_cons, List.map_append]
    show byteOfMarks ((bits byte).map mark) :: bytesOfLine ((rest.flatMap bits).map mark) = _
    rw [byteOfMarks_bits, ih]

/-- the lines of the text, cut at the line breaks -/
theorem splitOn_picture (s : Screen) :
    s.picture.toList.splitOn '\n' =
      "Screen(".toList :: (s.rows.map fun row => (line row).toList) ++ [")".toList] := by
  have hl : ∀ row : List Bool, '\n' ∉ (line row).toList := by
    intro row h
    rw [line, String.toList_ofList, List.mem_map] at h
    obtain ⟨lit, -, hm⟩ := h
    exact mark_ne_lineBreak lit hm
  rw [picture_eq, String.toList_intercalate, List.map_append, List.map_cons, List.map_map]
  refine List.splitOn_intercalate '\n' ?_ (List.cons_ne_nil _ _)
  intro l hm
  obtain hm | hm := List.mem_append.mp hm
  · obtain rfl | hm := List.mem_cons.mp hm
    · decide
    · obtain ⟨row, -, rfl⟩ := List.mem_map.mp hm
      exact hl row
  · obtain rfl := List.mem_singleton.mp hm
    decide

/-- **The text loses nothing**: its lines are read back into the bytes. -/
theorem readBack_picture (s : Screen) : readBack s.picture = s.bytes.toList := by
  have hn : (s.rows.map fun row => (line row).toList).length = 32 := by simp [rows]
  rw [readBack, splitOn_picture, List.cons_append, List.drop_succ_cons, List.drop_zero,
    ← hn, List.take_left, rows, List.map_map, List.flatMap_map]
  simp only [Function.comp_apply, bytesOfLine_line, rowBytes]
  rw [flatMap_blocks, List.take_of_length_le (by simp)]

theorem picture_eq_iff : s.picture = t.picture ↔ s = t := by
  constructor
  · intro h
    have hb : s.bytes.toList = t.bytes.toList := by
      rw [← readBack_picture, h, readBack_picture]
    obtain ⟨a⟩ := s
    obtain ⟨b⟩ := t
    exact congrArg Screen.mk (Vector.toList_inj.mp hb)
  · rintro rfl
    rfl

/-- **All views show the same picture.**  There are 32 rows of 64 pixels; a pixel is a bit of the
packed bytes, and off the screen the coordinates wrap around.  The text has a line for each row, with
`#` for the pixels that are on and `_` for the others.  A blank screen has no pixel that is on.  From
the text the bytes are read back, so no two screens have the same text. -/
theorem views_agree (s : Screen) :
    s.rows = (List.range 32).map (fun y => (List.range 64).map fun x => s.pixel x y) ∧
    (∀ (x : Fin 64) (y : Fin 32), s.pixel x y =
      (s.bytes.toList.getD (8 * y.val + x.val / 8) 0).toNat.testBit (7 - x.val % 8)) ∧
    (∀ x y, s.pixel x y = s.pixel (x % 64) (y % 32)) ∧
    s.picture = "\n".intercalate ("Screen(" ::
      (List.range 32).map (fun y => String.ofList
        ((List.range 64).map fun x => if s.pixel x y then '#' else '_')) ++ [")"]) ∧
    (s.isBlank = true ↔ ∀ x y, s.pixel x y = false) ∧
    readBack s.picture = s.bytes.toList ∧
    ∀ t : Screen, s.picture = t.picture ↔ s = t := by
  refine ⟨s.rows_eq, fun x y => s.pixel_eq_bit x.isLt y.isLt, fun x y => (s.pixel_mod x y).symm, ?_,
    isBlank_iff, s.readBack_picture, fun t => picture_eq_iff⟩
  rw [picture_eq, rows_eq, List.map_map]
  simp only [Function.comp_def, line, List.map_map]
  rfl

end Screen

end Chip8
