import Chip8.Numeral
import Mathlib.Data.List.Induction
import Mathlib.Data.Nat.Digits.Defs

/-!
# Reading and writing hexadecimal numbers

A hexadecimal digit has its place among the sixteen as its value, in small letters or in capital
ones.  A number within the bound is read however many zeros stand in front of it, since the number
is compared with the bound and not its length; and only where nothing stands at all nothing is what
is complained about.

* `Numeral.hexValue?`, `Numeral.hexNumber`    the value of a digit, and of digits;
* `Numeral.Hexadecimal`                       digits and nothing else, at least one;
* `readDigits_of_all`, `readDigits_of_not_all`    reading digits, and what is not made of digits;
* `read_ok_iff`, `read_empty_iff`             what is read, and what is empty;
* `toList_hexMarked`                          what is written with a fixed number of digits.
-/

namespace Chip8.Numeral

/-! ## digits -/

/-- the value of a hexadecimal digit, in small or in capital letters -/
def hexValue? (c : Char) : Option Nat :=
  ("0123456789abcdef".toList.idxOf? c).or ("0123456789ABCDEF".toList.idxOf? c)

/-- the number that hexadecimal digits stand for, the highest one first -/
def hexNumber (cs : List Char) : Nat := Nat.ofDigits 16 (cs.filterMap hexValue?).reverse

/-- at least one character, and every one a hexadecimal digit -/
structure Hexadecimal (cs : List Char) : Prop where
  ne_nil : cs ≠ []
  digits (c : Char) (h : c ∈ cs) : (hexValue? c).isSome

def hexDigits : List Char := "0123456789abcdefABCDEF".toList

theorem mem_map_ofNat {c : Char} {low count : Nat} (h : low ≤ c.toNat ∧ c.toNat < low + count) :
    c ∈ (List.range' low count).map Char.ofNat :=
  List.mem_map.mpr ⟨c.toNat, List.mem_range'_1.mpr h, Char.ofNat_toNat c⟩

theorem mem_hexDigits {c : Char}
    (h : ('0' ≤ c ∧ c ≤ '9') ∨ ('a' ≤ c ∧ c ≤ 'f') ∨ ('A' ≤ c ∧ c ≤ 'F')) : c ∈ hexDigits := by
  have hd : (List.range' 48 10).map Char.ofNat ⊆ hexDigits := by decide
  have hs : (List.range' 97 6).map Char.ofNat ⊆ hexDigits := by decide
  have hc : (List.range' 65 6).map Char.ofNat ⊆ hexDigits := by decide
  obtain h | h | h := h
  · exact hd (mem_map_ofNat ⟨h.1, Nat.lt_succ_of_le h.2⟩)
  · exact hs (mem_map_ofNat ⟨h.1, Nat.lt_succ_of_le h.2⟩)
  · exact hc (mem_map_ofNat ⟨h.1, Nat.lt_succ_of_le h.2⟩)

/-- the value of a digit in base 16 is its place among the sixteen -/
theorem digitValue?_eq (c : Char) : digitValue? 16 c = hexValue? c := by
  by_cases hm : c ∈ hexDigits
  · have ha : hexDigits.map (digitValue? 16) = hexDigits.map hexValue? := by decide
    exact List.map_inj_left.mp ha c hm
  · have hr : ¬ (('0' ≤ c ∧ c ≤ '9') ∨ ('a' ≤ c ∧ c ≤ 'f') ∨ ('A' ≤ c ∧ c ≤ 'F')) :=
      fun h => hm (mem_hexDigits h)
    have hs : c ∉ "0123456789abcdef".toList := by
      have hi : "0123456789abcdef".toList ⊆ hexDigits := by decide
      exact fun h => hm (hi h)
    have hc : c ∉ "0123456789ABCDEF".toList := by
      have hi : "0123456789ABCDEF".toList ⊆ hexDigits := by decide
      exact fun h => hm (hi h)
    rw [hexValue?, List.idxOf?_eq_none_iff.mpr hs, List.idxOf?_eq_none_iff.mpr hc]
    rw [not_or, not_or] at hr
    rw [digitValue?, if_neg hr.1, if_neg hr.2.1, if_neg hr.2.2]
    rfl

/-- the first digit counts as many times sixteen as there are digits behind it -/
theorem hexNumber_cons {c : Char} {d : Nat} (hd : hexValue? c = some d) {cs : List Char}
    (h : ∀ c ∈ cs, (hexValue? c).isSome) :
    hexNumber (c :: cs) = d * 16 ^ cs.length + hexNumber cs := by
  have hl : (cs.filterMap hexValue?).length = cs.length := List.filterMap_length_eq_length.mpr h
  rw [hexNumber, List.filterMap_cons_some hd, List.reverse_cons, Nat.ofDigits_append,
    Nat.ofDigits_singleton, List.length_reverse, hl, Nat.mul_comm d, Nat.add_comm]
  rfl

/-! ## reading digits -/

/-- **Digits are read as their number**, behind the number read so far, if it is within the bound. -/
theorem readDigits_of_all {cs : List Char} (h : ∀ c ∈ cs, (hexValue? c).isSome) (bound value : Nat)
    (hv : value ≤ bound) :
    readDigits 16 bound value cs =
      if bound < value * 16 ^ cs.length + hexNumber cs then .error .tooLarge
      else .ok (value * 16 ^ cs.length + hexNumber cs) := by
  induction cs generalizing value with
  | nil =>
    have hn : value * 16 ^ 0 + hexNumber [] = value := by simp [hexNumber]
    rw [List.length_nil, hn, if_neg (Nat.not_lt.mpr hv)]
    rfl
  | cons c rest ih =>
    obtain ⟨d, hd⟩ := Option.isSome_iff_exists.mp (h c List.mem_cons_self)
    have hr : ∀ c ∈ rest, (hexValue? c).isSome := fun c hc => h c (List.mem_cons_of_mem _ hc)
    have hn : value * 16 ^ (c :: rest).length + hexNumber (c :: rest) =
        (value * 16 + d) * 16 ^ rest.length + hexNumber rest := by
      rw [hexNumber_cons hd hr, List.length_cons]
      grind
    rw [hn, readDigits, digitValue?_eq, hd]
    dsimp only
    by_cases hb : bound < value * 16 + d
    · -- what is too large already only grows with the digits behind
      have hp : value * 16 + d ≤ (value * 16 + d) * 16 ^ rest.length :=
        Nat.le_mul_of_pos_right _ (Nat.pow_pos (by omega))
      rw [if_pos hb, if_pos (by omega)]
    · rw [if_neg hb]
      exact ih hr (value * 16 + d) (Nat.not_lt.mp hb)

theorem readDigits_of_not_all {cs : List Char} (h : ¬ ∀ c ∈ cs, (hexValue? c).isSome)
    (bound value n : Nat) : readDigits 16 bound value cs ≠ .ok n := by
  induction cs generalizing value with
  | nil => exact absurd (fun c hc => nomatch hc) h
  | cons c rest ih =>
    rw [readDigits, digitValue?_eq]
    cases hd : hexValue? c with
    | none => nofun
    | some d =>
      dsimp only
      have hr : ¬ ∀ c ∈ rest, (hexValue? c).isSome := by
        intro hr
        refine h fun b hb => ?_
        obtain rfl | hb := List.mem_cons.mp hb
        · rw [hd]
          rfl
        · exact hr b hb
      split
      · nofun
      · exact ih hr (value * 16 + d)

theorem readDigits_ne_empty (base bound value : Nat) (cs : List Char) :
    readDigits base bound value cs ≠ .error .empty := by
  fun_induction readDigits base bound value cs with
  | case1 => nofun
  | case2 => nofun
  | case3 => nofun
  | case4 value c rest d hd hb ih => exact ih

theorem readDigits_ok_iff {cs : List Char} {bound n : Nat} :
    readDigits 16 bound 0 cs = .ok n ↔
      (∀ c ∈ cs, (hexValue? c).isSome) ∧ hexNumber cs = n ∧ n ≤ bound := by
  by_cases h : ∀ c ∈ cs, (hexValue? c).isSome
  · rw [readDigits_of_all h bound 0 (Nat.zero_le _), Nat.zero_mul, Nat.zero_add]
    split
    · next hb =>
      refine iff_of_false nofun ?_
      rintro ⟨-, rfl, hn⟩
      omega
    · next hb =>
      rw [Except.ok.injEq]
      constructor
      · rintro rfl
        exact ⟨h, rfl, Nat.not_lt.mp hb⟩
      · rintro ⟨-, rfl, -⟩
        rfl
  · exact iff_of_false (readDigits_of_not_all h bound 0 n) fun hn => h hn.1

/-! ## reading a number -/

/-- **A number is read from its digits, with a plus sign in front or without one.** -/
theorem read_ok_iff {cs : List Char} {bound n : Nat} :
    read 16 bound cs = .ok n ↔
      ∃ ds, (cs = ds ∨ cs = '+' :: ds) ∧ Hexadecimal ds ∧ hexNumber ds = n ∧ n ≤ bound := by
  have hp : hexValue? '+' = none := by decide
  have hs : ∀ ds, Hexadecimal ('+' :: ds) → False := by
    intro ds h
    have hd := h.digits '+' List.mem_cons_self
    rw [hp] at hd
    cases hd
  fun_cases read 16 bound cs with
  | case1 =>
    refine iff_of_false nofun ?_
    rintro ⟨ds, h | h, hx, -⟩
    · exact hx.ne_nil h.symm
    · cases h
  | case2 =>
    refine iff_of_false nofun ?_
    rintro ⟨ds, h | h, hx, -⟩
    · exact hs [] (h ▸ hx)
    · cases h
      exact hx.ne_nil rfl
  | case3 rest hne =>
    rw [readDigits_ok_iff]
    constructor
    · rintro ⟨hd, hn⟩
      exact ⟨rest, .inr rfl, ⟨hne, hd⟩, hn⟩
    · rintro ⟨ds, h | h, hx, hn⟩
      · exact absurd (h ▸ hx) (hs rest)
      · cases h
        exact ⟨hx.digits, hn⟩
  | case4 _ hnil hplus hsign =>
    rw [readDigits_ok_iff]
    constructor
    · rintro ⟨hd, hn⟩
      exact ⟨cs, .inl rfl, ⟨hnil, hd⟩, hn⟩
    · rintro ⟨ds, rfl | h, hx, hn⟩
      · exact ⟨hx.digits, hn⟩
      · exact absurd h (hsign ds)

/-- **Only nothing is empty**: a sign alone is a character that is no digit. -/
theorem read_empty_iff {base bound : Nat} {cs : List Char} :
    read base bound cs = .error .empty ↔ cs = [] := by
  fun_cases read base bound cs with
  | case1 => exact iff_of_true rfl rfl
  | case2 => exact iff_of_false nofun nofun
  | case3 rest hne => exact iff_of_false (readDigits_ne_empty _ _ _ _) nofun
  | case4 _ hnil hplus hsign => exact iff_of_false (readDigits_ne_empty _ _ _ _) hnil

/-! ## writing with a fixed number of digits -/

/-- the digit of a number up to 15, in capital letters -/
def hexDigit (d : Fin 16) : Char := (Nat.digitChar d.val).toUpper

/-- the number that digits stand for, the highest one first -/
def ofHexDigits (ds : List (Fin 16)) : Nat := ds.foldl (fun n d => 16 * n + d.val) 0

theorem digits_hexDigit (d : Fin 16) : digits 16 .upper d.val = [hexDigit d] := by
  rw [digits, Nat.toDigits_of_lt_base d.isLt]
  rfl

theorem digits_concat {n : Nat} (hn : 0 < n) (d : Fin 16) :
    digits 16 .upper (16 * n + d.val) = digits 16 .upper n ++ [hexDigit d] := by
  rw [← digits_hexDigit]
  simp only [digits]
  rw [← Nat.toDigits_append_toDigits (by decide) hn d.isLt, List.map_append]

/-- filled up with zeros, a number is written with the digits that it was made of -/
theorem zeros_digits {ds : List (Fin 16)} (h : ds ≠ []) :
    List.replicate (ds.length - (digits 16 .upper (ofHexDigits ds)).length) '0' ++
      digits 16 .upper (ofHexDigits ds) = ds.map hexDigit := by
  induction ds using List.reverseRecOn with
  | nil => exact absurd rfl h
  | append_singleton ds d ih =>
    have hc : ofHexDigits (ds ++ [d]) = 16 * ofHexDigits ds + d.val := List.foldl_append ..
    rw [hc, List.length_append, List.length_singleton, List.map_append, List.map_singleton]
    by_cases hd : ds = []
    · subst hd
      show List.replicate (1 - (digits 16 .upper (0 + d.val)).length) '0' ++
        digits 16 .upper (0 + d.val) = [hexDigit d]
      rw [Nat.zero_add, digits_hexDigit]
      rfl
    · rw [← ih hd]
      by_cases hn : ofHexDigits ds = 0
      · -- nothing but zeros in front of the last digit
        have hl : 0 < ds.length := List.length_pos_iff.mpr hd
        have hz : digits 16 .upper 0 = ['0'] := rfl
        rw [hn, Nat.mul_zero, Nat.zero_add, digits_hexDigit, hz, ← List.replicate_succ',
          List.length_singleton, List.length_singleton, Nat.add_sub_cancel, Nat.sub_add_cancel hl]
      · rw [digits_concat (Nat.pos_of_ne_zero hn), List.length_append, List.length_singleton,
          Nat.add_sub_add_right, List.append_assoc]

/-- **A mark and as many digits as asked for.** -/
theorem toList_hexMarked {ds : List (Fin 16)} (h : ds ≠ []) :
    (hexMarked ds.length (ofHexDigits ds)).toList = '0' :: 'x' :: ds.map hexDigit := by
  have hw : ∀ k, ds.length + 2 - (2 + k) = ds.length - k := by omega
  rw [hexMarked, Format.render, String.toList_ofList, ← zeros_digits h, ← hw]
  rfl

end Chip8.Numeral
