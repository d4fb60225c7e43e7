import Chip8.CommandLine.KeyText
import Chip8.Proofs.Numeral

/-!
# The language of keys

A text names a key if it is made of marks `0x`, then marks `0X`, then at most one plus sign, then
hexadecimal digits, with a value that is a key.  There is only one way to take such a text apart:
a mark is no beginning of digits, since there are no digits beginning with `0x`.

* `marks`, `marks_dropMarks`, `dropMarks_marks`    marks, and what is left without them;
* `Key.Spelling`                                   a text of this shape, part by part;
* `Key.Spelling.eq_of_text_eq`                     its parts are known from the text;
* `read_keyDigits_iff`                             the texts that are read as a number;
* `Key.ofText_language`                            the texts that are keys, and what is said of others.
-/

namespace Chip8
open Numeral

/-! ## marks -/

/-- a number of marks one after the other -/
def marks (x : Char) (n : Nat) : List Char := (List.replicate n ['0', x]).flatten

theorem marks_succ (x : Char) (n : Nat) : marks x (n + 1) = '0' :: x :: marks x n := rfl

/-- a text is made of marks and of what is left when they are dropped -/
theorem marks_dropMarks (x : Char) (cs : List Char) : ∃ n, cs = marks x n ++ dropMarks x cs := by
  fun_induction dropMarks x cs with
  | case1 rest ih =>
    obtain ⟨n, hn⟩ := ih
    refine ⟨n + 1, ?_⟩
    rw [marks_succ, List.cons_append, List.cons_append, ← hn]
  | case2 c rest hc => exact ⟨0, rfl⟩
  | case3 cs hn => exact ⟨0, rfl⟩

theorem dropMarks_eq_self {x : Char} {cs : List Char} (h : ∀ rest, cs ≠ '0' :: x :: rest) :
    dropMarks x cs = cs := by
  fun_cases dropMarks x cs with
  | case1 rest => exact absurd rfl (h rest)
  | case2 c rest hc => rfl
  | case3 cs hn => rfl

theorem dropMarks_marks {x : Char} {cs : List Char} (n : Nat) (h : ∀ rest, cs ≠ '0' :: x :: rest) :
    dropMarks x (marks x n ++ cs) = cs := by
  induction n with
  | zero => exact dropMarks_eq_self h
  | succ n ih =>
    show dropMarks x ('0' :: x :: (marks x n ++ cs)) = cs
    rw [dropMarks, if_pos rfl]
    exact ih

/-- capital marks do not begin with a small one, if what is behind them does not -/
theorem capital_ne_small {cs : List Char} (h : ∀ rest, cs ≠ '0' :: 'x' :: rest) (n : Nat)
    (rest : List Char) : marks 'X' n ++ cs ≠ '0' :: 'x' :: rest := by
  cases n with
  | zero => exact h rest
  | succ n => exact fun he => absurd (List.cons.inj (List.cons.inj he).2).1 (by decide)

/-- the numbers of marks, and what is left behind them, are known from the text -/
theorem eq_of_marks_eq {x : Char} {a b : Nat} {cs ds : List Char}
    (hc : ∀ rest, cs ≠ '0' :: x :: rest) (hd : ∀ rest, ds ≠ '0' :: x :: rest)
    (h : marks x a ++ cs = marks x b ++ ds) : a = b ∧ cs = ds := by
  have hr : cs = ds := by rw [← dropMarks_marks a hc, h, dropMarks_marks b hd]
  have hl : ∀ n, (marks x n).length = 2 * n := by
    intro n
    induction n with
    | zero => rfl
    | succ n ih =>
      rw [marks_succ, List.length_cons, List.length_cons, ih]
      omega
  have hm : marks x a = marks x b := by
    rw [hr] at h
    exact List.append_cancel_right h
  have he : 2 * a = 2 * b := by rw [← hl a, hm, hl b]
  exact ⟨Nat.eq_of_mul_eq_mul_left (by omega) he, hr⟩

theorem keyDigits_split (cs : List Char) :
    ∃ a b, cs = marks 'x' a ++ (marks 'X' b ++ keyDigits cs) := by
  obtain ⟨a, ha⟩ := marks_dropMarks 'x' cs
  obtain ⟨b, hb⟩ := marks_dropMarks 'X' (dropMarks 'x' cs)
  exact ⟨a, b, by rw [keyDigits, ← hb, ← ha]⟩

/-! ## spellings -/

/-- a number as it may be written for a key: marks of both kinds, a plus sign or none, digits -/
structure Key.Spelling where
  smallMarks : Nat
  capitalMarks : Nat
  signed : Bool
  digits : List Char
  hexadecimal : Hexadecimal digits

namespace Key.Spelling

def sign (w : Spelling) : List Char := if w.signed then ['+'] else []

def text (w : Spelling) : String :=
  String.ofList (marks 'x' w.smallMarks ++ (marks 'X' w.capitalMarks ++ (w.sign ++ w.digits)))

def value (w : Spelling) : Nat := hexNumber w.digits

/-- what is left behind the marks does not begin with a mark -/
theorem unmarked (w : Spelling) {x : Char} (hx : hexValue? x = none) (rest : List Char) :
    w.sign ++ w.digits ≠ '0' :: x :: rest := by
  intro h
  unfold sign at h
  cases hs : w.signed with
  | true =>
    rw [hs] at h
    cases h
  | false =>
    have hd : w.digits = '0' :: x :: rest := by rwa [hs] at h
    have hm : x ∈ w.digits := by simp [hd]
    have hv := w.hexadecimal.digits x hm
    rw [hx] at hv
    cases hv

theorem not_hexValue?_x : hexValue? 'x' = none := by decide

theorem not_hexValue?_X : hexValue? 'X' = none := by decide

/-- nor do the capital marks begin with a small one -/
theorem unmarked_capital (w : Spelling) (rest : List Char) :
    marks 'X' w.capitalMarks ++ (w.sign ++ w.digits) ≠ '0' :: 'x' :: rest :=
  capital_ne_small (w.unmarked not_hexValue?_x) w.capitalMarks rest

theorem keyDigits_text (w : Spelling) : keyDigits w.text.toList = w.sign ++ w.digits := by
  rw [text, String.toList_ofList, keyDigits, dropMarks_marks _ w.unmarked_capital,
    dropMarks_marks _ (w.unmarked not_hexValue?_X)]

/-- **There is one way to take a text apart.** -/
theorem eq_of_text_eq {v w : Spelling} (h : v.text = w.text) : v = w := by
  obtain ⟨hs, hr⟩ := eq_of_marks_eq v.unmarked_capital w.unmarked_capital (String.ofList_inj.mp h)
  obtain ⟨hc, hd⟩ := eq_of_marks_eq (v.unmarked not_hexValue?_X) (w.unmarked not_hexValue?_X) hr
  obtain ⟨a, b, signed, ds, hx⟩ := v
  obtain ⟨a', b', signed', ds', hx'⟩ := w
  dsimp only at hs hc
  subst hs hc
  have hp : ∀ {ds : List Char}, Hexadecimal ('+' :: ds) → False :=
    fun h => absurd (h.digits '+' List.mem_cons_self) (by decide)
  cases signed with
  | true =>
    cases signed' with
    | true =>
      cases (List.cons.inj hd).2
      rfl
    | false =>
      have he : '+' :: ds = ds' := hd
      exact (hp (he ▸ hx')).elim
  | false =>
    cases signed' with
    | true =>
      have he : ds = '+' :: ds' := hd
      exact (hp (he ▸ hx)).elim
    | false =>
      have he : ds = ds' := hd
      subst he
      rfl

end Key.Spelling

/-! ## reading -/

/-- **What is read as a number is spelled, and its value is the number.** -/
theorem read_keyDigits_iff {text : String} {n : Nat} :
    read 16 255 (keyDigits text.toList) = .ok n ↔
      ∃ w : Key.Spelling, w.text = text ∧ w.value = n ∧ n ≤ 255 := by
  rw [read_ok_iff]
  constructor
  · rintro ⟨ds, hk, hx, hn⟩
    obtain ⟨a, b, hs⟩ := keyDigits_split text.toList
    obtain hk | hk := hk
    · refine ⟨⟨a, b, false, ds, hx⟩, ?_, hn⟩
      apply String.toList_inj.mp
      rw [Key.Spelling.text, String.toList_ofList, hs, hk]
      rfl
    · refine ⟨⟨a, b, true, ds, hx⟩, ?_, hn⟩
      apply String.toList_inj.mp
      rw [Key.Spelling.text, String.toList_ofList, hs, hk]
      rfl
  · rintro ⟨w, rfl, hn⟩
    refine ⟨w.digits, ?_, w.hexadecimal, hn⟩
    rw [w.keyDigits_text, Key.Spelling.sign]
    cases w.signed with
    | true => exact .inr rfl
    | false => exact .inl rfl

theorem read_keyDigits_empty_iff {text : String} :
    read 16 255 (keyDigits text.toList) = .error .empty ↔
      ∃ a b, text = String.ofList (marks 'x' a ++ marks 'X' b) := by
  rw [read_empty_iff]
  constructor
  · intro h
    obtain ⟨a, b, hs⟩ := keyDigits_split text.toList
    refine ⟨a, b, String.toList_inj.mp ?_⟩
    rw [String.toList_ofList, hs, h, List.append_nil]
  · rintro ⟨a, b, rfl⟩
    have hx := capital_ne_small (fun _ => (List.cons_ne_nil _ _).symm) b
    rw [← List.append_nil (marks 'X' b), String.toList_ofList, keyDigits, dropMarks_marks a hx]
    exact dropMarks_marks b nofun

/-! ## keys -/

namespace Key

theorem mapError_ok_iff {α ε δ : Type} {f : ε → δ} {result : Except ε α} {a : α} :
    result.mapError f = .ok a ↔ result = .ok a := by
  cases result with
  | ok b => rw [Except.mapError, Except.ok.injEq, Except.ok.injEq]
  | error e => exact iff_of_false nofun nofun

/-- a key, or what is said about a text that is none -/
def answer (text : String) : Except String Key := (ofText text).mapError KeyTextError.message

/-- the two complaints about a text are told apart -/
theorem reason_ne (text reason : String) :
    text ++ ": " ++ reason ≠ text ++ " is not a key of the hex keypad" := by
  rw [String.append_assoc, Ne, String.append_right_inj]
  intro h
  have hc := congrArg (fun s => s.toList.head?) h
  simp at hc

theorem answer_ok_iff {text : String} {k : Key} :
    answer text = .ok k ↔ read 16 255 (keyDigits text.toList) = .ok k.val := by
  unfold answer ofText
  cases hr : read 16 255 (keyDigits text.toList) with
  | error reason => exact iff_of_false nofun nofun
  | ok n =>
    dsimp only
    by_cases h : n < 16
    · rw [dif_pos h, mapError_ok_iff, Except.ok.injEq, Except.ok.injEq, Fin.ext_iff]
    · rw [dif_neg h]
      refine iff_of_false nofun fun he => h ?_
      rw [Except.ok.inj he]
      exact k.isLt

theorem answer_noSuchKey_iff {text : String} :
    answer text = .error (text ++ " is not a key of the hex keypad") ↔
      ∃ n, read 16 255 (keyDigits text.toList) = .ok n ∧ 16 ≤ n := by
  unfold answer ofText
  cases hr : read 16 255 (keyDigits text.toList) with
  | error reason =>
    refine iff_of_false (fun h => ?_) fun ⟨n, h, _⟩ => nomatch h
    exact reason_ne text reason.message (Except.error.inj h)
  | ok n =>
    dsimp only
    by_cases h : n < 16
    · rw [dif_pos h]
      refine iff_of_false nofun ?_
      rintro ⟨_, ⟨⟩, hn⟩
      omega
    · rw [dif_neg h]
      exact iff_of_true rfl ⟨n, rfl, Nat.not_lt.mp h⟩

theorem answer_reason_iff {text reason : String} :
    answer text = .error (text ++ ": " ++ reason) ↔
      ∃ e, read 16 255 (keyDigits text.toList) = .error e ∧ e.message = reason := by
  unfold answer ofText
  cases hr : read 16 255 (keyDigits text.toList) with
  | error e =>
    have hm : Except.mapError KeyTextError.message (Except.error (.unreadable text e) :
        Except KeyTextError Key) = .error (text ++ ": " ++ e.message) := rfl
    dsimp only
    rw [hm, Except.error.injEq, String.append_right_inj]
    constructor
    · intro h
      exact ⟨e, rfl, h⟩
    · rintro ⟨_, ⟨⟩, h⟩
      exact h
  | ok n =>
    dsimp only
    refine iff_of_false (fun h => ?_) fun ⟨e, h, _⟩ => nomatch h
    split at h
    · cases h
    · exact reason_ne text reason (Except.error.inj h).symm

theorem message_eq_iff {e : ReadError} :
    e.message = "cannot parse integer from empty string" ↔ e = .empty := by
  cases e <;> decide

/-- **The texts of keys, and what is said about all others.**  A text is a key if it is spelled with
a value up to 15, and it is then that key.  It is no key of the keypad if it is spelled with a larger
value, as far as a byte goes.  About every other text a reason is given, and that it is empty is the
reason just if there is nothing in it but marks.  No text is spelled in two ways. -/
theorem ofText_language (text : String) :
    (∀ k : Key, answer text = .ok k ↔ ∃ w : Spelling, w.text = text ∧ w.value = k.val) ∧
    (answer text = .error (text ++ " is not a key of the hex keypad") ↔
      ∃ w : Spelling, w.text = text ∧ 16 ≤ w.value ∧ w.value ≤ 255) ∧
    ((∃ reason, answer text = .error (text ++ ": " ++ reason)) ↔
      ¬ ∃ w : Spelling, w.text = text ∧ w.value ≤ 255) ∧
    (answer text = .error (text ++ ": " ++ "cannot parse integer from empty string") ↔
      ∃ a b, text = String.ofList (marks 'x' a ++ marks 'X' b)) ∧
    Function.Injective Spelling.text := by
  refine ⟨?_, ?_, ?_, ?_, fun v w => Spelling.eq_of_text_eq⟩
  · intro k
    have hk : k.val ≤ 255 := by omega
    rw [answer_ok_iff, read_keyDigits_iff]
    simp only [hk, and_true]
  · rw [answer_noSuchKey_iff]
    simp only [read_keyDigits_iff]
    constructor
    · rintro ⟨n, ⟨w, hw, rfl, hb⟩, hn⟩
      exact ⟨w, hw, hn, hb⟩
    · rintro ⟨w, hw, hn, hb⟩
      exact ⟨w.value, ⟨w, hw, rfl, hb⟩, hn⟩
  · have hs : (∃ w : Spelling, w.text = text ∧ w.value ≤ 255) ↔
        ∃ n, read 16 255 (keyDigits text.toList) = .ok n := by
      simp only [read_keyDigits_iff]
      constructor
      · rintro ⟨w, hw, hb⟩
        exact ⟨w.value, w, hw, rfl, hb⟩
      · rintro ⟨n, w, hw, rfl, hb⟩
        exact ⟨w, hw, hb⟩
    simp only [hs, answer_reason_iff]
    cases read 16 255 (keyDigits text.toList) with
    | ok n => exact iff_of_false (fun ⟨_, e, h, _⟩ => nomatch h) fun h => h ⟨n, rfl⟩
    | error e => exact iff_of_true ⟨_, e, rfl, rfl⟩ fun ⟨n, h⟩ => nomatch h
  · rw [answer_reason_iff, ← read_keyDigits_empty_iff]
    constructor
    · rintro ⟨e, he, hm⟩
      rw [he, message_eq_iff.mp hm]
    · intro h
      exact ⟨.empty, h, rfl⟩

/-- marks of both kinds, a sign and leading zeros are taken off; and 20 is no key -/
theorem ofText_language_zeros :
    answer "0x0X0X+000f" = .ok 0xF ∧
    answer "14" = .error ("14" ++ " is not a key of the hex keypad") := by
  have hf : Hexadecimal "000f".toList := ⟨by decide, List.all_eq_true.mp (by decide)⟩
  have hn : Hexadecimal "14".toList := ⟨by decide, List.all_eq_true.mp (by decide)⟩
  have hv : hexNumber "000f".toList = 15 := by decide
  have hw : 16 ≤ hexNumber "14".toList ∧ hexNumber "14".toList ≤ 255 := by decide
  obtain ⟨hk, -⟩ := ofText_language "0x0X0X+000f"
  obtain ⟨-, he, -⟩ := ofText_language "14"
  exact ⟨(hk 0xF).mpr ⟨⟨1, 2, true, _, hf⟩, rfl, hv⟩, he.mpr ⟨⟨0, 0, false, _, hn⟩, rfl, hw⟩⟩

end Key

end Chip8
