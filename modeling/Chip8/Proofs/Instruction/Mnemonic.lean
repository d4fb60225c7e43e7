import Mathlib.Data.List.Basic
import Chip8.Proofs.Instruction.Operand

/-!
# Assembly text read back

A line of assembly is a name and operands.  No name has a blank in it and no operand a comma, so
the line comes apart at the first blank and behind it at the commas.  Many instructions share a name,
and many have operands of the same kinds; but those that take the same operands have different names.

* `operands?`, `reads_operands`                 the operands of a line;
* `Instruction.name`, `Instruction.operands`    the parts of a line;
* `Instruction.takers`                          the instructions that take some operands;
* `Instruction.ofText?`                         the assembler: the instruction for a line;
* `Instruction.reads`                           it reads just the texts of instructions;
* `Instruction.mnemonics_unambiguous`           so no two instructions have the same text.
-/

namespace Chip8

/-! ## the operands of a line -/

/-- the operands as they stand behind a name: each behind a blank, with commas between them -/
def operandChars : List Operand → List Char
  | [] => []
  | operands => [','].intercalate (operands.map fun o => ' ' :: o.chars)

/-- an operand behind a blank -/
def spaced? : List Char → Option Operand
  | ' ' :: cs => Operand.ofChars? cs
  | _ => none

def operands? (cs : List Char) : Option (List Operand) :=
  if cs = [] then some [] else (cs.splitOn ',').mapM spaced?

theorem reads_spaced : Reads spaced? fun o => ' ' :: o.chars := by
  intro cs o
  unfold spaced?
  split
  · next cs => rw [Operand.reads cs o, List.cons.injEq, and_iff_right rfl]
  · next h => exact iff_of_false nofun fun he => h _ he

theorem operandChars_of_ne_nil {operands : List Operand} (h : operands ≠ []) :
    operandChars operands = [','].intercalate (operands.map fun o => ' ' :: o.chars) := by
  cases operands with
  | nil => exact absurd rfl h
  | cons o rest => rfl

theorem operandChars_eq_cons {operands : List Operand} (h : operands ≠ []) :
    ∃ cs, operandChars operands = ' ' :: cs := by
  rw [operandChars_of_ne_nil h]
  cases operands with
  | nil => exact absurd rfl h
  | cons o rest =>
    cases rest with
    | nil => exact ⟨_, List.intercalate_singleton⟩
    | cons p rest => exact ⟨_, List.intercalate_cons_of_ne_nil (List.cons_ne_nil _ _)⟩

theorem reads_operands : Reads operands? operandChars := by
  intro cs operands
  have hs := reads_mapM reads_spaced
  unfold operands?
  constructor
  · intro h
    split at h
    · next he =>
      cases h
      exact he
    · have hm := (hs _ _).mp h
      -- a text that is cut up has at least one part
      have hne : operands ≠ [] := by
        rintro rfl
        exact List.splitOn_ne_nil ',' cs hm
      rw [operandChars_of_ne_nil hne, ← hm, List.intercalate_splitOn]
  · rintro rfl
    by_cases hne : operands = []
    · subst hne
      rfl
    · have hc : ∀ l ∈ operands.map fun o => ' ' :: o.chars, ',' ∉ l := by
        intro l hl
        obtain ⟨o, -, rfl⟩ := List.mem_map.mp hl
        exact List.not_mem_cons_of_ne_of_not_mem (by decide) o.comma_notMem_chars
      have hn : operandChars operands ≠ [] := by
        obtain ⟨cs, he⟩ := operandChars_eq_cons hne
        exact he ▸ List.cons_ne_nil _ _
      rw [if_neg hn, operandChars_of_ne_nil hne,
        List.splitOn_intercalate ',' hc (mt List.map_eq_nil_iff.mp hne)]
      exact (hs _ _).mpr rfl

/-- a blank in front and one behind every comma is a blank in front of every part -/
theorem cons_intercalate {α : Type} (blank comma : α) {parts : List (List α)} (h : parts ≠ []) :
    blank :: [comma, blank].intercalate parts = [comma].intercalate (parts.map (blank :: ·)) := by
  induction parts with
  | nil => exact absurd rfl h
  | cons part rest ih =>
    cases rest with
    | nil => rw [List.map_singleton, List.intercalate_singleton, List.intercalate_singleton]
    | cons next rest =>
      have hne : next :: rest ≠ [] := List.cons_ne_nil _ _
      rw [List.intercalate_cons_of_ne_nil hne, List.map_cons,
        List.intercalate_cons_of_ne_nil (mt List.map_eq_nil_iff.mp hne), ← ih hne]
      simp

theorem mnemonic_of_ne_nil {operands : List String} (h : operands ≠ []) (name : String) :
    mnemonic name operands = name ++ " " ++ ", ".intercalate operands := by
  cases operands with
  | nil => exact absurd rfl h
  | cons operand rest => rfl

theorem toList_mnemonic (name : String) (operands : List Operand) :
    (mnemonic name (operands.map Operand.text)).toList = name.toList ++ operandChars operands := by
  by_cases h : operands = []
  · subst h
    exact (List.append_nil _).symm
  · have ht : operands.map Operand.text ≠ [] := mt List.map_eq_nil_iff.mp h
    have hc : (operands.map Operand.text).map String.toList ≠ [] := mt List.map_eq_nil_iff.mp ht
    have hm : operands.map (fun o => ' ' :: o.chars) =
        ((operands.map Operand.text).map String.toList).map (' ' :: ·) := by
      simp only [List.map_map]
      rfl
    rw [operandChars_of_ne_nil h, hm, ← cons_intercalate ' ' ',' hc, mnemonic_of_ne_nil ht,
      String.toList_append, String.toList_append, String.toList_intercalate, List.append_assoc]
    rfl

/-! ## the parts of a line -/

def Condition.name : Condition → String
  | .equalsConstant _ _ | .equals _ _ => "SE"
  | .differsFromConstant _ _ | .differs _ _ => "SNE"
  | .pressed _ => "SKP"
  | .notPressed _ => "SKNP"

def Condition.operands : Condition → List Operand
  | .equalsConstant x constant | .differsFromConstant x constant => [.register x, .byte constant]
  | .equals x y | .differs x y => [.register x, .register y]
  | .pressed x | .notPressed x => [.register x]

namespace Instruction

/-- the word that the line of an instruction begins with -/
def name : Instruction → String
  | .systemJump _ => "SYS"
  | .clearScreen => "CLS"
  | .ret => "RET"
  | .jump _ | .jumpOffset _ => "JP"
  | .call _ => "CALL"
  | .skip condition => condition.name
  | .addConstant _ _ | .addIndex _ => "ADD"
  | .combine operation _ _ => operation.name
  | .shift direction _ => direction.name
  | .random _ _ => "RND"
  | .draw _ _ _ => "DRW"
  | .setConstant _ _ | .setIndex _ | .readDelay _ | .awaitKey _ | .setDelay _ | .setSound _
  | .pointAtGlyph _ | .storeDecimal _ | .storeRegisters _ | .loadRegisters _ => "LD"

def operands : Instruction → List Operand
  | .clearScreen | .ret => []
  | .systemJump target | .jump target | .call target => [.address target]
  | .jumpOffset address => [.register 0, .address address]
  | .skip condition => condition.operands
  | .setConstant x constant | .addConstant x constant | .random x constant =>
    [.register x, .byte constant]
  | .combine _ x y => [.register x, .register y]
  | .shift _ x => [.register x]
  | .setIndex address => [.keyword .index, .address address]
  | .addIndex x => [.keyword .index, .register x]
  | .draw x y rows => [.register x, .register y, .rows rows]
  | .readDelay x => [.register x, .keyword .delay]
  | .awaitKey x => [.register x, .keyword .key]
  | .setDelay x => [.keyword .delay, .register x]
  | .setSound x => [.keyword .sound, .register x]
  | .pointAtGlyph x => [.keyword .glyph, .register x]
  | .storeDecimal x => [.keyword .decimal, .register x]
  | .storeRegisters last => [.keyword .block, .register last]
  | .loadRegisters last => [.register last, .keyword .block]

theorem text_eq (i : Instruction) : i.text = mnemonic i.name (i.operands.map Operand.text) := by
  cases i with
  | skip condition => cases condition <;> rfl
  | _ => rfl

/-- no name has a blank in it -/
theorem blank_notMem_name (i : Instruction) : ' ' ∉ i.name.toList := by
  cases i with
  | skip condition => cases condition <;> simp [name, Condition.name]
  | combine operation x y => cases operation <;> simp [name, Arithmetic.name]
  | shift direction x => cases direction <;> simp [name, Shift.name]
  | _ => simp [name]

/-- the instructions that take these operands -/
def takers : List Operand → List Instruction
  | [] => [.clearScreen, .ret]
  | [.address a] => [.systemJump a, .jump a, .call a]
  | [.register x] =>
    [.shift .right x, .shift .left x, .skip (.pressed x), .skip (.notPressed x)]
  | [.register x, .byte b] =>
    [.skip (.equalsConstant x b), .skip (.differsFromConstant x b), .setConstant x b,
      .addConstant x b, .random x b]
  | [.register x, .register y] =>
    [.skip (.equals x y), .skip (.differs x y), .combine .copy x y, .combine .or x y,
      .combine .and x y, .combine .xor x y, .combine .add x y, .combine .subtract x y,
      .combine .subtractFrom x y]
  | [.register x, .address a] => if x = 0 then [.jumpOffset a] else []
  | [.register x, .register y, .rows n] => [.draw x y n]
  | [.register x, .keyword word] =>
    match word with
    | .delay => [.readDelay x]
    | .key => [.awaitKey x]
    | .block => [.loadRegisters x]
    | _ => []
  | [.keyword word, .register x] =>
    match word with
    | .index => [.addIndex x]
    | .delay => [.setDelay x]
    | .sound => [.setSound x]
    | .glyph => [.pointAtGlyph x]
    | .decimal => [.storeDecimal x]
    | .block => [.storeRegisters x]
    | .key => []
  | [.keyword .index, .address a] => [.setIndex a]
  | _ => []

theorem mem_takers_operands (i : Instruction) : i ∈ takers i.operands := by
  cases i with
  | skip condition => cases condition <;> simp [operands, Condition.operands, takers]
  | combine operation x y => cases operation <;> simp [operands, takers]
  | shift direction x => cases direction <;> simp [operands, takers]
  | _ => simp [operands, takers]

theorem operands_of_mem_takers {ops : List Operand} {i : Instruction} (h : i ∈ takers ops) :
    i.operands = ops := by
  suffices ha : ∀ i ∈ takers ops, i.operands = ops from ha i h
  fun_cases takers ops <;> simp_all [operands, Condition.operands]

/-- the instructions that take the same operands have different names -/
theorem nodup_names (ops : List Operand) : ((takers ops).map name).Nodup := by
  fun_cases takers ops <;>
    simp [name, Condition.name, Arithmetic.name, Shift.name]

/-! ## the assembler -/

/-- the instruction for a line of assembly -/
def ofText? (text : String) : Option Instruction :=
  let name := String.ofList (text.toList.takeWhile (· ≠ ' '))
  (operands? (text.toList.dropWhile (· ≠ ' '))).bind fun operands =>
    lookUp Instruction.name (takers operands) name

theorem toList_text (i : Instruction) :
    i.text.toList = i.name.toList ++ operandChars i.operands := by
  rw [text_eq, toList_mnemonic]

/-- the name and the operands of an instruction are told apart in its text -/
theorem takeWhile_text (i : Instruction) :
    i.text.toList.takeWhile (· ≠ ' ') = i.name.toList ∧
    i.text.toList.dropWhile (· ≠ ' ') = operandChars i.operands := by
  have hn : ∀ c ∈ i.name.toList, decide (c ≠ ' ') = true := by
    intro c hc
    exact decide_eq_true fun he => i.blank_notMem_name (he ▸ hc)
  rw [toList_text, List.takeWhile_append_of_pos hn, List.dropWhile_append_of_pos hn]
  by_cases hne : i.operands = []
  · rw [hne]
    exact ⟨List.append_nil _, rfl⟩
  · obtain ⟨cs, he⟩ := operandChars_eq_cons hne
    rw [he]
    exact ⟨List.append_nil _, rfl⟩

/-- **The assembler reads the texts of instructions**, each as its instruction, and nothing else. -/
theorem reads : Reads ofText? text := by
  intro line i
  unfold ofText?
  constructor
  · intro h
    obtain ⟨ops, ho, hl⟩ := Option.bind_eq_some_iff.mp h
    obtain ⟨hi, hn⟩ := (lookUp_eq_some_iff (nodup_names ops)).mp hl
    apply String.toList_inj.mp
    rw [toList_text, ← hn, operands_of_mem_takers hi, ← (reads_operands _ _).mp ho,
      String.toList_ofList, List.takeWhile_append_dropWhile]
  · rintro rfl
    obtain ⟨ht, hd⟩ := i.takeWhile_text
    rw [ht, hd, (reads_operands _ i.operands).mpr rfl, String.ofList_toList]
    exact (lookUp_eq_some_iff (nodup_names _)).mpr ⟨i.mem_takers_operands, rfl⟩

/-- **Mnemonics are unambiguous.**  No two instructions have the same text; the assembler takes the
text of every instruction back to it, and takes no other line.  The two jumps whose opcodes stand for
another instruction are told apart from it by their texts. -/
theorem mnemonics_unambiguous :
    (∀ i j : Instruction, i.text = j.text ↔ i = j) ∧
    (∀ (line : String) (i : Instruction), ofText? line = some i ↔ line = i.text) ∧
    ((systemJump 0x0E0).encode = clearScreen.encode ∧
      (systemJump 0x0E0).text ≠ clearScreen.text) ∧
    (systemJump 0x0EE).encode = ret.encode ∧ (systemJump 0x0EE).text ≠ ret.text := by
  refine ⟨fun i j => reads.injective.eq_iff, reads, ⟨?_, ?_⟩, ?_, ?_⟩
  · exact encode_of_mem (mem_homographs.mpr (.inl ⟨rfl, rfl⟩))
  · exact reads.injective.ne nofun
  · exact encode_of_mem (mem_homographs.mpr (.inr ⟨rfl, rfl⟩))
  · exact reads.injective.ne nofun

/-- lines with one name, and one that is none: a byte has two digits and its mark -/
example : ["LD V3, 0x0A", "LD I, 0x00A", "LD [I], VA", "LD VA, [I]", "LD V3, 10"].map ofText? =
    [some (.setConstant 3 10), some (.setIndex 10), some (.storeRegisters 10),
      some (.loadRegisters 10), none] := by decide

end Instruction

end Chip8
