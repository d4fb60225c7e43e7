import Chip8.Proofs.Processor.Bounds

/-!
# Waiting for a key

A wait begins with the instruction for it, which leaves the program counter behind itself.  While it
lasts, steps do nothing, ticks and releases change what is outside; the first key pressed goes to
the waiting register and ends it, and the next step takes up the instruction behind.

* `Waits`                     a key is awaited for a register;
* `Waits.call`, `Waits.after`    what other calls than a press do to a wait;
* `Waits.press`               the press that ends it;
* `isPressed_after`           which keys are pressed;
* `key_wait_protocol`         all of it together.
-/

namespace Chip8

/-- no number but that of a pressed key is pressed -/
theorem Machine.isPressed_iff {m : Machine} {number : UInt8} :
    m.isPressed number = true ↔ ∃ k : Key, number.toNat = k.val ∧ m.isDown k = true := by
  unfold isPressed
  constructor
  · intro h
    by_cases hn : number.toNat < 16
    · rw [Vector.getElem?_eq_getElem hn] at h
      exact ⟨⟨number.toNat, hn⟩, rfl, h⟩
    · rw [Vector.getElem?_eq_none (Nat.not_lt.mp hn)] at h
      cases h
  · rintro ⟨k, hk, h⟩
    rw [hk, Vector.getElem?_eq_getElem k.isLt]
    exact h

theorem Instruction.destination_notPressed (m : Machine) (x : Register) :
    (skip (.notPressed x)).destination m =
      m.programCounter.toNat + if m.isPressed (m.register x) then 2 else 4 := by
  show m.programCounter.toNat + (if (!m.isPressed (m.register x)) = true then 4 else 2) = _
  cases m.isPressed (m.register x) with
  | false => rfl
  | true => rfl

namespace Processor

/-- the call presses a key -/
def Call.isPress : Call → Bool
  | .key _ pressed => pressed
  | _ => false

/-! ## the wait -/

/-- the processor waits for a key, whose number goes to the register -/
structure Waits (x : Register) (p : Processor) : Prop where
  running : p.halted = none
  awaiting : p.machine.awaiting = some x

variable {p q : Processor} {x : Register} {i : Instruction}

/-- the instruction changes nothing but that a key is awaited, and where execution goes on -/
theorem eq_of_awaitKey (h : p.step = (.executed (.awaitKey x), q)) :
    q = { p with machine := { p.machine with
      awaiting := some x, programCounter := p.machine.programCounter + 2 } } := by
  obtain ⟨-, flow, after, hx, rfl⟩ := step_executed h
  cases hx
  rfl

theorem waits_of_awaitKey (h : p.step = (.executed (.awaitKey x), q)) : Waits x q := by
  obtain ⟨-, -, hn⟩ := running_of_executed h
  rw [eq_of_awaitKey h] at hn ⊢
  exact ⟨hn, rfl⟩

namespace Waits

theorem step (h : Waits x p) : p.step = (.waiting, p) :=
  step_of_waiting h.running (by rw [isWaiting, h.awaiting]; rfl)

theorem facing (h : Waits x p) (o : Outside) : Waits x (p.facing o) := ⟨h.running, h.awaiting⟩

/-- what is answered while the wait lasts -/
def Answers (answer : Answer) : Prop :=
  answer = .stepped .waiting ∨ answer = .ticked ∨ answer = .keySet false

/-- **A wait lasts up to a press**, and only what is outside changes. -/
theorem call (h : Waits x p) {c : Call} (hr : c.isReset = false) (hc : c.isPress = false) :
    Answers (p.call c).1 ∧ ∃ o, (p.call c).2 = p.facing o := by
  cases c with
  | step =>
    show Answers (.stepped p.step.1) ∧ ∃ o, p.step.2 = p.facing o
    rw [h.step]
    exact ⟨.inl rfl, p.machine.outside, rfl⟩
  | tick => exact ⟨.inr (.inl rfl), p.machine.tickTimers.outside, rfl⟩
  | key k pressed =>
    obtain ⟨-, hs⟩ | ⟨y, -, hp, -⟩ := p.setKey_cases k pressed
    · show Answers (.keySet (p.setKey k pressed).1) ∧ ∃ o, (p.setKey k pressed).2 = p.facing o
      rw [hs]
      exact ⟨.inr (.inr rfl), (p.machine.setKey k pressed).outside, rfl⟩
    · exact absurd (hc.symm.trans hp) nofun
  | reset program => cases hr

theorem after (h : Waits x p) {calls : List Call}
    (hc : ∀ c ∈ calls, c.isReset = false ∧ c.isPress = false) :
    (∀ answer ∈ p.answers calls, Answers answer) ∧ ∃ o, p.after calls = p.facing o := by
  induction calls generalizing p with
  | nil => exact ⟨nofun, p.machine.outside, rfl⟩
  | cons c calls ih =>
    obtain ⟨hr, hp⟩ := hc c List.mem_cons_self
    obtain ⟨ha, o, ho⟩ := h.call hr hp
    have hw : Waits x (p.call c).2 := ho ▸ h.facing o
    obtain ⟨has, o', ho'⟩ := ih hw fun d hd => hc d (List.mem_cons_of_mem c hd)
    refine ⟨List.forall_mem_cons.mpr ⟨ha, has⟩, o', ?_⟩
    rw [after_cons, ho', ho, facing_facing]

/-- the processor behind the press that ends a wait -/
def pressed (x : Register) (k : Key) (p : Processor) : Processor :=
  { p with machine :=
    { p.machine.setKey k true with awaiting := none }.setRegister x (UInt8.ofNat k.val) }

/-- **The press that ends the wait.** -/
theorem press (h : Waits x p) (k : Key) : p.call (.key k true) = (.keySet true, pressed x k p) := by
  obtain ⟨hn, -⟩ | ⟨y, hy, -, hs⟩ := p.setKey_cases k true
  · rw [h.awaiting] at hn
    obtain hn | hn := hn <;> cases hn
  · cases h.awaiting.symm.trans hy
    rw [Processor.call, hs]
    rfl

end Waits

/-- a step on a running processor takes up the instruction at the program counter -/
theorem step_of_instructionAt (hh : p.halted = none) (hw : p.isWaiting = false)
    (hi : p.machine.instructionAt p.machine.programCounter.toNat = some i) :
    p.step.1 = .executed i ∨ ∃ fault, i.Refused p.machine fault ∧ p.step.1 = .faulted fault := by
  have hd : decodeNext p.machine = .ok i := decodeNext_ok_iff.mpr hi
  cases p.stepCase with
  | halted fault he hs => cases hh.symm.trans he
  | waiting hn hp hs => cases hw.symm.trans hp
  | faulted fault hn hp hpc hs =>
    have hf : p.step.1 = .faulted fault := congrArg Prod.fst hs
    exact .inr ⟨fault, ((step_faulted_iff hh hw).mp hf).refused_of_instructionAt hi, hf⟩
  | executed j flow after hn hp hdj hx hs =>
    left
    cases hd.symm.trans hdj
    rw [hs]

/-- behind the instruction that waits stands the one that is taken up when the wait is over -/
theorem step_behind_awaitKey {s : Processor} (h : p.step = (.executed (.awaitKey x), q))
    (hm : s.machine.memory = q.machine.memory)
    (hc : s.machine.programCounter = q.machine.programCounter) (hh : s.halted = none)
    (hw : s.isWaiting = false) :
    s.machine.programCounter = p.machine.programCounter + 2 ∧
    s.machine.programCounter.toNat = p.machine.programCounter.toNat + 2 ∧
    (∀ i, p.machine.instructionAt (p.machine.programCounter.toNat + 2) = some i →
      s.step.1 = .executed i ∨ ∃ fault, i.Refused s.machine fault ∧ s.step.1 = .faulted fault) ∧
    ∀ i, s.step.1 = .executed i →
      p.machine.instructionAt (p.machine.programCounter.toNat + 2) = some i := by
  have hq := eq_of_awaitKey h
  have hpm : s.machine.memory = p.machine.memory := by rw [hm, hq]
  have hpc : s.machine.programCounter = p.machine.programCounter + 2 := by rw [hc, hq]
  have hpn : s.machine.programCounter.toNat = p.machine.programCounter.toNat + 2 :=
    hc ▸ (step_destination h).2
  have hat : s.machine.instructionAt s.machine.programCounter.toNat =
      p.machine.instructionAt (p.machine.programCounter.toNat + 2) := by
    rw [hpn, Machine.instructionAt_congr hpm]
  rw [← hat]
  exact ⟨hpc, hpn, fun i hi => step_of_instructionAt hh hw hi,
    fun i hi => ((step_executed_iff hh hw).mp hi).1⟩

/-! ## the keys that are pressed -/

/-- **A key is pressed if it has been set so last**, since the last restart. -/
theorem isPressed_after {program : List UInt8} {g : Generator} (hp : load program g = .ok p)
    (calls : List Call) (number : UInt8) :
    (p.after calls).machine.isPressed number = true ↔
      ∃ k : Key, number.toNat = k.val ∧ Call.lastSet k calls = some true := by
  rw [Machine.isPressed_iff]
  refine exists_congr fun k => and_congr_right fun _ => ?_
  have hk : p.machine.isDown k = false := by
    rw [eq_start_of_load hp]
    exact Machine.isDown_ofProgram program k
  rw [isDown_after, hk, Bool.false_and]
  cases Call.lastSet k calls with
  | none => simp
  | some pressed => simp

theorem isPressed_of_behind {m : Machine} {number : UInt8} (h : 16 ≤ number.toNat) :
    m.isPressed number = false := by
  cases hp : m.isPressed number with
  | false => rfl
  | true =>
    obtain ⟨k, hk, -⟩ := Machine.isPressed_iff.mp hp
    exact absurd (hk ▸ k.isLt) (Nat.not_lt.mpr h)

/-! ## all of it -/

/-- **Waiting for a key, and asking for one.**  Behind the instruction that waits, whatever calls
there are up to the first press: steps answer that a key is awaited, no key is taken, and only keys
and timers change.  That press is taken: its number goes to the register, the wait is over, and the
next step takes up the instruction behind the one that has waited.

In a processor that has started with a program, the skips find a key pressed if it has been set so
last, since the last restart, and find no key with a number above 15 pressed. -/
theorem key_wait_protocol :
    (∀ (p q : Processor) (x : Register), p.step = (.executed (.awaitKey x), q) →
      ∀ (calls : List Call) (r : Processor),
        (∀ c ∈ calls, c.isReset = false ∧ c.isPress = false) → q.after calls = r →
        (∀ answer ∈ q.answers calls,
          answer = .stepped .waiting ∨ answer = .ticked ∨ answer = .keySet false) ∧
        r = q.facing r.machine.outside ∧
        r.step = (.waiting, r) ∧
        ∀ k : Key, ∃ s, r.call (.key k true) = (.keySet true, s) ∧
          s.machine = { r.machine.setKey k true with awaiting := none }.setRegister x
            (UInt8.ofNat k.val) ∧
          s.generator = r.generator ∧ s.halted = none ∧
          s.machine.programCounter = p.machine.programCounter + 2 ∧
          s.machine.programCounter.toNat = p.machine.programCounter.toNat + 2 ∧
          (∀ i, p.machine.instructionAt (p.machine.programCounter.toNat + 2) = some i →
            s.step.1 = .executed i ∨
              ∃ fault, i.Refused s.machine fault ∧ s.step.1 = .faulted fault) ∧
          ∀ i, s.step.1 = .executed i →
            p.machine.instructionAt (p.machine.programCounter.toNat + 2) = some i) ∧
    (∀ (program : List UInt8) (g : Generator) (p : Processor), load program g = .ok p →
      ∀ (calls : List Call) (q : Processor), p.after calls = q →
        (∀ number, q.machine.isPressed number = true ↔
          ∃ k : Key, number.toNat = k.val ∧ Call.lastSet k calls = some true) ∧
        (∀ number, 16 ≤ number.toNat → q.machine.isPressed number = false) ∧
        ∀ x r,
          (q.step = (.executed (.skip (.pressed x)), r) →
            r.machine.programCounter.toNat = q.machine.programCounter.toNat +
              if q.machine.isPressed (q.machine.register x) then 4 else 2) ∧
          (q.step = (.executed (.skip (.notPressed x)), r) →
            r.machine.programCounter.toNat = q.machine.programCounter.toNat +
              if q.machine.isPressed (q.machine.register x) then 2 else 4)) := by
  constructor
  · intro p q x hs calls r hc hr
    have hw := waits_of_awaitKey hs
    obtain ⟨ha, o, ho⟩ := hw.after hc
    have hrw : Waits x r := hr ▸ ho ▸ hw.facing o
    rw [hr] at ho
    refine ⟨ha, ?_, hrw.step, fun k => ⟨_, hrw.press k, rfl, rfl, hrw.running, ?_⟩⟩
    · rw [ho]
      rfl
    · refine step_behind_awaitKey hs ?_ ?_ hrw.running rfl
      · show r.machine.memory = q.machine.memory
        rw [ho]
        rfl
      · show r.machine.programCounter = q.machine.programCounter
        rw [ho]
        rfl
  · intro program g p hp calls q hq
    subst hq
    refine ⟨isPressed_after hp calls, fun number => isPressed_of_behind, fun x r => ⟨?_, ?_⟩⟩
    · intro hs
      exact (step_destination hs).2
    · intro hs
      exact (step_destination hs).2.trans (Instruction.destination_notPressed _ x)

/-- it waits for a key in `V0`, and then sets `V1` -/
def asking : List UInt8 := [0xF0, 0x0A, 0x61, 0x07]

def asker : Processor := start (Machine.ofProgram asking) (Generator.ofSeed 0)

/-- a key that is released does not end the wait, one that is pressed does -/
theorem key_wait_protocol_asker :
    asker.step.1 = .executed (.awaitKey 0) ∧
    (∃ s, (asker.step.2.after [.key 3 false, .step, .tick]).call (.key 5 true) = (.keySet true, s) ∧
      s.machine.awaiting = none ∧ s.step.1 = .executed (.setConstant 1 7)) ∧
    (asker.after [.key 5 true, .step, .key 3 false]).machine.isPressed 5 = true ∧
    (asker.after [.key 5 true, .step, .key 3 false]).machine.isPressed 0x15 = false := by
  have h : asker.step.1 = .executed (.awaitKey 0) ∧
      asker.machine.instructionAt 0x202 = some (.setConstant 1 7) := by decide +kernel
  have hl : load asking (Generator.ofSeed 0) = .ok asker := rfl
  obtain ⟨hs, hi⟩ := h
  have hw : asker.step = (.executed (.awaitKey 0), asker.step.2) := by rw [← hs]
  obtain ⟨-, -, -, hk⟩ := key_wait_protocol.1 _ _ _ hw [.key 3 false, .step, .tick] _
    (by decide) rfl
  obtain ⟨s, hc, hm, -, -, -, -, hn, -⟩ := hk 5
  obtain ⟨hp, hb, -⟩ := key_wait_protocol.2 _ _ _ hl [.key 5 true, .step, .key 3 false] _ rfl
  refine ⟨hs, ⟨s, hc, ?_, ?_⟩, (hp 5).mpr ⟨5, rfl, by decide⟩, hb 0x15 (by decide)⟩
  · rw [hm]
    rfl
  · obtain hx | ⟨fault, hr, -⟩ := hn _ hi
    · exact hx
    · exact absurd hr (Instruction.not_refused rfl nofun nofun)

end Processor

end Chip8
