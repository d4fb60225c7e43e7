import Chip8.Proofs.Processor.Await
import Chip8.Proofs.Runner.Thread
import Chip8.Proofs.Scheduler.Reset
import Chip8.Proofs.Scheduler.Timer

/-!
# A lull: rounds in which only the timers go on

A processor that waits for a key, or jumps to where it is, is left by a step as it was.  So long as
no message comes, a scheduler then does nothing but count its timers down, whatever the size of its
batches.  How many rounds have passed shows in the timers alone, and not at all once they are off.

* `Processor.InPlace`         execution does not get on;
* `Scheduler.retimed`         a scheduler with other timers, and the tone to go with them;
* `runCycles_inPlace`, `runTick_inPlace`    a batch does nothing, a round is a tick;
* `rounds_inPlace`            any number of rounds;
* `call_retimed`, `after_retimed`     messages do not read the timers;
* `idle_rounds_forgotten`     all of it together.
-/

namespace Chip8

/-! ## steps that lead nowhere -/

/-- a jump is never refused, tells nothing and does nothing else, in either spelling -/
theorem Instruction.jump_only {i : Instruction} {target : Address}
    (hi : i = .jump target ∨ i = .systemJump target) :
    i.execute = Action.jumpTo (UInt16.ofNat target.val) ∧ (∀ m fault, ¬ i.Refused m fault) ∧
      Scheduler.eventsOf i = [] ∧ Scheduler.redraws i = false := by
  rcases hi with rfl | rfl
  · exact ⟨rfl, fun m fault => not_refused rfl nofun nofun, rfl, rfl⟩
  · exact ⟨rfl, fun m fault => not_refused rfl nofun nofun, rfl, rfl⟩

namespace Processor
variable {p q : Processor} {i : Instruction}

/-- a key is awaited, or the next instruction jumps to where it is -/
structure InPlace (p : Processor) : Prop where
  running : p.halted = none
  stays : p.isWaiting = true ∨
    ∃ (target : Address) (i : Instruction), (i = .jump target ∨ i = .systemJump target) ∧
      target.val = p.machine.programCounter.toNat ∧
      p.machine.instructionAt p.machine.programCounter.toNat = some i

theorem eq_of_jump {target : Address} (hi : i = .jump target ∨ i = .systemJump target)
    (ht : target.val = p.machine.programCounter.toNat) (h : p.step = (.executed i, q)) : q = p := by
  obtain ⟨-, flow, after, hr, rfl⟩ := step_executed h
  have hpc : UInt16.ofNat target.val = p.machine.programCounter := by
    rw [ht]
    exact UInt16.ofNat_toNat
  rw [(Instruction.jump_only hi).1, hpc, Action.run_jumpTo] at hr
  cases hr
  rfl

/-- a step leaves everything as it was, and has nothing to tell -/
theorem InPlace.step (h : p.InPlace) :
    p.step = (.waiting, p) ∨ ∃ i, p.step = (.executed i, p) ∧
      Scheduler.eventsOf i = [] ∧ Scheduler.redraws i = false := by
  by_cases hw : p.isWaiting = true
  · exact .inl (step_of_waiting h.running hw)
  · obtain ⟨target, i, hi, ht, hat⟩ := h.stays.resolve_left hw
    obtain ⟨-, hn, he, hr⟩ := Instruction.jump_only hi
    have hx : p.step.1 = .executed i := by
      rcases step_of_instructionAt h.running (Bool.eq_false_iff.mpr hw) hat with
        hx | ⟨fault, hf, -⟩
      · exact hx
      · exact absurd hf (hn p.machine fault)
    have hs : p.step = (.executed i, p.step.2) := Prod.ext hx rfl
    have hq : p.step.2 = p := eq_of_jump hi ht hs
    rw [hq] at hs
    exact .inr ⟨i, hs, he, hr⟩

end Processor

namespace Scheduler
variable {s : Scheduler}

theorem toneChange_self (playing : Bool) : toneChange playing playing = [] := if_pos rfl

/-! ## a round -/

/-- a batch in which nothing gets on is empty, whatever its size -/
theorem Batch.run_inPlace {b : Batch} (hs : b.scheduler.Synced)
    (hp : b.scheduler.processor.InPlace) (n : Nat) : b.run n = (b, none) := by
  induction n with
  | zero => rfl
  | succ n ih =>
    rcases hp.step with h | ⟨i, h, he, hr⟩
    · rw [run, h]
    · -- such an instruction is on the record, but the record does not show it
      have hb : b.record i b.scheduler.processor = b := by
        rw [record_eq, ← hs, he, hr, toneChange_self, Bool.or_false]
        rfl
      rw [run, h]
      show (b.record i b.scheduler.processor).run n = _
      rw [hb, ih]

theorem runCycles_inPlace (hs : s.Synced) (hp : s.processor.InPlace) (n : Nat) :
    s.runCycles n = ⟨[], none, s⟩ := by
  have hb : Batch.run ⟨s, #[], false⟩ n = (⟨s, #[], false⟩, none) := Batch.run_inPlace hs hp n
  rw [runCycles, hb]
  rfl

/-- the scheduler with other timers, and with the tone as the speaker has been told -/
def retimed (s : Scheduler) (delay sound : UInt8) (playing : Bool) : Scheduler :=
  { s with
    processor := { s.processor with
      machine := { s.processor.machine with delayTimer := delay, soundTimer := sound } }
    tonePlaying := playing }

theorem retimed_self (s : Scheduler) :
    s = s.retimed s.processor.machine.delayTimer s.processor.machine.soundTimer s.tonePlaying := rfl

/-! ## any number of rounds -/

def delayLeft (s : Scheduler) : Nat := s.processor.machine.delayTimer.toNat

def soundLeft (s : Scheduler) : Nat := s.processor.machine.soundTimer.toNat

/-- the scheduler when its timers have been ticked `k` times and nothing else has happened -/
def waned (s : Scheduler) (k : Nat) : Scheduler :=
  s.retimed (UInt8.ofNat (s.delayLeft - k)) (UInt8.ofNat (s.soundLeft - k)) (k < s.soundLeft)

/-- what the speaker is told in `k` ticks, of a sound timer with so many left -/
def fading (left k : Nat) : List Event := if 0 < left ∧ left ≤ k then [.toneStopped] else []

theorem delayLeft_waned (s : Scheduler) (k : Nat) : (s.waned k).delayLeft = s.delayLeft - k :=
  UInt8.toNat_ofNat_of_lt' (Nat.lt_of_le_of_lt (Nat.sub_le _ _) (UInt8.toNat_lt _))

theorem soundLeft_waned (s : Scheduler) (k : Nat) : (s.waned k).soundLeft = s.soundLeft - k :=
  UInt8.toNat_ofNat_of_lt' (Nat.lt_of_le_of_lt (Nat.sub_le _ _) (UInt8.toNat_lt _))

theorem sounds_eq (s : Scheduler) : s.processor.sounds = decide (0 < s.soundLeft) := by
  have hz : s.processor.machine.soundTimer ≠ 0 ↔ s.soundLeft ≠ (0 : UInt8).toNat :=
    not_congr UInt8.toNat_inj.symm
  rw [Bool.eq_iff_iff, Processor.sounds_iff, hz, decide_eq_true_iff]
  exact Nat.pos_iff_ne_zero.symm

theorem waned_zero (hs : s.Synced) : s.waned 0 = s := by
  have hd : UInt8.ofNat (s.delayLeft - 0) = s.processor.machine.delayTimer := UInt8.ofNat_toNat
  have hn : UInt8.ofNat (s.soundLeft - 0) = s.processor.machine.soundTimer := UInt8.ofNat_toNat
  rw [waned, hd, hn, ← sounds_eq, ← hs]
  rfl

theorem waned_waned (s : Scheduler) (j k : Nat) : (s.waned j).waned k = s.waned (j + k) := by
  have hl : (k < s.soundLeft - j) = (j + k < s.soundLeft) := propext (by omega)
  rw [waned, delayLeft_waned, soundLeft_waned, Nat.sub_sub, Nat.sub_sub]
  simp only [hl]
  rfl

theorem synced_waned (s : Scheduler) (k : Nat) : (s.waned k).Synced := by
  have hl : (k < s.soundLeft) = (0 < s.soundLeft - k) := propext (by omega)
  rw [Synced, sounds_eq, soundLeft_waned]
  exact decide_eq_decide.mpr (Iff.of_eq hl)

theorem inPlace_waned (hp : s.processor.InPlace) (k : Nat) : (s.waned k).processor.InPlace :=
  ⟨hp.running, hp.stays⟩

/-- the speaker is told to stop when the last tick is through -/
theorem toneChange_left (left k : Nat) :
    toneChange (decide (0 < left)) (decide (0 < left - k)) = fading left k := by
  unfold fading
  by_cases hl : left ≤ k
  · have hz : decide (0 < left - k) = false := decide_eq_false (by omega)
    rw [hz]
    by_cases hp : 0 < left
    · rw [decide_eq_true hp, if_pos ⟨hp, hl⟩]
      rfl
    · rw [decide_eq_false hp, if_neg fun h => hp h.1]
      rfl
  · have hp : decide (0 < left) = true := decide_eq_true (by omega)
    have hz : decide (0 < left - k) = true := decide_eq_true (by omega)
    rw [hp, hz, if_neg fun h => hl h.2]
    rfl

/-- telling it tick by tick comes to the same -/
theorem fading_add (left j k : Nat) :
    fading left j ++ fading (left - j) k = fading left (j + k) := by
  unfold fading
  by_cases hj : 0 < left ∧ left ≤ j
  · rw [if_pos hj, if_neg (by omega), if_pos (by omega)]
    rfl
  · rw [if_neg hj, List.nil_append]
    exact if_congr (by omega) rfl rfl

/-- a tick of a scheduler whose speaker knows what is so -/
theorem tickTimers_synced (hs : s.Synced) :
    s.tickTimers = ⟨fading s.soundLeft 1, none, s.waned 1⟩ := by
  have hc : ∀ value : UInt8, Machine.countDown value = UInt8.ofNat (value.toNat - 1) := by
    intro value
    rw [← Timer.toNat_countDown, UInt8.ofNat_toNat]
  have hp : s.processor.tickTimers = (s.waned 1).processor := by
    rw [Processor.tickTimers, Machine.tickTimers, hc, hc]
    rfl
  have he : toneChange s.tonePlaying (s.waned 1).processor.sounds = fading s.soundLeft 1 := by
    rw [hs, sounds_eq, sounds_eq, soundLeft_waned, toneChange_left]
  rw [tickTimers_eq, hp, he, ← s.synced_waned 1]
  rfl

/-- **A round is a tick.** -/
theorem runTick_inPlace (hs : s.Synced) (hp : s.processor.InPlace) :
    s.runTick = ⟨fading s.soundLeft 1, none, s.waned 1⟩ := by
  rw [runTick_eq, runCycles_inPlace hs hp]
  dsimp only
  rw [tickTimers_synced hs, List.nil_append]

/-- **Rounds that lead nowhere**: none of them faults, they leave the timers that much lower, and
the speaker is told to stop if they have reached the end of the sound timer. -/
theorem rounds_inPlace (hs : s.Synced) (hp : s.processor.InPlace) (k : Nat) :
    (∀ r ∈ s.replies (List.replicate k .runTick), r.2.fault = none) ∧
      s.after (List.replicate k .runTick) = s.waned k ∧
      s.history (List.replicate k .runTick) = fading s.soundLeft k := by
  induction k generalizing s with
  | zero =>
    have hn : fading s.soundLeft 0 = [] := if_neg (by omega)
    rw [List.replicate_zero, replies, after, history, waned_zero hs, hn]
    exact ⟨fun r hr => absurd hr List.not_mem_nil, rfl, rfl⟩
  | succ k ih =>
    have hr : s.call .runTick = ⟨fading s.soundLeft 1, none, s.waned 1⟩ := runTick_inPlace hs hp
    -- behind the first round everything is as before it, with the timers one lower
    obtain ⟨hf, ha, he⟩ := ih (s.synced_waned 1) (inPlace_waned hp 1)
    rw [List.replicate_succ, replies, after, history, hr]
    refine ⟨List.forall_mem_cons.mpr ⟨rfl, hf⟩, ?_, ?_⟩
    · rw [ha, waned_waned, Nat.add_comm]
    · rw [he, soundLeft_waned, fading_add, Nat.add_comm]

/-! ## messages behind it -/

theorem setKey_retimed (s : Scheduler) (delay sound : UInt8) (playing : Bool) (k : Key)
    (pressed : Bool) : (s.retimed delay sound playing).setKey k pressed =
      (s.setKey k pressed).retimed delay sound playing := by
  unfold setKey Processor.setKey
  dsimp only [retimed, Machine.setKey]
  split
  · rfl
  · rfl

/-- a message takes other timers along, or does away with them -/
theorem call_retimed (s : Scheduler) (delay sound : UInt8) (playing : Bool) (message : Control) :
    ∃ delay' sound' playing', ((s.retimed delay sound playing).call message.call).scheduler =
      (s.call message.call).scheduler.retimed delay' sound' playing' := by
  cases message with
  | key k pressed => exact ⟨delay, sound, playing, s.setKey_retimed delay sound playing k pressed⟩
  | reset program =>
    -- of what was before, a fresh start keeps the generator and the pace
    rw [Control.call, call_reset, call_reset]
    split
    · exact ⟨_, _, _, retimed_self _⟩
    · exact ⟨delay, sound, playing, rfl⟩

theorem after_retimed (s : Scheduler) (delay sound : UInt8) (playing : Bool)
    (messages : List Control) :
    ∃ delay' sound' playing', (s.retimed delay sound playing).after (messages.map Control.call) =
      (s.after (messages.map Control.call)).retimed delay' sound' playing' := by
  induction messages generalizing s delay sound playing with
  | nil => exact ⟨delay, sound, playing, rfl⟩
  | cons message messages ih =>
    obtain ⟨delay', sound', playing', hc⟩ := s.call_retimed delay sound playing message
    obtain ⟨delay'', sound'', playing'', ha⟩ :=
      ih (s.call message.call).scheduler delay' sound' playing'
    refine ⟨delay'', sound'', playing'', ?_⟩
    rw [List.map_cons, after, after, hc, ha]

/-! ## all of it -/

/-- **Rounds that lead nowhere are silent, and are forgotten.**  Take a scheduler whose speaker
knows what is so, and whose processor waits for a key or jumps to where it is.  Of any number of
rounds, of any size, none faults; they lower both timers as far as zero, with the tone as it then
is, and change nothing else.  The speaker is told to stop if the sound timer was running and has run
down, and nothing is told otherwise.

So whatever messages come then, it does not matter how many rounds there were before, but for the
timers and the tone, and not at all when the timers had run down. -/
theorem idle_rounds_forgotten (hs : s.Synced) (hp : s.processor.InPlace) :
    let delay := s.processor.machine.delayTimer.toNat
    let sound := s.processor.machine.soundTimer.toNat
    let rounds := fun k => List.replicate k Call.runTick
    (∀ k,
      (∀ r ∈ s.replies (rounds k), r.2.fault = none) ∧
      s.after (rounds k) =
        s.retimed (UInt8.ofNat (delay - k)) (UInt8.ofNat (sound - k)) (decide (k < sound)) ∧
      s.history (rounds k) = if 0 < sound ∧ sound ≤ k then [.toneStopped] else []) ∧
    ∀ (messages : List Control) (k k' : Nat),
      let one := (s.after (rounds k)).after (messages.map Control.call)
      let other := (s.after (rounds k')).after (messages.map Control.call)
      (∃ delay' sound' playing', other = one.retimed delay' sound' playing') ∧
      (max delay sound ≤ k → max delay sound ≤ k' → other = one) := by
  intro delay sound rounds
  have ha : ∀ k, s.after (rounds k) = s.waned k := fun k => (rounds_inPlace hs hp k).2.1
  refine ⟨rounds_inPlace hs hp, ?_⟩
  intro messages k k' one other
  constructor
  · have hk : s.waned k' = (s.waned k).retimed _ _ _ := retimed_self (s.waned k')
    obtain ⟨delay', sound', playing', h⟩ := (s.waned k).after_retimed _ _ _ messages
    refine ⟨delay', sound', playing', ?_⟩
    show (s.after (rounds k')).after _ = ((s.after (rounds k)).after _).retimed _ _ _
    rw [ha, ha, hk, h]
  · intro hk hk'
    -- the messages find the same scheduler
    have hz : ∀ j, max delay sound ≤ j → s.waned j = s.retimed 0 0 false := by
      intro j hj
      have hd : s.delayLeft - j = 0 := Nat.sub_eq_zero_of_le (le_trans (Nat.le_max_left _ _) hj)
      have hn : s.soundLeft ≤ j := le_trans (Nat.le_max_right _ _) hj
      rw [waned, hd, Nat.sub_eq_zero_of_le hn, decide_eq_false (Nat.not_lt.mpr hn)]
      rfl
    show (s.after (rounds k')).after _ = (s.after (rounds k)).after _
    rw [ha, ha, hz k hk, hz k' hk']

/-- it sets the sound timer to two, and then jumps to where it is -/
def humming : List UInt8 := [0x60, 0x02, 0xF0, 0x18, 0x12, 0x04]

def hummer : Scheduler :=
  (start (.start (.ofProgram humming) (.ofSeed 0)) ⟨60, 8⟩).after [.runCycles 3]

theorem idle_rounds_forgotten_hummer :
    hummer.Synced ∧ hummer.processor.InPlace ∧
    hummer.history (List.replicate 1 .runTick) = [] ∧
    hummer.history (List.replicate 5 .runTick) = [.toneStopped] ∧
    (hummer.after (List.replicate 5 .runTick)).after [.key 3 true] =
      (hummer.after (List.replicate 2 .runTick)).after [.key 3 true] := by
  have hk : hummer.tonePlaying = hummer.processor.sounds ∧ hummer.processor.halted = none ∧
      hummer.processor.machine.programCounter.toNat = 0x204 ∧
      hummer.processor.machine.instructionAt 0x204 = some (.jump 0x204) ∧
      hummer.processor.machine.delayTimer.toNat = 0 ∧
      hummer.processor.machine.soundTimer.toNat = 2 := by
    decide +kernel
  obtain ⟨hs, hh, hc, hi, hd, hn⟩ := hk
  have hp : hummer.processor.InPlace := by
    refine ⟨hh, .inr ⟨0x204, .jump 0x204, .inl rfl, hc.symm, ?_⟩⟩
    rw [hc]
    exact hi
  have h := idle_rounds_forgotten hs hp
  dsimp only at h
  rw [hd, hn] at h
  obtain ⟨hr, hm⟩ := h
  obtain ⟨-, he⟩ := hm [.key 3 true] 2 5
  exact ⟨hs, hp, (hr 1).2.2, (hr 5).2.2, he (by decide) (by decide)⟩

end Scheduler

end Chip8
