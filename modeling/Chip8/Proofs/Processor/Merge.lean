import Mathlib.Logic.Function.Iterate
import Chip8.Proofs.Processor.Answer
import Chip8.Proofs.Processor.Outside
import Chip8.Proofs.Processor.Trace

/-!
# Ticks and keys anywhere between the steps

While no instruction heeds them, ticks and keys may come in any order between the steps.  The steps
then do what they do with no ticks and keys at all, the timers count the ticks, and the keys are as
they have been set last.

* `Quiet`                 no executed instruction heeds timers or keys;
* `run_facing`            calls against bare steps;
* `merges_agree`          calls against the same calls in another order.
-/

namespace Chip8.Processor

/-- none of the executed instructions heeds what is outside -/
def Quiet (outcomes : List Outcome) : Prop :=
  ∀ i, .executed i ∈ outcomes → i.heedsOutside = false

theorem quiet_cons {outcome : Outcome} {outcomes : List Outcome} :
    Quiet (outcome :: outcomes) ↔
      (∀ i, outcome = .executed i → i.heedsOutside = false) ∧ Quiet outcomes := by
  constructor
  · intro h
    exact ⟨fun i hi => h i (hi ▸ List.mem_cons_self), fun i hi => h i (List.mem_cons_of_mem _ hi)⟩
  · rintro ⟨h, ht⟩ i hi
    obtain he | hi := List.mem_cons.mp hi
    · exact h i he.symm
    · exact ht i hi

/-- the outcomes of bare steps -/
def stepOutcomes (p : Processor) (n : Nat) : List Outcome := p.outcomes (List.replicate n .step)

theorem stepOutcomes_succ (p : Processor) (n : Nat) :
    p.stepOutcomes (n + 1) = p.step.1 :: p.step.2.stepOutcomes n := rfl

variable {p : Processor} {calls : List Call}

/-- it is enough that one of the two instructions does not heed what is outside -/
theorem step_facing_of (hw : p.isWaiting = false) (o : Outside)
    (h : (∀ i, (p.facing o).step.1 = .executed i → i.heedsOutside = false) ∨
      ∀ i, p.step.1 = .executed i → i.heedsOutside = false) :
    (p.facing o).step = (p.step.1, p.step.2.facing o) ∧
      ∀ i, p.step.1 = .executed i → i.heedsOutside = false := by
  have hp : ∀ i, p.step.1 = .executed i → i.heedsOutside = false := by
    obtain h | h := h
    · have hwo : (p.facing o).isWaiting = false := hw
      have hs := step_facing hwo h p.machine.outside
      rw [facing_facing, facing_outside] at hs
      intro i hi
      refine h i ?_
      rw [hs] at hi
      exact hi
    · exact h
  exact ⟨step_facing hw hp o, hp⟩

/-- **Quiet calls against bare steps**, which may begin with other timers and keys. -/
theorem run_facing (hc : ∀ c ∈ calls, c.isReset = false) (hw : p.isWaiting = false) (o : Outside)
    (hq : Quiet ((p.facing o).outcomes calls) ∨ Quiet (p.stepOutcomes (calls.count .step))) :
    (p.facing o).outcomes calls = p.stepOutcomes (calls.count .step) ∧
    (p.facing o).after calls = (p.stepMany (calls.count .step)).facing
      ⟨Machine.countDown^[calls.count .tick] o.delayTimer,
        Machine.countDown^[calls.count .tick] o.soundTimer,
        ((p.facing o).after calls).machine.keys⟩ := by
  induction calls generalizing p o with
  | nil => exact ⟨rfl, rfl⟩
  | cons c calls ih =>
    have hcs : ∀ d ∈ calls, d.isReset = false := fun d hd => hc d (List.mem_cons_of_mem c hd)
    cases c with
    | step =>
      rw [List.count_cons_self, outcomes_step, stepOutcomes_succ, quiet_cons, quiet_cons] at hq
      obtain ⟨hs, hi⟩ := step_facing_of hw o (hq.imp And.left And.left)
      rw [hs] at hq
      obtain ⟨ho, ha⟩ := ih hcs (isWaiting_step hw hi) o (hq.imp And.right And.right)
      have hc : ((p.facing o).call .step).2 = p.step.2.facing o := congrArg Prod.snd hs
      rw [List.count_cons_self, outcomes_step, stepOutcomes_succ, after_cons, hc, hs, ho]
      exact ⟨rfl, ha⟩
    | tick =>
      have hn : (Call.tick :: calls).count .step = calls.count .step :=
        List.count_cons_of_ne (by nofun)
      rw [hn] at hq ⊢
      rw [List.count_cons_self]
      exact ih hcs hw (p.facing o).machine.tickTimers.outside hq
    | key k pressed =>
      have hn : (Call.key k pressed :: calls).count .step = calls.count .step :=
        List.count_cons_of_ne (by nofun)
      have ht : (Call.key k pressed :: calls).count .tick = calls.count .tick :=
        List.count_cons_of_ne (by nofun)
      have hk : ((p.facing o).call (.key k pressed)).2 =
          p.facing ((p.facing o).machine.setKey k pressed).outside :=
        congrArg Prod.snd (setKey_of_running (p := p.facing o) hw k pressed)
      have ho : (p.facing o).outcomes (.key k pressed :: calls) =
        ((p.facing o).call (.key k pressed)).2.outcomes calls := rfl
      rw [hn, ho, hk] at hq
      rw [hn, ht, after_cons, ho, hk]
      exact ih hcs hw _ hq
    | reset program => exact absurd (hc _ List.mem_cons_self) nofun

/-- the keys depend on the order of the settings of each key alone -/
theorem keys_eq_of_filterMap_eq {a b : List Call} (ha : ∀ c ∈ a, c.isReset = false)
    (hb : ∀ c ∈ b, c.isReset = false)
    (hk : ∀ k, a.filterMap (Call.keyOf? k) = b.filterMap (Call.keyOf? k)) :
    (p.after a).machine.keys = (p.after b).machine.keys := by
  refine Vector.ext fun i hi => ?_
  have hka := p.isDown_after_of_isReset ha ⟨i, hi⟩
  have hkb := p.isDown_after_of_isReset hb ⟨i, hi⟩
  rw [hk] at hka
  exact hka.trans hkb.symm

/-- **The order of ticks and keys between the steps does not matter**, if in one of the two runs no
executed instruction heeds them: every step answers the same, and the processors at the end are
equal. -/
theorem merges_agree (hw : p.isWaiting = false) {a b : List Call}
    (ha : ∀ c ∈ a, c.isReset = false) (hb : ∀ c ∈ b, c.isReset = false)
    (hs : a.count .step = b.count .step) (ht : a.count .tick = b.count .tick)
    (hk : ∀ k, a.filterMap (Call.keyOf? k) = b.filterMap (Call.keyOf? k))
    (hq : Quiet (p.outcomes a) ∨ Quiet (p.outcomes b)) :
    p.outcomes a = p.outcomes b ∧ p.after a = p.after b := by
  have hqs : Quiet (p.stepOutcomes (a.count .step)) := by
    obtain hq | hq := hq
    · exact (run_facing ha hw p.machine.outside (.inl hq)).1 ▸ hq
    · exact hs ▸ (run_facing hb hw p.machine.outside (.inl hq)).1 ▸ hq
  obtain ⟨hoa, haa⟩ := run_facing ha hw p.machine.outside (.inr hqs)
  obtain ⟨hob, hab⟩ := run_facing hb hw p.machine.outside (.inr (hs ▸ hqs))
  rw [facing_outside] at hoa haa hob hab
  rw [hoa, hob, haa, hab, hs, ht, keys_eq_of_filterMap_eq ha hb hk]
  exact ⟨rfl, rfl⟩

/-- a machine that is about to count once, and then to fault at an opcode of no instruction -/
def counting : Processor :=
  start { Machine.ofProgram [] with
    memory := Memory.zeros.write Memory.programStart [0x70, 0x01, 0xFF, 0xFF], delayTimer := 1 }
    (Generator.ofSeed 0)

def ticksFirst : List Call := [.tick, .step, .key 3 true, .step, .key 3 false]

def ticksLast : List Call := [.key 3 true, .step, .step, .key 3 false, .tick]

theorem merges_agree_counting :
    counting.outcomes ticksFirst =
      [.executed (.addConstant 0 1), .faulted (.unknownOpcode 0xFFFF 0x202)] ∧
    counting.outcomes ticksFirst = counting.outcomes ticksLast ∧
    counting.after ticksFirst = counting.after ticksLast := by
  have ho : counting.outcomes ticksFirst =
      [.executed (.addConstant 0 1), .faulted (.unknownOpcode 0xFFFF 0x202)] := by decide +kernel
  have hq : Quiet (counting.outcomes ticksFirst) := by
    rw [ho]
    intro i hi
    simp only [List.mem_cons, Outcome.executed.injEq, reduceCtorEq, List.not_mem_nil, or_self,
      or_false] at hi
    rw [hi]
    rfl
  exact ⟨ho, merges_agree rfl (by decide) (by decide) rfl rfl (by decide) (.inl hq)⟩

end Chip8.Processor
