import Chip8.Proofs.Processor.Answer
import Chip8.Proofs.Processor.Step

/-!
# The log of a list of calls

What a call does depends on the processor it finds.  The log of a list of calls has, for each of
them, the processor as it was found and the answer, so that what an instruction has read can be
read off it later.

* `Entry`, `log`            one call in the log, and the log of a list of calls;
* `Answer.executed?`        the instruction executed in a step;
* `Entry.sinceReset`        the log since the last reset that succeeded;
* `log_concat`, `Entry.sinceReset_concat`    both grow at the end;
* `call_same`               which calls leave a part of the processor alone.
-/

namespace Chip8.Processor

/-- a call as the log has it -/
structure Entry where
  found : Processor
  answer : Answer

def log (p : Processor) : List Call → List Entry
  | [] => []
  | c :: calls => ⟨p, (p.call c).1⟩ :: (p.call c).2.log calls

/-- the instruction that was executed in a step -/
def Answer.executed? : Answer → Option Instruction
  | .stepped (.executed i) => some i
  | _ => none

/-- the log since the last reset that succeeded, or all of it if none did -/
def Entry.sinceReset (log : List Entry) : List Entry :=
  log.rtakeWhile fun e => e.answer != .reset none

/-! ## logs grow at the end -/

theorem log_concat (p : Processor) (calls : List Call) (c : Call) :
    p.log (calls ++ [c]) = p.log calls ++ [⟨p.after calls, ((p.after calls).call c).1⟩] := by
  induction calls generalizing p with
  | nil => rfl
  | cons d calls ih =>
    rw [List.cons_append, log, ih, log, List.cons_append]
    rfl

theorem Entry.sinceReset_concat (log : List Entry) (e : Entry) :
    sinceReset (log ++ [e]) = if e.answer = .reset none then [] else sinceReset log ++ [e] := by
  unfold sinceReset
  rw [List.rtakeWhile_concat]
  by_cases h : e.answer = .reset none
  · simp [h]
  · simp [h]

/-- the last value of those that some elements of a list have, or else a given one -/
theorem getLast?_filterMap_concat {α β : Type} (f : α → Option β) (l : List α) (a : α) (b : β) :
    ((l ++ [a]).filterMap f).getLast?.getD b = (f a).getD ((l.filterMap f).getLast?.getD b) := by
  rw [List.filterMap_append]
  cases h : f a with
  | none => simp [h]
  | some value => simp [h]

theorem executed?_eq_some {answer : Answer} {i : Instruction} (h : answer.executed? = some i) :
    answer = .stepped (.executed i) := by
  unfold Answer.executed? at h
  split at h
  · cases h
    rfl
  · cases h

/-- only a step executes anything -/
theorem step_of_executed? {p : Processor} {c : Call} {i : Instruction}
    (h : (p.call c).1.executed? = some i) : c = .step ∧ p.step = (.executed i, p.step.2) := by
  cases c with
  | step =>
    have hi : Answer.stepped p.step.1 = .stepped (.executed i) := executed?_eq_some h
    exact ⟨rfl, Prod.ext (Answer.stepped.inj hi) rfl⟩
  | tick => cases h
  | key k pressed => cases h
  | reset program =>
    rw [call_reset] at h
    split at h
    · cases h
    · cases h

/-- a reset that succeeds is answered as such -/
theorem answer_eq_reset_iff {p : Processor} {c : Call} :
    (p.call c).1 = .reset none ↔ c.restarts = true := by
  cases c with
  | reset program =>
    rw [call_reset]
    cases (Call.reset program).restarts with
    | true => simp
    | false => simp
  | _ => simp [call, Call.restarts]

/-! ## what calls leave alone -/

/-- the parts that a tick of the timers and a key change -/
def Call.touches : Call → Part → Bool
  | .tick, .delayTimer | .tick, .soundTimer => true
  | .key .., .keys | .key .., .awaiting | .key .., .register _ => true
  | _, _ => false

/-- **A part is left alone by every call that does not restart**, unless it is one of those that a
tick or a key changes, or the instruction executed writes it. -/
theorem call_same {p : Processor} {c : Call} (part : Part) (hr : c.restarts = false)
    (ht : c.touches part = false)
    (hi : ∀ i, (p.call c).1.executed? = some i → i.writes part = false) :
    part.Same p.core (p.call c).2.core := by
  cases c with
  | step => exact step_same part fun i he => hi i (by rw [call, he]; rfl)
  | tick =>
    cases part with
    | delayTimer => cases ht
    | soundTimer => cases ht
    | _ => rfl
  | key k pressed =>
    refine setKey_same part k pressed ?_ ?_ ?_
    · rintro rfl
      cases ht
    · rintro rfl
      cases ht
    · rintro x rfl
      cases ht
  | reset program =>
    rw [call_reset, hr]
    exact Part.Same.refl

end Chip8.Processor
