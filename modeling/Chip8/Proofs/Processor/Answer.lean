import Mathlib.Data.List.DropRight
import Chip8.Proofs.Processor.Call

/-!
# Answers: what a list of calls is told

* `answers`             what the calls answer, in order;
* `outcomes`            the outcomes of the steps among them;
* `Answer.sinceReset`   the answers behind the last reset that succeeded;
* `answers_concat`, `Answer.sinceReset_concat`    both grow at the end.
-/

namespace Chip8.Processor

def answers (p : Processor) : List Call → List Answer
  | [] => []
  | c :: calls => (p.call c).1 :: (p.call c).2.answers calls

def Answer.outcome? : Answer → Option Outcome
  | .stepped outcome => some outcome
  | _ => none

/-- the outcomes of the steps among the calls -/
def outcomes (p : Processor) (calls : List Call) : List Outcome :=
  (p.answers calls).filterMap Answer.outcome?

/-- the answers behind the last reset that succeeded, or all of them if none did -/
def Answer.sinceReset (answers : List Answer) : List Answer :=
  answers.rtakeWhile (· != .reset none)

theorem answers_concat (p : Processor) (calls : List Call) (c : Call) :
    p.answers (calls ++ [c]) = p.answers calls ++ [((p.after calls).call c).1] := by
  induction calls generalizing p with
  | nil => rfl
  | cons d calls ih =>
    rw [List.cons_append, answers, ih, answers, List.cons_append]
    rfl

theorem Answer.sinceReset_concat (answers : List Answer) (answer : Answer) :
    sinceReset (answers ++ [answer]) =
      if answer = .reset none then [] else sinceReset answers ++ [answer] := by
  unfold sinceReset
  rw [List.rtakeWhile_concat]
  by_cases h : answer = .reset none
  · simp [h]
  · simp [h]

theorem outcomes_step (p : Processor) (calls : List Call) :
    p.outcomes (.step :: calls) = p.step.1 :: p.step.2.outcomes calls := rfl

end Chip8.Processor
