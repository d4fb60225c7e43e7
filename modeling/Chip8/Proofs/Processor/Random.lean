import Chip8.Proofs.Machine.Random
import Chip8.Proofs.Processor.Log
import Chip8.Proofs.Processor.Overlook

/-!
# Random bytes over a list of calls

The generator of a processor is a stream of bytes, and the calls take them one after the other, each
by an instruction that is executed and nothing else.  What a mask hides of a byte is not seen by
anybody, so a generator with the same bytes behind the masks would have led to the same answers and
the same machines.

* `masks`                  the masks of the bytes that the calls take, in order;
* `generator_after`        a byte has been taken for every mask;
* `Generator.Alike`        two generators with the same bytes behind some masks;
* `call_withGenerator`, `after_withGenerator`    a processor with the other generator does the same;
* `random_bytes_exact`     all of it together.
-/

namespace Chip8

/-- the bytes of the generators are the same behind the masks, one after the other -/
def Generator.Alike (g g' : Generator) (masks : List UInt8) : Prop :=
  ∀ k mask, masks[k]? = some mask → g.upcoming k &&& mask = g'.upcoming k &&& mask

namespace Generator.Alike
variable {g g' : Generator} {a b : List UInt8}

theorem left (h : g.Alike g' (a ++ b)) : g.Alike g' a := by
  intro k mask hk
  have hl : k < a.length := (List.getElem?_eq_some_iff.mp hk).1
  exact h k mask ((List.getElem?_append_left hl).trans hk)

theorem right (h : g.Alike g' (a ++ b)) : (g.skip a.length).Alike (g'.skip a.length) b := by
  intro k mask hk
  rw [upcoming_skip, upcoming_skip]
  refine h (a.length + k) mask ?_
  rw [List.getElem?_append_right (Nat.le_add_right _ _), Nat.add_sub_cancel_left]
  exact hk

theorem of_zero (h : ∀ mask ∈ a, mask = 0) : g.Alike g' a := by
  intro k mask hk
  rw [h mask (List.mem_of_getElem? hk), UInt8.and_zero, UInt8.and_zero]

end Generator.Alike

namespace Processor
open Chip8.Action

/-- the processor with another generator -/
def withGenerator (p : Processor) (g : Generator) : Processor := { p with generator := g }

/-- the mask of the random byte that has been taken in a step -/
def Answer.mask? (answer : Answer) : Option UInt8 := answer.executed?.bind Instruction.mask?

/-- the masks of the random bytes that the calls take -/
def masks (p : Processor) (calls : List Call) : List UInt8 :=
  (p.answers calls).filterMap Answer.mask?

variable {p q : Processor}

theorem masks_cons (p : Processor) (c : Call) (calls : List Call) :
    p.masks (c :: calls) = (p.call c).1.mask?.toList ++ (p.call c).2.masks calls := by
  unfold masks
  rw [answers, List.filterMap_cons]
  cases (p.call c).1.mask? with
  | none => rfl
  | some mask => rfl

theorem masks_append (p : Processor) (a b : List Call) :
    p.masks (a ++ b) = p.masks a ++ (p.after a).masks b := by
  induction a generalizing p with
  | nil => rfl
  | cons c a ih => rw [List.cons_append, masks_cons, masks_cons, ih, List.append_assoc, after_cons]

/-! ## bytes are counted -/

theorem step_random {x : Register} {mask : UInt8} (h : p.step = (.executed (.random x mask), q)) :
    q = { p with
      machine := (p.machine.setRegister x (p.generator.upcoming 0 &&& mask)).proceed .next
      generator := p.generator.skip 1 } := by
  obtain ⟨-, flow, after, hx, rfl⟩ := step_executed h
  rw [Instruction.run_execute_random] at hx
  cases hx
  rfl

theorem step_of_mask? {c : Call} {mask : UInt8} (h : (p.call c).1.mask? = some mask) :
    c = .step ∧ ∃ x, p.step = (.executed (.random x mask), p.step.2) := by
  obtain ⟨i, he, hm⟩ := Option.bind_eq_some_iff.mp h
  obtain ⟨x, rfl⟩ := Instruction.eq_of_mask? hm
  obtain ⟨hc, hs⟩ := step_of_executed? he
  exact ⟨hc, x, hs⟩

theorem writes_generator {i : Instruction} (h : i.mask? = none) : i.writes .generator = false := by
  cases i with
  | random x mask => cases h
  | combine operation x y => exact writes_combine .generator nofun operation x y
  | _ => rfl

/-- **A call takes a random byte just if its answer tells a mask**; a reset takes none. -/
theorem generator_call (p : Processor) (c : Call) :
    (p.call c).2.generator = p.generator.skip (p.call c).1.mask?.toList.length := by
  cases hm : (p.call c).1.mask? with
  | some mask =>
    obtain ⟨rfl, x, hs⟩ := step_of_mask? hm
    show p.step.2.generator = _
    rw [step_random hs]
    rfl
  | none =>
    cases hr : c.restarts with
    | true =>
      cases c with
      | reset program => rw [call_reset, hr]; rfl
      | _ => cases hr
    | false =>
      have ht : c.touches .generator = false := by cases c <;> rfl
      exact call_same .generator hr ht fun i hi => writes_generator (by
        rw [Answer.mask?, hi] at hm
        exact hm)

theorem generator_after (p : Processor) (calls : List Call) :
    (p.after calls).generator = p.generator.skip (p.masks calls).length := by
  induction calls generalizing p with
  | nil => rfl
  | cons c calls ih =>
    rw [after_cons, ih, generator_call, Generator.skip_skip, masks_cons, List.length_append]

/-! ## the same with another generator -/

/-- a step that would take no byte -/
theorem step_drawless (h : ∀ i, decodeNext p.machine = .ok i → i.mask? = none) (g : Generator) :
    (p.withGenerator g).step = (p.step.1, p.step.2.withGenerator g) :=
  step_changed (g := fun core => { core with generator := g }) rfl fun _ _ =>
    executeNext_changed (aside_generator g) p.core rfl fun i hd =>
      i.execute_drawless (h i hd) p.machine p.generator g

/-- a step that takes one -/
theorem step_drawing {x : Register} {mask : UInt8} (hh : p.halted = none)
    (hw : p.isWaiting = false) (hd : decodeNext p.machine = .ok (.random x mask)) :
    p.step = (.executed (.random x mask), { p with
      machine := (p.machine.setRegister x (p.generator.upcoming 0 &&& mask)).proceed .next
      generator := p.generator.skip 1 }) := by
  have hc : decodeNext p.core.machine = .ok (.random x mask) := hd
  rw [step_of_running hh hw, run_executeNext, hc]
  dsimp only
  rw [Instruction.run_execute_random]
  rfl

theorem mask?_of_drawing {x : Register} {mask : UInt8} (hh : p.halted = none)
    (hw : p.isWaiting = false) (hd : decodeNext p.machine = .ok (.random x mask)) :
    (p.call .step).1.mask? = some mask := by
  rw [call, step_drawing hh hw hd]
  rfl

theorem step_withGenerator (p : Processor) (g : Generator)
    (h : p.generator.Alike g (p.call .step).1.mask?.toList) :
    (p.withGenerator g).step =
      (p.step.1, p.step.2.withGenerator (g.skip (p.call .step).1.mask?.toList.length)) := by
  cases hh : p.halted with
  | some fault =>
    have hho : (p.withGenerator g).halted = some fault := hh
    rw [call, step_of_halted hh, step_of_halted hho]
    rfl
  | none =>
    have hho : (p.withGenerator g).halted = none := hh
    cases hw : p.isWaiting with
    | true =>
      have hwo : (p.withGenerator g).isWaiting = true := hw
      rw [call, step_of_waiting hh hw, step_of_waiting hho hwo]
      rfl
    | false =>
      cases hm : (p.call .step).1.mask? with
      | some mask =>
        obtain ⟨-, x, hs⟩ := step_of_mask? hm
        have hd := (step_executed hs).1
        have hg : (p.withGenerator g).step = _ := step_drawing hho hw hd
        rw [hm] at h
        -- the two bytes may differ, but not behind the mask
        have hb : p.generator.upcoming 0 &&& mask = g.upcoming 0 &&& mask := h 0 mask rfl
        rw [step_drawing hh hw hd, hg, hb]
        rfl
      | none =>
        refine step_drawless (fun i hi => ?_) g
        cases hi' : i.mask? with
        | none => rfl
        | some mask =>
          obtain ⟨x, rfl⟩ := Instruction.eq_of_mask? hi'
          cases hm.symm.trans (mask?_of_drawing hh hw hi)

theorem setKey_withGenerator (p : Processor) (g : Generator) (k : Key) (pressed : Bool) :
    (p.withGenerator g).setKey k pressed =
      ((p.setKey k pressed).1, (p.setKey k pressed).2.withGenerator g) := by
  unfold setKey
  dsimp only [withGenerator]
  split
  · rfl
  · rfl

/-- **What the masks hide is not seen**: the call does the same with the other generator. -/
theorem call_withGenerator (p : Processor) (g : Generator) (c : Call)
    (h : p.generator.Alike g (p.call c).1.mask?.toList) :
    (p.withGenerator g).call c =
      ((p.call c).1, (p.call c).2.withGenerator (g.skip (p.call c).1.mask?.toList.length)) := by
  cases c with
  | step =>
    rw [call, step_withGenerator p g h]
    rfl
  | tick => rfl
  | key k pressed =>
    rw [call, setKey_withGenerator]
    rfl
  | reset program =>
    rw [call_reset, call_reset]
    split
    · rfl
    · rfl

theorem after_withGenerator (p : Processor) (g : Generator) (calls : List Call)
    (h : p.generator.Alike g (p.masks calls)) :
    (p.withGenerator g).answers calls = p.answers calls ∧
      (p.withGenerator g).after calls =
        (p.after calls).withGenerator (g.skip (p.masks calls).length) := by
  induction calls generalizing p g with
  | nil => exact ⟨rfl, rfl⟩
  | cons c calls ih =>
    rw [masks_cons] at h
    have hc := call_withGenerator p g c h.left
    -- what is left of both streams is alike for the masks that are left
    have hr := h.right
    rw [← generator_call] at hr
    obtain ⟨ha, hp⟩ := ih _ _ hr
    rw [answers, answers, after_cons, after_cons, hc, masks_cons, List.length_append,
      ← Generator.skip_skip]
    exact ⟨congrArg _ ha, hp⟩

/-- the other processor answers the same to the calls, and has the same machine all along -/
structure SameRun (p q : Processor) (calls : List Call) : Prop where
  answers : q.answers calls = p.answers calls
  machine (part : List Call) (hp : part <+: calls) :
    (q.after part).machine = (p.after part).machine
  halted (part : List Call) (hp : part <+: calls) : (q.after part).halted = (p.after part).halted

theorem sameRun_of_alike {calls : List Call} (hm : q.machine = p.machine)
    (hh : q.halted = p.halted) (h : p.generator.Alike q.generator (p.masks calls)) :
    SameRun p q calls := by
  have hq : q = p.withGenerator q.generator := by
    cases q
    cases hm
    cases hh
    rfl
  have hb : ∀ part, part <+: calls → ∃ g, q.after part = (p.after part).withGenerator g := by
    rintro part ⟨rest, rfl⟩
    rw [masks_append] at h
    rw [hq]
    exact ⟨_, (after_withGenerator p q.generator part h.left).2⟩
  refine ⟨?_, fun part hp => ?_, fun part hp => ?_⟩
  · rw [hq]
    exact (after_withGenerator p q.generator calls h).1
  · obtain ⟨g, hg⟩ := hb part hp
    rw [hg]
    rfl
  · obtain ⟨g, hg⟩ := hb part hp
    rw [hg]
    rfl

/-- **Random bytes are taken and seen by one instruction only.**  Whatever the calls: a byte of the
stream has been taken for each such instruction executed; the next one gets the byte whose number
is the count of those before it, behind its mask, and moves the stream on by one; no other call
moves it.  And a processor that differs in the generator alone, with the same bytes behind the
masks of this run, answers the same and has the same machine all along; so it does with any bytes if
all the masks are zero. -/
theorem random_bytes_exact (p : Processor) (calls : List Call) :
    (p.after calls).generator = p.generator.skip (p.masks calls).length ∧
    (∀ x mask, (p.after calls).step.1 = .executed (.random x mask) →
      (p.after calls).step.2.machine.register x =
        p.generator.upcoming (p.masks calls).length &&& mask ∧
      (p.after calls).step.2.generator = (p.after calls).generator.skip 1) ∧
    (∀ c, (∀ x mask, ((p.after calls).call c).1 ≠ .stepped (.executed (.random x mask))) →
      ((p.after calls).call c).2.generator = (p.after calls).generator) ∧
    ∀ q : Processor, q.machine = p.machine → q.halted = p.halted →
      (p.generator.Alike q.generator (p.masks calls) → SameRun p q calls) ∧
      ((∀ mask ∈ p.masks calls, mask = 0) → SameRun p q calls) := by
  have hg := p.generator_after calls
  refine ⟨hg, fun x mask hx => ?_, fun c hn => ?_, fun q hm hh => ⟨?_, fun hz => ?_⟩⟩
  · have hs : (p.after calls).step = (.executed (.random x mask), (p.after calls).step.2) :=
      Prod.ext hx rfl
    rw [step_random hs, hg, Generator.upcoming_skip]
    refine ⟨?_, rfl⟩
    exact Vector.getElem_set_self x.isLt
  · have hc : ((p.after calls).call c).1.mask? = none := by
      cases ho : ((p.after calls).call c).1.mask? with
      | none => rfl
      | some mask =>
        obtain ⟨rfl, x, hs⟩ := step_of_mask? ho
        exact absurd (congrArg (Answer.stepped ∘ Prod.fst) hs) (hn x mask)
    rw [generator_call, hc]
    rfl
  · exact sameRun_of_alike hm hh
  · exact sameRun_of_alike hm hh (.of_zero hz)

/-- draws behind the mask `0x0F`, and with another program behind `0xF0` -/
def drawer : Processor :=
  start (Machine.ofProgram [0xC0, 0x0F]) ⟨fun k => if k = 0 then 0xA5 else 0x3C, 0⟩

/-- the same bytes behind the masks -/
def otherStream : Generator := ⟨fun k => if k = 0 then 0x05 else 0x31, 0⟩

def drawerCalls : List Call := [.step, .tick, .reset [0xC2, 0xF0], .key 3 true, .step]

theorem random_bytes_exact_drawer :
    (drawer.after drawerCalls).generator = drawer.generator.skip 2 ∧
    (drawer.after (drawerCalls.take 4)).step.2.machine.register 2 = 0x30 ∧
    (drawer.after (drawerCalls.take 3)).generator = (drawer.after (drawerCalls.take 2)).generator ∧
    ((drawer.withGenerator otherStream).after drawerCalls).machine =
      (drawer.after drawerCalls).machine := by
  have h : drawer.masks drawerCalls = [0x0F, 0xF0] ∧
      drawer.masks (drawerCalls.take 4) = [0x0F] ∧
      (drawer.after (drawerCalls.take 4)).step.1 = .executed (.random 2 0xF0) := by
    decide +kernel
  obtain ⟨hm, hm', hs⟩ := h
  have ha : drawer.generator.Alike otherStream (drawer.masks drawerCalls) := by
    rw [hm]
    intro k mask hk
    match k with
    | 0 => cases hk; decide
    | 1 => cases hk; decide
    | k + 2 => cases hk
  obtain ⟨hg, -, -, hq⟩ := random_bytes_exact drawer drawerCalls
  obtain ⟨-, hr, -⟩ := random_bytes_exact drawer (drawerCalls.take 4)
  obtain ⟨-, -, hn, -⟩ := random_bytes_exact drawer (drawerCalls.take 2)
  rw [hm] at hg
  rw [hm'] at hr
  refine ⟨hg, (hr 2 0xF0 hs).1.trans (by decide), hn (.reset [0xC2, 0xF0]) fun x mask => ?_, ?_⟩
  · rw [call_reset]
    exact nofun
  · exact ((hq (drawer.withGenerator otherStream) rfl rfl).1 ha).machine _ (List.prefix_refl _)

end Processor

end Chip8
