import Mathlib.Data.List.Infix
import Mathlib.Data.List.Induction
import Chip8.CallStack

/-!
# What a call stack holds

Whoever owns a call stack pushes addresses and pops them, in any order.  A push that is refused and
a pop that finds nothing change nothing, so the addresses on the stack are known from the replies.
An address is still there as long as behind its push there have never been more pops than pushes;
the latest one of that kind is the next to be popped.

* `Call`, `Reply`, `call`      a push or a pop, and what comes back;
* `after`, `replies`           the stack behind a list of calls, and all that came back;
* `call_cases`                 what a push or a pop can do;
* `Origin`                     the ways to make a stack;
* `Sparing`                    replies in which nothing is popped that was there before them;
* `Latest`, `Cleared`          the address pushed last and not yet popped, and that there is none;
* `toList_after`               the addresses on the stack by the replies;
* `Pending`                    an address that is left, with a number of others above it;
* `getElem?_of_pending`, `getElem?_of_not_pending`    the addresses on the stack from the top down;
* `bounded_lifo`               all of it for the stacks that can be made.
-/

namespace Chip8.CallStack

/-! ## calls -/

inductive Call
  | push (address : UInt16)
  | pop
  deriving DecidableEq, Repr

inductive Reply
  | pushed (address : UInt16)
  | refused (full : Full)
  | popped (address : UInt16)
  /-- there was nothing to pop -/
  | nothing
  deriving DecidableEq, Repr

def call (s : CallStack) : Call → Reply × CallStack
  | .push address =>
    match s.push address with
    | .ok t => (.pushed address, t)
    | .error full => (.refused full, s)
  | .pop =>
    match s.pop with
    | some (address, t) => (.popped address, t)
    | none => (.nothing, s)

def after (s : CallStack) : List Call → CallStack
  | [] => s
  | c :: calls => (s.call c).2.after calls

def replies (s : CallStack) : List Call → List Reply
  | [] => []
  | c :: calls => (s.call c).1 :: (s.call c).2.replies calls

/-- how a stack is made -/
inductive Origin
  | standard
  | withCapacity (n : Nat)
  | ofList (addresses : List UInt16)
  deriving DecidableEq, Repr

namespace Origin

def stack : Origin → CallStack
  | .standard => CallStack.empty
  | .withCapacity n => CallStack.withCapacity n
  | .ofList addresses => CallStack.ofList addresses

/-- the addresses it begins with, the oldest first -/
def addresses : Origin → List UInt16
  | .ofList addresses => addresses
  | _ => []

def capacity : Origin → Nat
  | .standard => 16
  | .withCapacity n => n
  | .ofList addresses => max 16 addresses.length

end Origin

/-! ## a single push or pop -/

theorem call_push (s : CallStack) (address : UInt16) :
    s.call (.push address) =
      if s.size < s.capacity then (.pushed address, { s with entries := address :: s.entries })
      else (.refused ⟨address⟩, s) := by
  rw [call, push]
  by_cases h : s.size < s.capacity
  · rw [if_pos h, if_pos h]
  · rw [if_neg h, if_neg h]

theorem call_pop (s : CallStack) :
    s.call .pop =
      match s.entries with
      | [] => (.nothing, s)
      | address :: rest => (.popped address, { s with entries := rest }) := by
  rw [call, pop]
  cases s.entries <;> rfl

/-- a push or a pop puts one address on top, takes the one there off, or changes nothing -/
theorem call_cases (s : CallStack) (c : Call) :
    (∃ address, s.size < s.capacity ∧
      s.call c = (.pushed address, { s with entries := address :: s.entries })) ∨
    (∃ address rest, s.entries = address :: rest ∧
      s.call c = (.popped address, { s with entries := rest })) ∨
    (∃ full, s.call c = (.refused full, s)) ∨ s.call c = (.nothing, s) := by
  cases c with
  | push address =>
    rw [call_push]
    by_cases h : s.size < s.capacity
    · exact .inl ⟨address, h, if_pos h⟩
    · exact .inr (.inr (.inl ⟨⟨address⟩, if_neg h⟩))
  | pop =>
    rw [call_pop]
    cases he : s.entries with
    | nil => exact .inr (.inr (.inr rfl))
    | cons address rest => exact .inr (.inl ⟨address, rest, rfl, rfl⟩)

/-- what is popped is the address at the top -/
theorem map_pop (s : CallStack) : s.pop.map Prod.fst = s.toList.reverse[0]? := by
  rw [toList, List.reverse_reverse, pop]
  cases s.entries <;> rfl

/-! ## the addresses by the replies -/

/-- the addresses on the stack, the oldest first, behind a reply -/
def Reply.revise (addresses : List UInt16) : Reply → List UInt16
  | .pushed address => addresses ++ [address]
  | .popped _ => addresses.dropLast
  | .refused _ | .nothing => addresses

theorem toList_call (s : CallStack) (c : Call) :
    (s.call c).2.toList = Reply.revise s.toList (s.call c).1 := by
  obtain ⟨address, -, h⟩ | ⟨address, rest, he, h⟩ | ⟨full, h⟩ | h := s.call_cases c
  · rw [h]
    exact List.reverse_cons
  · rw [h]
    show rest.reverse = s.entries.reverse.dropLast
    rw [he, List.reverse_cons, List.dropLast_concat]
  · rw [h]
    rfl
  · rw [h]
    rfl

/-- **The addresses on a stack are those it began with, changed by what was pushed and popped.** -/
theorem toList_after (s : CallStack) (calls : List Call) :
    (s.after calls).toList = (s.replies calls).foldl Reply.revise s.toList := by
  induction calls generalizing s with
  | nil => rfl
  | cons c calls ih =>
    rw [replies, List.foldl_cons, ← toList_call]
    exact ih (s.call c).2

/-! ## capacity -/

theorem bounded_call {s : CallStack} (h : s.size ≤ s.capacity) (c : Call) :
    (s.call c).2.capacity = s.capacity ∧ (s.call c).2.size ≤ s.capacity := by
  obtain ⟨address, hs, hc⟩ | ⟨address, rest, he, hc⟩ | ⟨full, hc⟩ | hc := s.call_cases c
  · rw [hc]
    exact ⟨rfl, hs⟩
  · rw [hc]
    have hr : rest.length + 1 ≤ s.capacity := by simpa [size, he] using h
    exact ⟨rfl, Nat.le_of_succ_le hr⟩
  · rw [hc]
    exact ⟨rfl, h⟩
  · rw [hc]
    exact ⟨rfl, h⟩

theorem bounded_after {s : CallStack} (h : s.size ≤ s.capacity) (calls : List Call) :
    (s.after calls).capacity = s.capacity ∧ (s.after calls).size ≤ s.capacity := by
  induction calls generalizing s with
  | nil => exact ⟨rfl, h⟩
  | cons c calls ih =>
    obtain ⟨hc, hs⟩ := bounded_call h c
    rw [← hc] at hs ⊢
    exact ih hs

namespace Origin

theorem capacity_stack (o : Origin) : o.stack.capacity = o.capacity := by
  cases o <;> rfl

theorem toList_stack (o : Origin) : o.stack.toList = o.addresses := by
  cases o with
  | standard => rfl
  | withCapacity n => rfl
  | ofList addresses => exact toList_ofList addresses

theorem size_stack_le (o : Origin) : o.stack.size ≤ o.stack.capacity := by
  rw [← length_toList, toList_stack, capacity_stack]
  cases o with
  | standard => exact Nat.zero_le _
  | withCapacity n => exact Nat.zero_le _
  | ofList addresses => exact Nat.le_max_right _ _

end Origin

/-! ## pushes and pops in pairs -/

def Reply.isPushed : Reply → Bool
  | .pushed _ => true
  | _ => false

def Reply.isPopped : Reply → Bool
  | .popped _ => true
  | _ => false

def pushes (log : List Reply) : Nat := log.countP Reply.isPushed

def pops (log : List Reply) : Nat := log.countP Reply.isPopped

theorem pushes_append (a b : List Reply) : pushes (a ++ b) = pushes a + pushes b :=
  List.countP_append

theorem pops_append (a b : List Reply) : pops (a ++ b) = pops a + pops b :=
  List.countP_append

/-- at no time there have been more pops than pushes, so that nothing is popped that was on the
stack before -/
def Sparing (log : List Reply) : Prop := ∀ part, part <+: log → pops part ≤ pushes part

/-- every address that was pushed has been popped -/
def Cleared (log : List Reply) : Prop :=
  ∀ address later, .pushed address :: later <:+ log → ¬ Sparing later

/-- of the addresses that were pushed and have not been popped it is the latest -/
def Latest (log : List Reply) (address : UInt16) : Prop :=
  ∃ later, .pushed address :: later <:+ log ∧ Sparing later ∧ Cleared later

theorem sparing_nil : Sparing [] := by
  intro part h
  rw [List.prefix_nil.mp h]
  exact Nat.le_refl 0

theorem sparing_concat {log : List Reply} {r : Reply} :
    Sparing (log ++ [r]) ↔ Sparing log ∧ pops (log ++ [r]) ≤ pushes (log ++ [r]) := by
  constructor
  · intro h
    exact ⟨fun part hp => h part (hp.trans (List.prefix_append log [r])), h _ List.prefix_rfl⟩
  · rintro ⟨hl, hr⟩ part hp
    obtain rfl | hp := List.prefix_concat_iff.mp hp
    · exact hr
    · exact hl part hp

/-! ## what is left on the stack -/

/-- the address was pushed and has not been popped, and above it there are `n` others -/
def Pending (log : List Reply) (n : Nat) (address : UInt16) : Prop :=
  ∃ later, .pushed address :: later <:+ log ∧ Sparing later ∧ pushes later = pops later + n

section
variable {log : List Reply} {r : Reply} {n k : Nat} {address : UInt16}

theorem pending_pushed (log : List Reply) (address : UInt16) :
    Pending (log ++ [.pushed address]) 0 address :=
  ⟨[], List.suffix_append log _, sparing_nil, rfl⟩

/-- a push buries what is left by one address more, a pop by one less -/
theorem Pending.concat (h : Pending log n address) (hk : n + pushes [r] = k + pops [r]) :
    Pending (log ++ [r]) k address := by
  obtain ⟨later, hl, hs, he⟩ := h
  have hc : pushes (later ++ [r]) = pops (later ++ [r]) + k := by
    rw [pushes_append, pops_append]
    omega
  exact ⟨later ++ [r], List.suffix_concat_iff.mpr (.inr ⟨_, rfl, hl⟩),
    sparing_concat.mpr ⟨hs, by omega⟩, hc⟩

/-- **More pushes than pops leave something on the stack.** -/
theorem exists_pending (h : pops log + n < pushes log) : ∃ address, Pending log n address := by
  -- from the latest reply on; how many addresses are to be above it changes with every reply
  induction log using List.reverseRecOn generalizing n with
  | nil => exact absurd h (Nat.not_lt_zero _)
  | append_singleton log r ih =>
    rw [pops_append, pushes_append] at h
    cases r with
    | pushed address =>
      cases n with
      | zero => exact ⟨address, pending_pushed log address⟩
      | succ n =>
        have hl : pops log + n < pushes log := Nat.lt_of_succ_lt_succ h
        obtain ⟨below, hb⟩ := ih hl
        exact ⟨below, hb.concat rfl⟩
    | popped address =>
      change pops log + 1 + n < pushes log + 0 at h
      have hl : pops log + (n + 1) < pushes log := by omega
      obtain ⟨below, hb⟩ := ih hl
      exact ⟨below, hb.concat rfl⟩
    | refused full =>
      obtain ⟨below, hb⟩ := ih h
      exact ⟨below, hb.concat rfl⟩
    | nothing =>
      obtain ⟨below, hb⟩ := ih h
      exact ⟨below, hb.concat rfl⟩

/-- **What is left stands on the stack**, with as many addresses above it. -/
theorem getElem?_of_pending (h : Pending log n address) (addresses : List UInt16) :
    (log.foldl Reply.revise addresses).reverse[n]? = some address := by
  obtain ⟨later, ⟨earlier, rfl⟩, hs, he⟩ := h
  induction later using List.reverseRecOn generalizing n with
  | nil =>
    cases n with
    | zero => simp [Reply.revise]
    | succ n => cases he
  | append_singleton later r ih =>
    obtain ⟨hl, -⟩ := sparing_concat.mp hs
    have hle : pops later ≤ pushes later := hl later List.prefix_rfl
    rw [pushes_append, pops_append] at he
    rw [← List.cons_append, ← List.append_assoc, List.foldl_append, List.foldl_cons, List.foldl_nil]
    cases r with
    | pushed above =>
      cases n with
      | zero =>
        change pushes later + 1 = pops later + 0 + 0 at he
        omega
      | succ n =>
        rw [Reply.revise, List.reverse_concat, List.getElem?_cons_succ]
        exact ih hl (Nat.succ.inj he)
    | popped above =>
      change pushes later + 0 = pops later + 1 + n at he
      rw [Reply.revise, ← List.tail_reverse, List.getElem?_tail]
      exact ih hl (by omega)
    | refused full => exact ih hl he
    | nothing => exact ih hl he

/-- **Where nothing is left of what was pushed, the addresses from before are found**, less as many
as there have been more pops than pushes. -/
theorem getElem?_of_not_pending (h : ∀ address, ¬ Pending log n address)
    (addresses : List UInt16) :
    (log.foldl Reply.revise addresses).reverse[n]? =
      addresses.reverse[n + pops log - pushes log]? := by
  induction log using List.reverseRecOn generalizing n with
  | nil => rfl
  | append_singleton log r ih =>
    rw [pops_append, pushes_append, List.foldl_append, List.foldl_cons, List.foldl_nil]
    cases r with
    | pushed above =>
      cases n with
      | zero => exact absurd (pending_pushed log above) (h above)
      | succ n =>
        have hn : n + 1 + (pops log + 0) - (pushes log + 1) = n + pops log - pushes log := by omega
        rw [Reply.revise, List.reverse_concat, List.getElem?_cons_succ,
          ih (n := n) fun address hb => h address (hb.concat rfl), ← hn]
        rfl
    | popped above =>
      have hn : n + (pops log + 1) - (pushes log + 0) = n + 1 + pops log - pushes log := by omega
      rw [Reply.revise, ← List.tail_reverse, List.getElem?_tail,
        ih (n := n + 1) fun address hb => h address (hb.concat rfl), ← hn]
      rfl
    | refused full => exact ih fun address hb => h address (hb.concat rfl)
    | nothing => exact ih fun address hb => h address (hb.concat rfl)

/-! ## the latest address that is left -/

theorem cleared_of_balanced (hs : Sparing log) (he : pushes log = pops log) : Cleared log := by
  rintro address later ⟨earlier, rfl⟩ hl
  have hb := hs earlier (List.prefix_append _ _)
  have ha := hl later List.prefix_rfl
  have hc : pushes (.pushed address :: later) = pushes later + 1 := List.countP_cons_of_pos rfl
  have hd : pops (.pushed address :: later) = pops later := List.countP_cons_of_neg nofun
  rw [pushes_append, pops_append] at he
  omega

theorem cleared_iff : Cleared log ↔ ∀ address, ¬ Pending log 0 address := by
  constructor
  · rintro h address ⟨later, hl, hs, -⟩
    exact h address later hl hs
  · intro h address later hl hs
    obtain he | hlt := Nat.eq_or_lt_of_le (hs later List.prefix_rfl)
    · exact h address ⟨later, hl, hs, he.symm⟩
    · obtain ⟨above, later', hl', hp⟩ := exists_pending (n := 0) hlt
      exact h above ⟨later', hl'.trans ((List.suffix_cons _ _).trans hl), hp⟩

theorem latest_iff : Latest log address ↔ Pending log 0 address := by
  constructor
  · rintro ⟨later, hl, hs, hc⟩
    refine ⟨later, hl, hs, Nat.le_antisymm (Nat.not_lt.mp fun hlt => ?_) (hs later List.prefix_rfl)⟩
    obtain ⟨above, hp⟩ := exists_pending (n := 0) hlt
    exact cleared_iff.mp hc above hp
  · rintro ⟨later, hl, hs, he⟩
    exact ⟨later, hl, hs, cleared_of_balanced hs he⟩

end

/-- **A call stack holds its addresses up to its capacity, and gives back the latest first.**  However
it was made and whatever was pushed and popped, the addresses on it are those it began with, changed
by the pushes and pops that were done, and there are no more of them than its capacity.  A push is
done if there are fewer, else it names the refused address and changes nothing.  A pop gives the
latest address that was pushed and not yet popped; if there is none, the last of those it began
with that is left; and if there is none of these, nothing. -/
theorem bounded_lifo (o : Origin) (calls : List Call) :
    (o.stack.after calls).capacity = o.capacity ∧
    (o.stack.after calls).size ≤ o.capacity ∧
    (∀ address, ((o.stack.after calls).call (.push address)).1 = .pushed address ↔
      (o.stack.after calls).size < o.capacity) ∧
    (∀ address, o.capacity ≤ (o.stack.after calls).size →
      (o.stack.after calls).call (.push address) = (.refused ⟨address⟩, o.stack.after calls)) ∧
    (o.stack.after calls).toList = (o.stack.replies calls).foldl Reply.revise o.addresses ∧
    (∀ address, Latest (o.stack.replies calls) address →
      (o.stack.after calls).pop.map Prod.fst = some address) ∧
    (Cleared (o.stack.replies calls) → (o.stack.after calls).pop.map Prod.fst =
      o.addresses.reverse[pops (o.stack.replies calls) - pushes (o.stack.replies calls)]?) ∧
    (Cleared (o.stack.replies calls) ∨ ∃ address, Latest (o.stack.replies calls) address) := by
  obtain ⟨hc, hs⟩ := bounded_after o.size_stack_le calls
  have ht := toList_after o.stack calls
  rw [o.capacity_stack] at hc hs
  rw [o.toList_stack] at ht
  refine ⟨hc, hs, fun address => ?_, fun address hf => ?_, ht, fun address hl => ?_, fun hl => ?_, ?_⟩
  · rw [call_push, hc]
    by_cases h : (o.stack.after calls).size < o.capacity
    · simp [h]
    · simp [h]
  · rw [call_push, hc, if_neg (Nat.not_lt.mpr hf)]
  · rw [map_pop, ht]
    exact getElem?_of_pending (latest_iff.mp hl) o.addresses
  · rw [map_pop, ht, getElem?_of_not_pending (cleared_iff.mp hl), Nat.zero_add]
  · by_cases h : ∃ address, Latest (o.stack.replies calls) address
    · exact .inr h
    · exact .inl (cleared_iff.mpr fun address hp => h ⟨address, latest_iff.mpr hp⟩)

/-- a stack made of 17 addresses, which has room for just these -/
def overfull : Origin := .ofList (List.replicate 16 0x200 ++ [0x30A])

theorem bounded_lifo_overfull :
    overfull.stack.call (.push 0x400) = (.refused ⟨0x400⟩, overfull.stack) ∧
    (overfull.stack.after [.pop, .push 0x402, .push 0x404]).pop.map Prod.fst = some 0x402 ∧
    (overfull.stack.after [.push 0x400, .pop]).pop.map Prod.fst = some 0x200 := by
  obtain ⟨-, -, -, hr, -⟩ := bounded_lifo overfull []
  obtain ⟨-, -, -, -, -, hl, -⟩ := bounded_lifo overfull [.pop, .push 0x402, .push 0x404]
  obtain ⟨-, -, -, -, -, -, hc, -⟩ := bounded_lifo overfull [.push 0x400, .pop]
  have hs : Sparing [.refused ⟨0x404⟩] := sparing_concat.mpr ⟨sparing_nil, by decide⟩
  refine ⟨hr 0x400 (by decide), hl 0x402 ⟨_, ⟨[.popped 0x30A], rfl⟩, hs, ?_⟩, hc ?_⟩
  · exact cleared_of_balanced hs rfl
  · have he : overfull.stack.replies [.push 0x400, .pop] = [.refused ⟨0x400⟩, .popped 0x30A] := rfl
    intro address later h
    rw [he] at h
    exact absurd (h.mem List.mem_cons_self) (by simp)

end Chip8.CallStack
