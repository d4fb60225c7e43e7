import Chip8.Numeral

/-!
# The call stack: return addresses, up to a fixed number of them

* `push`, `pop`    a full stack refuses an address, an empty one has none to give;
* `toList`         the addresses from the oldest to the latest.
-/

namespace Chip8

/-- the return addresses of the calls that have not returned -/
structure CallStack where
  /-- the latest address first -/
  entries : List UInt16
  /-- the most addresses it holds; fixed when the stack is made -/
  capacity : Nat
  deriving DecidableEq, Repr

namespace CallStack

structure Full where
  address : UInt16
  deriving DecidableEq, Repr

def Full.message (f : Full) : String :=
  "call stack capacity exceeded, pushing of address " ++ Numeral.hex f.address.toNat ++ " failed"

def defaultCapacity : Nat := 16

def withCapacity (n : Nat) : CallStack := ⟨[], n⟩

def empty : CallStack := withCapacity defaultCapacity

instance : Inhabited CallStack := ⟨empty⟩

/-- the stack that holds these addresses, the oldest first; it has room for all of them -/
def ofList (addresses : List UInt16) : CallStack :=
  ⟨addresses.reverse, max defaultCapacity addresses.length⟩

def toList (s : CallStack) : List UInt16 := s.entries.reverse

def size (s : CallStack) : Nat := s.entries.length

def isEmpty (s : CallStack) : Bool := s.entries.isEmpty

def push (s : CallStack) (address : UInt16) : Except Full CallStack :=
  if s.size < s.capacity then .ok { s with entries := address :: s.entries }
  else .error ⟨address⟩

def pop (s : CallStack) : Option (UInt16 × CallStack) :=
  match s.entries with
  | [] => none
  | address :: rest => some (address, { s with entries := rest })

/-! ## the operations through `toList` -/

@[simp] theorem length_toList (s : CallStack) : s.toList.length = s.size := by
  simp [toList, size]

@[simp] theorem toList_withCapacity (n : Nat) : (withCapacity n).toList = [] := rfl

@[simp] theorem toList_ofList (addresses : List UInt16) :
    (ofList addresses).toList = addresses := by
  simp [toList, ofList]

theorem toList_push {s t : CallStack} {address : UInt16} (h : s.push address = .ok t) :
    t.toList = s.toList ++ [address] ∧ t.capacity = s.capacity := by
  unfold push at h
  split at h
  · cases h
    simp [toList]
  · cases h

theorem toList_pop {s t : CallStack} {address : UInt16} (h : s.pop = some (address, t)) :
    s.toList = t.toList ++ [address] ∧ t.capacity = s.capacity := by
  unfold pop at h
  split at h
  · cases h
  · next e =>
    cases h
    simp [toList, e]

/-- a stack is known by its addresses and its capacity -/
theorem ext_toList {s t : CallStack} (h : s.toList = t.toList) (hc : s.capacity = t.capacity) :
    s = t := by
  obtain ⟨entries, capacity⟩ := s
  obtain ⟨entries', capacity'⟩ := t
  have he : entries = entries' := List.reverse_inj.mp h
  cases he
  cases hc
  rfl

end CallStack

end Chip8
