import Chip8.Keystream

/-!
# The random generator: a stream of bytes and a place in it

What the machine needs to know of randomness is the byte that comes next.  The generator is
therefore the whole stream with the number of bytes taken from it; the stream of a seed takes the
low byte of each word of its keystream.

* `next`      the next byte, and the generator behind it;
* `ofSeed`    the generator at the start of the stream of a seed;
* `Source`    where a run has its generator from, with a seed or without.
-/

namespace Chip8

/-- a stream of random bytes and how many of them have been taken -/
structure Generator where
  stream : Nat → UInt8
  position : Nat

namespace Generator

def next (g : Generator) : UInt8 × Generator :=
  (g.stream g.position, { g with position := g.position + 1 })

def ofSeed (seed : UInt64) : Generator :=
  let key := Keystream.key seed
  { stream := fun place => (Keystream.word key place).toUInt8, position := 0 }

/-- where a run has its generator from -/
structure Source where
  seeded : UInt64 → Generator
  /-- for a run without a seed, of any origin -/
  unseeded : Generator

/-- the generator of a run for which a seed is given or not -/
def Source.generator (s : Source) : Option UInt64 → Generator
  | some seed => s.seeded seed
  | none => s.unseeded

/-- the streams of the seeds, with a seed that stands in where none is given -/
def Source.ofSeed (unseeded : UInt64) : Source := ⟨Generator.ofSeed, Generator.ofSeed unseeded⟩

end Generator

end Chip8
