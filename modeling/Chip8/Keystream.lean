import Chip8.Operand

/-!
# A keystream of random words

Random numbers are the words of a stream cipher: a block of sixteen words is mixed from four
constants, a key of eight words and the number of the block, by twelve rounds that add, exclusive-or
and rotate.  The key is spread out of a seed of 64 bits by a congruential generator whose output is
permuted.

* `key`     the key of a seed;
* `block`   sixteen words of the stream;
* `word`    one word of the stream.
-/

namespace Chip8.Keystream

/-! ## the key of a seed -/

def seedState (seed : UInt64) : Nat → UInt64
  | 0 => seed
  | n + 1 => seedState seed n * 6364136223846793005 + 11634580027462260723

/-- a word turned to the right by the low five bits of `count` -/
def turnRight (word count : UInt32) : UInt32 := word >>> count ||| word <<< (32 - count)

def turnLeft (word count : UInt32) : UInt32 := word <<< count ||| word >>> (32 - count)

/-- the word that a state gives: its highest bits say how far the others are turned -/
def permuted (state : UInt64) : UInt32 :=
  turnRight (((state >>> 18) ^^^ state) >>> 27).toUInt32 (state >>> 59).toUInt32

def key (seed : UInt64) : Vector UInt32 8 :=
  Vector.ofFn fun i => permuted (seedState seed (i.val + 1))

/-! ## a block of the stream -/

abbrev Block := Vector UInt32 16

def constants : Vector UInt32 4 := #v[0x61707865, 0x3320646E, 0x79622D32, 0x6B206574]

/-- the words that tell the blocks of a stream apart -/
def counter (number : UInt64) : Vector UInt32 4 :=
  #v[number.toUInt32, (number >>> 32).toUInt32, 0, 0]

def initial (key : Vector UInt32 8) (number : UInt64) : Block := constants ++ key ++ counter number

/-- adds the second word to the first, and turns what the sum leaves of the third -/
def mix (b : Block) (target source turned : Fin 16) (count : UInt32) : Block :=
  let sum := b[target] + b[source]
  (b.set target sum).set turned (turnLeft (b[turned] ^^^ sum) count)

def quarterRound (b : Block) (i j k l : Fin 16) : Block :=
  mix (mix (mix (mix b i j l 16) k l j 12) i j l 8) k l j 7

/-- a round on the columns of the four by four block, then one on its diagonals -/
def doubleRound (b : Block) : Block :=
  let columns := quarterRound (quarterRound (quarterRound (quarterRound b
    0 4 8 12) 1 5 9 13) 2 6 10 14) 3 7 11 15
  quarterRound (quarterRound (quarterRound (quarterRound columns
    0 5 10 15) 1 6 11 12) 2 7 8 13) 3 4 9 14

def rounds : Nat → Block → Block
  | 0, b => b
  | n + 1, b => rounds n (doubleRound b)

def block (key : Vector UInt32 8) (number : UInt64) : Block :=
  let start := initial key number
  Vector.zipWith (· + ·) (rounds 6 start) start

def word (key : Vector UInt32 8) (place : Nat) : UInt32 :=
  (block key (UInt64.ofNat (place / 16)))[place % 16]

end Chip8.Keystream
