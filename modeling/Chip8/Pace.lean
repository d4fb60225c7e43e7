/-!
# Pace: how many instructions and how many ticks of the timers in a second
-/

namespace Chip8

structure Pace where
  /-- ticks of the timers in a second -/
  timerFrequency : UInt32
  instructionsPerTick : UInt32
  deriving DecidableEq, Repr

def Pace.standard : Pace := ⟨60, 12⟩

/-- instructions in a second, or the largest number there is room for -/
def Pace.instructionsPerSecond (p : Pace) : UInt32 :=
  UInt32.ofNat (min (p.timerFrequency.toNat * p.instructionsPerTick.toNat) (UInt32.size - 1))

end Chip8
