import Chip8.Fault
import Chip8.Operand
import Chip8.Screen

/-!
# Messages: what a running machine tells, and what it is told

* `Event`      for the display, the speaker and whoever presses the keys;
* `Control`    for the machine.
-/

namespace Chip8

inductive Event
  | screenCleared
  | screenUpdated (screen : Screen)
  | toneStarted
  | toneStopped
  | keyAwaited
  | stopped (fault : Fault)
  deriving DecidableEq

inductive Control
  | key (k : Key) (pressed : Bool)
  | reset (program : List UInt8)
  deriving DecidableEq, Repr

/-- the picture of a display that shows the last screen it was sent -/
def Screen.afterEvents (shown : Screen) (events : List Event) : Screen :=
  events.foldl (fun screen event =>
    match event with
    | .screenUpdated new => new
    | _ => screen) shown

end Chip8
