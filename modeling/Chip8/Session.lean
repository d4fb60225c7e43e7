import Chip8.Runner

/-!
# Sessions: a runner and a client that follows a script

The client waits for events, sends messages and finally hangs up.  It acts between the rounds of
the runner, as far as its script goes without waiting for an event that has not been told yet.

* `Act`            one line of a script;
* `Session.act`    the client's part between two rounds;
* `Session.run`    client and runner in turns, up to the end of the runner.
-/

namespace Chip8

inductive Act
  | await (event : Event)
  | send (message : Control)
  | disconnect
  deriving DecidableEq

structure Session where
  runner : Runner
  script : List Act
  /-- the number of events it has read -/
  seen : Nat

namespace Session

def start (runner : Runner) (script : List Act) : Session := ⟨runner, script, 0⟩

/-- what the client does, as far as the script goes: an event that has not been told is waited
for -/
def perform (runner : Runner) (seen : Nat) : List Act → Session
  | [] => ⟨runner, [], seen⟩
  | .await event :: rest =>
    match (runner.events.toList.drop seen).idxOf? event with
    | some place => perform runner (seen + place + 1) rest
    | none => ⟨runner, .await event :: rest, seen⟩
  | .send message :: rest => perform (runner.send message) seen rest
  | .disconnect :: rest => perform runner.disconnect seen rest

def act (s : Session) : Session := perform s.runner s.seen s.script

/-- up to `n` rounds, each after the client's part, up to the end of the runner -/
def run (s : Session) : Nat → Session
  | 0 => s
  | n + 1 =>
    match s.runner.ending with
    | some _ => s
    | none =>
      let acted := s.act
      { acted with runner := acted.runner.round }.run n

end Session

end Chip8
