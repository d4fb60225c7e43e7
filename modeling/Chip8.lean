import Chip8.Main
import Chip8.Session
import Chip8.Instruction.Mnemonic
import Chip8.Proofs.CallStack
import Chip8.Proofs.Machine.Atomic
import Chip8.Proofs.Machine.Frame
import Chip8.Proofs.Machine.Flag
import Chip8.Proofs.Machine.Block
import Chip8.Proofs.Processor.Step
import Chip8.Proofs.Processor.Call
import Chip8.Proofs.Processor.Halt
import Chip8.Proofs.Processor.Subroutine
import Chip8.Proofs.Processor.Trace
import Chip8.Proofs.Processor.Faults
import Chip8.Proofs.Processor.Bounds
import Chip8.Proofs.Processor.Merge
import Chip8.Proofs.Processor.Await
import Chip8.Proofs.Processor.Provenance
import Chip8.Proofs.Processor.Random
import Chip8.Proofs.Scheduler.Batch
import Chip8.Proofs.Scheduler.Call
import Chip8.Proofs.Scheduler.Display
import Chip8.Proofs.Scheduler.Tone
import Chip8.Proofs.Scheduler.Timer
import Chip8.Proofs.Scheduler.Reset
import Chip8.Proofs.Scheduler.Announce
import Chip8.Proofs.Screen.Draw
import Chip8.Proofs.Screen.Strokes
import Chip8.Proofs.Screen.Views
import Chip8.Proofs.Runner.Thread
import Chip8.Proofs.Runner.Tick
import Chip8.Proofs.Runner.Serial
import Chip8.Proofs.Runner.Round
import Chip8.Proofs.Runner.Refused
import Chip8.Proofs.Runner.Lull
import Chip8.Proofs.Session.Play
import Chip8.Proofs.Session.Wait
import Chip8.Proofs.Session.Client
import Chip8.Proofs.Session.Stage
import Chip8.Proofs.Session.Timing
import Chip8.Proofs.Session.Refused
import Chip8.Proofs.Instruction.Opcode
import Chip8.Proofs.Processor.Assembly
import Chip8.Proofs.Processor.Counter
import Chip8.Proofs.Numeral
import Chip8.Proofs.CommandLine.KeyText
import Chip8.Proofs.Instruction.Canonical
import Chip8.Proofs.Instruction.Mnemonic
import Chip8.Proofs.Processor.Patch
import Chip8.Proofs.Processor.Canonical
import Chip8.Proofs.CommandLine.Print
import Chip8.Proofs.Processor.Frame
