import Chip8.CommandLine.Log
import Chip8.CommandLine.Options
import Chip8.CommandLine.Report
import Chip8.CommandLine.Shell
import Chip8.Decimal.Nearest
import Chip8.Decimal.Reading
import Chip8.Decimal.Shortest
import Chip8.Decoder
import Chip8.Failure
import Chip8.Fault
import Chip8.Instruction
import Chip8.Interpreter
import Chip8.Listing
import Chip8.Machine
import Chip8.Main
import Chip8.Memory
import Chip8.Opcode
import Chip8.Pacing
import Chip8.Proofs.View
import Chip8.Session
import Chip8.Settings
import Chip8.Template
import Chip8.Text.Hex
import Chip8.Text.Pieces
import Chip8.Text.Printable
import Chip8.Word
import Chip8.Proofs.Effect
import Chip8.Proofs.Standard
import Chip8.Proofs.Counter
import Chip8.Proofs.Atomic
import Chip8.Proofs.Brackets
import Chip8.Proofs.Schedule
import Chip8.Proofs.Straight
import Chip8.Proofs.Overlap
import Chip8.Proofs.Unambiguous
import Chip8.Proofs.Mask
import Chip8.Proofs.Captures
import Chip8.Proofs.Dispatches
import Chip8.Proofs.Reassembly
import Chip8.Proofs.LastWriter
import Chip8.Proofs.Interleaving
import Chip8.Proofs.Lockstep
import Chip8.Proofs.Images
import Chip8.Proofs.Integrity
import Chip8.Proofs.Answers
import Chip8.Proofs.Checked
import Chip8.Proofs.Diagnosis
import Chip8.Proofs.Window
import Chip8.Proofs.Rest
import Chip8.Proofs.Watching
import Chip8.Proofs.ByteMap
import Chip8.Proofs.CallStack
import Chip8.Proofs.Numerals
import Chip8.Proofs.Rendering
import Chip8.Proofs.Replay
import Chip8.Proofs.Streaming
import Chip8.Proofs.Collision
import Chip8.Proofs.Assembly
