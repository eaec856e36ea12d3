import Chip8.Session

/-! Log records of the command line. Those of a run can all be told from what its observer is shown and
from how it ended, so the machine itself keeps no log. -/

namespace Chip8.CommandLine

inductive Level
  | error
  | warn
  | info
  | debug
  | trace
  deriving DecidableEq

namespace Level

def rank : Level → Nat
  | error => 0
  | warn => 1
  | info => 2
  | debug => 3
  | trace => 4

/-- The finest level that is shown when logging is asked for so many times. -/
def ofVerbosity : Nat → Level
  | 0 => warn
  | 1 => info
  | 2 => debug
  | _ => trace

end Level

/-- Which part of the program speaks. -/
inductive Speaker
  | decoder
  | interpreter
  | session
  | program
  deriving DecidableEq

def Speaker.name : Speaker → String
  | decoder => "chip8_core::instruction"
  | interpreter => "chip8_core::interpreter"
  | session => "chip8_core::runner"
  | program => "chip8"

structure Record where
  level : Level
  speaker : Speaker
  message : String
  deriving DecidableEq

namespace Record

def decoderReady (d : Decoder) : Record :=
  ⟨.debug, .decoder, s!"instruction table ready with {d.bindings.length} entries"⟩

def loaded (length : Nat) (addr : UInt16) : Record :=
  ⟨.info, .session, s!"loaded {length} bytes at {Hex.address addr}"⟩

def decoded (pc : UInt16) (word : Word) (i : Instruction) : Record :=
  ⟨.trace, .interpreter, s!"{Hex.address pc}: {word.text}  {i.disassemble}"⟩

/-- What an instruction that was carried out leaves in the log, given the machine after it. -/
def ofDispatched (stride : UInt16) (m : Machine) (d : Dispatched) : List Record :=
  decoded d.pc d.word d.instruction ::
    match d.instruction with
    | .call nnn =>
      [⟨.debug, .interpreter, s!"call {Hex.address nnn} from {Hex.address d.pc}, depth {m.depth}"⟩]
    | .ret =>
      [⟨.debug, .interpreter, s!"return from {Hex.address d.pc} to {Hex.address (m.pc - stride)}"⟩]
    | _ => []

/-- What a run that failed leaves: only a fault of the machine has an instruction to show. -/
def ofFailure (decoder : Decoder) : Failure → List Record
  | .fault pc word f =>
    (match decoder.decode word with
      | .ok i => [decoded pc word i]
      | .error _ => []) ++
      [⟨.error, .interpreter, (Failure.fault pc word f).message⟩]
  | _ => []

/-- What a run that ended leaves, given the session after it and the limit on its steps. -/
def ofHalt (s : Session) (limit : Nat) (halt : Halt) : List Record :=
  let pc := Hex.address s.machine.pc
  let why : Record := match halt with
    | .endOfProgram => ⟨.info, .session, s!"end of program at pc {pc} after {s.steps} steps"⟩
    | .interrupted => ⟨.warn, .session, s!"interrupted at pc {pc}"⟩
    | .idle => ⟨.warn, .session, s!"idle loop at pc {pc}"⟩
    | .stepLimit => ⟨.warn, .session, s!"stopped after {limit} steps"⟩
  [why, ⟨.info, .program, s!"halted: {halt.name} after {s.steps} steps"⟩]

end Record
end Chip8.CommandLine
