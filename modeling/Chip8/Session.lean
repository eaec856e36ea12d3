import Chip8.Interpreter
import Chip8.Listing

/-! Sessions: a program, the machine it runs on, and the loop that fetches a word, dispatches it and
moves the program counter on. The program counter of a listing is the position of a word, and that
of an image is an address in memory, from where words are fetched as they are now. Observers watch a
session: they are shown every instruction with the machine that it left, and are asked after each
whether to stop. An observer has a state of its own, which also survives an error. -/

namespace Chip8

structure Observer (μ : Type) where
  /-- Shows one instruction. -/
  frame : Machine → Dispatched → μ → Except InputError Unit × μ
  /-- Asks whether to stop. -/
  interrupted : μ → Except InputError Bool × μ

/-- Counts the frames it was shown, keeps the last, and may ask to stop after some number of them. -/
structure FrameCounter where
  /-- A number without bound: it grows by one a frame, and no observer lives to see 64 bits filled. -/
  frames : Nat := 0
  last : Option Dispatched := none
  limit : Option Nat := none

namespace FrameCounter

def count (c : FrameCounter) (d : Dispatched) : FrameCounter :=
  { c with frames := c.frames + 1, last := some d }

def wantsStop (c : FrameCounter) : Bool := c.limit.any (· ≤ c.frames)

def observer : Observer FrameCounter where
  frame _ d c := (.ok (), c.count d)
  interrupted c := (.ok c.wantsStop, c)

end FrameCounter

inductive Program
  | listing (words : Array Word)
  /-- So many bytes from the program address on. -/
  | image (length : UInt64)

namespace Program

def addressing : Program → Addressing
  | listing _ => .words
  | image _ => .bytes

def parseListing (text : String) : Except Failure Program :=
  (Listing.parse text).map fun words => listing words.toArray

end Program

/-- Why a run ended without a failure. -/
inductive Halt
  | endOfProgram
  /-- A jump to itself, after which nothing would change. -/
  | idle
  | stepLimit
  /-- The observer asked to stop. -/
  | interrupted
  deriving DecidableEq

def Halt.name : Halt → String
  | endOfProgram => "EndOfProgram"
  | idle => "Idle"
  | stepLimit => "StepLimit"
  | interrupted => "Interrupted"

structure Session where
  interpreter : Interpreter
  program : Program
  /-- Where the window of an image starts, whatever is loaded later. -/
  programAddr : UInt16
  world : World
  /-- Instructions carried out so far: a number without bound, since no run is long enough to fill 64 bits. -/
  steps : Nat := 0

namespace Session

def machine (s : Session) : Machine := s.world.machine

/-- The same session on a machine that was changed from outside. -/
def withMachine (s : Session) (machine : Machine) : Session := { s with world := { s.world with machine } }

/-- A session at the start of a program. Program, settings and interpreter have to agree on what the
program counter counts; an image still has to be loaded. -/
def new (settings : Settings) (interpreter : Interpreter) (random : RandomStream) (program : Program) :
    Except Failure Session := do
  if let some defect := settings.defect? then throw (.settings defect)
  if program.addressing ≠ settings.addressing ∨ interpreter.addressing ≠ settings.addressing then
    throw (.settings (.mismatch program.addressing settings.addressing interpreter.addressing))
  let machine ← Machine.ofMemorySize settings.memorySize
  let memory := { machine.memory with programAddr := settings.programAddr }
  let pc := match program with
    | .listing _ => 0
    | .image _ => settings.programAddr
  return { interpreter, program, programAddr := settings.programAddr,
           world := { machine := { machine with pc, memory }, random } }

/-- The session with an image in memory at the program address, as its program. -/
def load (s : Session) (r : Reader) : Except Failure Session :=
  match s.machine.memory.loadProgram r with
  | (.ok length, memory) =>
    .ok { s.withMachine { s.machine with memory } with program := .image length.toUInt64 }
  | (.error failure, _) => .error failure

/-- A session at the start of a byte image, loaded at the program address. -/
def loadImage (settings : Settings) (interpreter : Interpreter) (random : RandomStream) (r : Reader) :
    Except Failure Session := do
  (← new settings interpreter random (.image 0)).load r

/-- The word at the program counter, or none outside the program. The end of an image's window is a sum of
64 bits; a counter in or after the window is compared with it, which fails if they do not hold it. -/
def fetch (s : Session) : Except Failure (Option Word) :=
  let pc := s.machine.pc
  match s.program with
  | .listing words => .ok words[pc.toNat]?
  | .image length =>
    if pc < s.programAddr then .ok none
    else if UInt64.size ≤ s.programAddr.toNat + length.toNat then .error .overflow
    else if s.programAddr.toNat + length.toNat < pc.toNat + 2 then .ok none
    else .ok (s.machine.memory.word pc).toOption

/-- Moves the program counter on from an instruction and counts it. -/
def advance (s : Session) (w : World) : Session :=
  { s with world := { w with machine := { w.machine with pc := w.machine.pc + s.program.addressing.stride } }
           steps := s.steps + 1 }

/-- Carries out one instruction, if there is one to fetch. The interpreter is given its written form. -/
def step (s : Session) : Except Failure (Option Dispatched) × Session :=
  match s.fetch with
  | .error failure => (.error failure, s)
  | .ok none => (.ok none, s)
  | .ok (some word) =>
    match s.interpreter.dispatchText word.text s.world with
    | (.ok d, w) => (.ok (some d), s.advance w)
    | (.error failure, w) => (.error failure, { s with world := w })

/-- One round of a run: a step, its frame, and the question whether to stop, which comes before the look
for a jump to itself. There is an answer where the run ends with this round. -/
def round {μ : Type} (o : Observer μ) (s : Session) (u : μ) : Option (Except Failure Halt) × Session × μ :=
  match s.step with
  | (.error failure, s) => (some (.error failure), s, u)
  | (.ok none, s) => (some (.ok .endOfProgram), s, u)
  | (.ok (some d), after) =>
    match o.frame after.machine d u with
    | (.error e, u) => (some (.error (.input e)), after, u)
    | (.ok (), u) =>
      match o.interrupted u with
      | (.error e, u) => (some (.error (.input e)), after, u)
      | (.ok true, u) => (some (.ok .interrupted), after, u)
      | (.ok false, u) =>
        if d.step = .jump ∧ after.machine.pc = s.machine.pc then (some (.ok .idle), after, u)
        else (none, after, u)

/-- Runs round by round until one ends the run, for at most so many, as fast as it can. -/
def run {μ : Type} (o : Observer μ) : Nat → Session → μ → Except Failure Halt × Session × μ
  | 0, s, u => (.ok .stepLimit, s, u)
  | max + 1, s, u =>
    match s.round o u with
    | (some r, s, u) => (r, s, u)
    | (none, s, u) => run o max s u

end Session
end Chip8
