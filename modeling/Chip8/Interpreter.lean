import Chip8.Decoder
import Chip8.Machine

/-! The interpreter: decodes one word and applies it to a machine. It keeps nothing between words, so
that several machines can share one. Whoever fetches words moves the program counter one stride on
after each of them, and the effects leave room for that: a skip moves it one stride, and a call or a
jump leaves it one stride before its target. A return goes back to the call itself. -/

namespace Chip8

/-- Random words, and how many of them have been drawn. -/
structure RandomStream where
  word : Nat → UInt32
  drawn : Nat := 0

def RandomStream.draw (r : RandomStream) : UInt32 × RandomStream :=
  (r.word r.drawn, { r with drawn := r.drawn + 1 })

/-- A machine with the random words that it draws from. -/
structure World where
  machine : Machine
  random : RandomStream

/-- What an instruction did to the flow of control. -/
inductive Step
  | next
  /-- A skip whose condition held. -/
  | skip
  | jump
  | call
  | ret
  deriving DecidableEq

def Step.name : Step → String
  | next => "Next"
  | skip => "Skip"
  | jump => "Jump"
  | call => "Call"
  | ret => "Return"

/-- One instruction as it was carried out, with the program counter that it was found at. -/
structure Dispatched where
  pc : UInt16
  word : Word
  instruction : Instruction
  step : Step
  deriving DecidableEq

/-- One line of a trace. -/
def Dispatched.line (d : Dispatched) : String :=
  let skip := if d.step = .skip then "  (skip)" else ""
  s!"{Hex.lower 4 d.pc.toNat}  {d.word.text}  {d.instruction.disassemble}{skip}"

structure Interpreter where
  decoder : Decoder
  addressing : Addressing
  shiftFlag : ShiftFlag
  incrementIndex : Bool

namespace Interpreter

def ofDecoder (s : Settings) (decoder : Decoder) : Except Failure Interpreter :=
  match s.defect? with
  | some defect => .error (.settings defect)
  | none => .ok ⟨decoder, s.addressing, s.shiftFlag, s.incrementIndex⟩

/-- An interpreter of the standard instruction set. -/
def ofSettings (s : Settings) : Except Failure Interpreter := do
  ofDecoder s (← Decoder.standard)

/-- Moves the index past a block that ended with the register `x`, where the settings say so. -/
def passBlock (cpu : Interpreter) (x : UInt8) (m : Machine) : Machine :=
  if cpu.incrementIndex then { m with i := m.i + x.toUInt16 + 1 } else m

/-- The effect of an instruction whose registers exist. -/
def perform (cpu : Interpreter) (i : Instruction) (w : World) : Except Fault Step × World :=
  let m := w.machine
  let stride := cpu.addressing.stride
  let done (m : Machine) : Except Fault Step × World := (.ok .next, { w with machine := m })
  -- the flag is written after the result, so that it stays if the result goes to its register
  let report (m : Machine) (holds : Bool) : Except Fault Step × World := done (m.setFlag holds.toUInt8)
  let skipIf (holds : Bool) : Except Fault Step × World :=
    if holds then (.ok .skip, { w with machine := { m with pc := m.pc + stride } }) else done m
  let transfer (x : UInt8) : Except Fault Unit × Machine → Except Fault Step × World
    | (.ok (), m) => done (cpu.passBlock x m)
    | (.error f, m) => (.error f, { w with machine := m })
  match i with
  | .loadImm x kk => done (m.setRegister x kk)
  | .addImm x kk => done (m.setRegister x (m.register x + kk))
  | .move x y => done (m.setRegister x (m.register y))
  | .or x y => done (m.setRegister x (m.register x ||| m.register y))
  | .and x y => done (m.setRegister x (m.register x &&& m.register y))
  | .xor x y => done (m.setRegister x (m.register x ^^^ m.register y))
  | .addReg x y =>
    let (a, b) := (m.register x, m.register y)
    report (m.setRegister x (a + b)) (255 < a.toNat + b.toNat)
  | .sub x y =>
    let (a, b) := (m.register x, m.register y)
    report (m.setRegister x (a - b)) (b < a)
  | .subNeg x y =>
    let (a, b) := (m.register x, m.register y)
    report (m.setRegister x (b - a)) (a < b)
  | .shiftRight x _ =>
    let a := m.register x
    let out := match cpu.shiftFlag with
      | .register => a &&& 1
      | .operand => x &&& 1
    done ((m.setRegister x (a >>> 1)).setFlag out)
  | .shiftLeft x _ =>
    let a := m.register x
    let out := match cpu.shiftFlag with
      | .register => a >>> 7
      | .operand => x &&& 0x80
    done ((m.setRegister x (a <<< 1)).setFlag out)
  | .random x kk =>
    let (r, random) := w.random.draw
    (.ok .next, { machine := m.setRegister x (r.toUInt8 &&& kk), random })
  | .loadIndex nnn => done { m with i := nnn }
  | .addIndex x => done { m with i := m.i + (m.register x).toUInt16 }
  | .skipEqImm x kk => skipIf (m.register x == kk)
  | .skipNeImm x kk => skipIf (m.register x != kk)
  | .skipEqReg x y => skipIf (m.register x == m.register y)
  | .skipNeReg x y => skipIf (m.register x != m.register y)
  | .jumpOffset nnn =>
    (.ok .jump, { w with machine := { m with pc := (m.register 0).toUInt16 + nnn - stride } })
  | .call nnn =>
    match m.push m.pc with
    | (.ok (), m) => (.ok .call, { w with machine := { m with pc := nnn - stride } })
    | (.error f, m) => (.error f, { w with machine := m })
  | .ret =>
    match m.pop with
    | (.ok addr, m) => (.ok .ret, { w with machine := { m with pc := addr } })
    | (.error f, m) => (.error f, { w with machine := m })
  | .storeRegs x => transfer x (m.storeRegisters x.toNat)
  | .loadRegs x => transfer x (m.loadRegisters x.toNat)

/-- Applies an instruction. One that names a missing register is refused before anything else. -/
def apply (cpu : Interpreter) (i : Instruction) (w : World) : Except Fault Step × World :=
  match i.highestRegister? with
  | some r => if 16 ≤ r then (.error (.noSuchRegister r), w) else cpu.perform i w
  | none => cpu.perform i w

/-- Decodes and applies a word. -/
def dispatch (cpu : Interpreter) (word : Word) (w : World) : Except Failure Dispatched × World :=
  match cpu.decoder.decode word with
  | .error failure => (.error failure, w)
  | .ok instruction =>
    let pc := w.machine.pc
    match cpu.apply instruction w with
    | (.ok step, w) => (.ok { pc, word, instruction, step }, w)
    | (.error f, w) => (.error (.fault pc word f), w)

theorem dispatch_of_decode_error {cpu : Interpreter} {word : Word} {failure : Failure}
    (h : cpu.decoder.decode word = .error failure) (w : World) : cpu.dispatch word w = (.error failure, w) := by
  rw [dispatch, h]

theorem dispatch_of_decode {cpu : Interpreter} {word : Word} {i : Instruction}
    (h : cpu.decoder.decode word = .ok i) (w : World) :
    cpu.dispatch word w = match cpu.apply i w with
      | (.ok step, w') => (.ok { pc := w.machine.pc, word, instruction := i, step }, w')
      | (.error f, w') => (.error (.fault w.machine.pc word f), w') := by
  rw [dispatch, h]

/-- Only the outcome of the decoded instruction, without the record of it. -/
def execute (cpu : Interpreter) (word : Word) (w : World) : Except Failure Step × World :=
  match cpu.dispatch word w with
  | (r, w) => (r.map Dispatched.step, w)

/-- Dispatches a word given as four hexadecimal digits. -/
def dispatchText (cpu : Interpreter) (text : String) (w : World) : Except Failure Dispatched × World :=
  match Word.ofText? text with
  | some word => cpu.dispatch word w
  | none => (.error (.malformedInstruction text), w)

theorem dispatchText_text (cpu : Interpreter) (word : Word) (w : World) :
    cpu.dispatchText word.text w = cpu.dispatch word w := by
  rw [dispatchText, Word.ofText?_text]

def executeText (cpu : Interpreter) (text : String) (w : World) : Except Failure Step × World :=
  match cpu.dispatchText text w with
  | (r, w) => (r.map Dispatched.step, w)

end Interpreter
end Chip8
