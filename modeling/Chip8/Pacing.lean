import Chip8.Session

/-! Paced sessions. Settings may name a rate, and a session that has to keep to it has a helper: this is told when a
round of the loop starts, and waits after the round for as long as is left of its time. How a helper does that is not
told here. It is given all that the session and its observer hold, and what it makes of them counts; a call
that never comes back is `none`. -/

namespace Chip8

/-- Whatever builds helpers, and what these do. -/
structure Pacer (κ : Type) where
  /-- A helper for so many rounds a second. -/
  build {μ : Type} : Float → Session → μ → Option (κ × Session × μ)
  loopStart {μ : Type} : κ → Session → μ → Option (κ × Session × μ)
  loopSleep {μ : Type} : κ → Session → μ → Option (κ × Session × μ)

/-- A session with its helper, if its settings name a rate. -/
structure PacedSession (κ : Type) where
  session : Session
  helper : Option κ

namespace PacedSession

variable {κ μ : Type} (pacer : Pacer κ)

/-- A session at the start of a program. The helper is built once nothing else can fail. -/
def new (settings : Settings) (interpreter : Interpreter) (random : RandomStream) (program : Program) (u : μ) :
    Option (Except Failure (PacedSession κ) × μ) :=
  match Session.new settings interpreter random program, settings.clockRate with
  | .error failure, _ => some (.error failure, u)
  | .ok session, none => some (.ok { session, helper := none }, u)
  | .ok session, some rate => do
    let (helper, session, u) ← pacer.build rate session u
    return (.ok { session, helper := some helper }, u)

/-- A session at the start of a byte image, which is loaded when the helper was built. -/
def loadImage (settings : Settings) (interpreter : Interpreter) (random : RandomStream) (r : Reader) (u : μ) :
    Option (Except Failure (PacedSession κ) × μ) := do
  match ← new pacer settings interpreter random (.image 0) u with
  | (.error failure, u) => return (.error failure, u)
  | (.ok s, u) => return ((s.session.load r).map fun session => { s with session }, u)

/-- Leaves the session and its observer to a call of the helper, if there is one. -/
def entrust (call : κ → Session → μ → Option (κ × Session × μ)) (s : PacedSession κ) (u : μ) :
    Option (PacedSession κ × μ) :=
  match s.helper with
  | none => some (s, u)
  | some helper => do
    let (helper, session, u) ← call helper s.session u
    return ({ session, helper := some helper }, u)

/-- Runs round by round until one ends the run, for at most so many. The helper is called before each round, and
after each that does not end the run. -/
def run (o : Observer μ) : Nat → PacedSession κ → μ → Option (Except Failure Halt × PacedSession κ × μ)
  | 0, s, u => some (.ok .stepLimit, s, u)
  | max + 1, s, u => do
    let (s, u) ← s.entrust pacer.loopStart u
    match s.session.round o u with
    | (some r, session, u) => return (r, { s with session }, u)
    | (none, session, u) =>
      let (s, u) ← { s with session }.entrust pacer.loopSleep u
      run o max s u

end PacedSession
end Chip8
