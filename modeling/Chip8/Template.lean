import Chip8.Word

/-! Templates spell out the encoding of one instruction, a letter or digit per nibble, as in `8xy4` or
`Annn`. A hexadecimal digit stands for itself; `x` and `y` each hold a register; a run of `k`s holds
a byte and a run of `n`s an address, however many of their letters are written out. -/

namespace Chip8

/-- What an operand is, which fixes how many nibbles it takes. -/
inductive Slot
  | register
  | byte
  | address
  deriving DecidableEq

def Slot.width : Slot → Nat
  | register => 1
  | byte => 2
  | address => 3

inductive Segment
  | literal (digit : Nibble)
  | operand (slot : Slot)
  deriving DecidableEq

namespace Segment

def width : Segment → Nat
  | literal _ => 1
  | operand s => s.width

/-- The segment that a lower-case letter or a digit opens. -/
def ofChar? : Char → Option Segment
  | 'x' => some (operand .register)
  | 'y' => some (operand .register)
  | 'k' => some (operand .byte)
  | 'n' => some (operand .address)
  | c => (Hex.digit? c).map literal

/-- One entry per nibble, empty where any digit will do. -/
def pattern : Segment → List (Option Nibble)
  | literal d => [some d]
  | operand s => List.replicate s.width none

theorem length_pattern (s : Segment) : s.pattern.length = s.width := by
  cases s <;> simp [pattern, width]

/-- How many nibbles a row of segments fills. -/
def filled : List Segment → Nat
  | [] => 0
  | s :: r => s.width + filled r

theorem length_flatMap_pattern (r : List Segment) : (r.flatMap pattern).length = filled r := by
  induction r with
  | nil => rfl
  | cons s r ih => rw [List.flatMap_cons, List.length_append, length_pattern, ih, filled]

/-- The operands that a row of nibbles holds, cut as the segments say. -/
def operands : List Segment → List Nibble → List Word
  | [], _ => []
  | literal _ :: r, ds => operands r (ds.drop 1)
  | operand s :: r, ds => Word.ofNibbles (ds.take s.width) :: operands r (ds.drop s.width)

end Segment

/-- Segments that fill so many nibbles exactly. -/
abbrev Tiling (room : Nat) := { r : List Segment // Segment.filled r = room }

def Tiling.cons {room : Nat} (s : Segment) (h : s.width ≤ room) (rest : Tiling (room - s.width)) : Tiling room :=
  ⟨s :: rest.1, by rw [Segment.filled, rest.2]; omega⟩

structure Template where
  source : String
  segments : List Segment
  full : Segment.filled segments = 4
  deriving DecidableEq

namespace Template

/-- Why a text is no template. -/
inductive Defect
  | split (letter : Char)
  | stray
  | long
  | short
  deriving DecidableEq

def Defect.reason : Defect → String
  | split letter => letter.toString ++ " group is not contiguous"
  | stray => "expected a hex digit or one of x, y, k, n"
  | long => "longer than four nibbles"
  | short => "shorter than four nibbles"

/-- Drops at most `n` copies of `c` from the front. -/
def dropRun (c : Char) : Nat → List Char → List Char
  | n + 1, d :: r => if d = c then dropRun c n r else d :: r
  | _, r => r

theorem length_dropRun_le (c : Char) (n : Nat) (r : List Char) : (dropRun c n r).length ≤ r.length := by
  induction n generalizing r with
  | zero => simp [dropRun]
  | succ n ih =>
    cases r with
    | nil => simp [dropRun]
    | cons d r =>
      unfold dropRun
      split
      · exact Nat.le_succ_of_le (ih r)
      · exact Nat.le_refl _

/-- Reads segments until the text ends, which has to be where `room` runs out. The letters that
follow the first of a group belong to it up to the group's width, and a group opens only once. -/
def tile (opened : List Segment) (room : Nat) : List Char → Except Defect (Tiling room)
  | [] => if h : room = 0 then .ok ⟨[], h.symm⟩ else .error .short
  | c :: r =>
    match Segment.ofChar? c with
    | none => .error .stray
    | some s =>
      if s ∈ opened then .error (.split c)
      else if h : s.width ≤ room then
        have := length_dropRun_le c (s.width - 1) r
        (tile (if 1 < s.width then s :: opened else opened) (room - s.width)
          (dropRun c (s.width - 1) r)).map (Tiling.cons s h)
      else .error .long
termination_by cs => cs.length
decreasing_by simp only [List.length_cons]; omega

/-- Letter case does not matter in a template, and the source is kept as it was written. -/
def compile (source : String) : Except Defect Template :=
  (tile [] 4 (source.toList.map Char.toLower)).map fun t => ⟨source, t.1, t.2⟩

/-! ### Bits

A template is also a mask with a value, and a field of bits for each operand: a word fits if its bits under
the mask have that value, and an operand is read by a shift and a mask of its own. -/

/-- The bits of an operand: how far from the right they start, and how many nibbles they are. -/
structure Field where
  shift : Nat
  width : Nat

/-- Shifts the field to the right end and cuts off what is left of it. -/
def Field.extract (f : Field) (w : Nat) : Nat := w >>> f.shift &&& 1 <<< (4 * f.width) - 1

/-- The field of an operand, told by the nibble that it starts at and how many it takes. -/
def Field.ofSpan (span : Nat × Nat) : Field := ⟨4 * (4 - span.1 - span.2), span.2⟩

/-- What is gathered from the segments of a template, from left to right. -/
structure Bits where
  /-- Ones at the places of literal digits. -/
  mask : Word := 0
  /-- The literal digits at their places. -/
  value : Word := 0
  /-- The nibble that each operand starts at, and how many it takes. -/
  spans : List (Nat × Nat) := []
  /-- The nibble that the next segment starts at. -/
  nibble : Nat := 0

def Bits.add (b : Bits) : Segment → Bits
  | .literal d =>
    let shift := UInt16.ofNat (4 * (3 - b.nibble))
    { b with mask := b.mask ||| 0xF <<< shift
             value := b.value ||| UInt16.ofNat d.val <<< shift
             nibble := b.nibble + 1 }
  | .operand s => { b with spans := b.spans ++ [(b.nibble, s.width)], nibble := b.nibble + s.width }

def bits (t : Template) : Bits := t.segments.foldl Bits.add {}

def mask (t : Template) : Word := t.bits.mask

def value (t : Template) : Word := t.bits.value

def fields (t : Template) : List Field := t.bits.spans.map Field.ofSpan

/-! ### Operands and matches -/

/-- The operands that the template takes, left to right. -/
def slots (t : Template) : List Slot :=
  t.segments.filterMap fun
    | .literal _ => none
    | .operand s => some s

def pattern (t : Template) : List (Option Nibble) := t.segments.flatMap Segment.pattern

theorem length_pattern (t : Template) : t.pattern.length = 4 :=
  (Segment.length_flatMap_pattern t.segments).trans t.full

def accepts (t : Template) (w : Word) : Bool :=
  (t.pattern.zip w.nibbles).all fun (p, d) => p.all (· == d)

/-- The nibbles of a word at the places of the operands, whatever its other nibbles are. -/
def operands (t : Template) (w : Word) : List Word := Segment.operands t.segments w.nibbles

def captures? (t : Template) (text : String) : Option (List Word) := do
  let w ← Word.ofText? text
  if t.accepts w then some (t.operands w) else none

/-- The least nibble that two entries of a pattern both allow. -/
def meet : Option Nibble → Option Nibble → Option Nibble
  | none, none => some 0
  | some d, none => some d
  | none, some e => some e
  | some d, some e => if d = e then some d else none

/-- The least word that both templates accept. -/
def overlap? (t u : Template) : Option Word :=
  ((t.pattern.zip u.pattern).mapM fun (p, q) => meet p q).map Word.ofNibbles

end Template
end Chip8
