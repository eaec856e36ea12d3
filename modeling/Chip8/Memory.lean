import Chip8.Failure

/-! Memory: a row of bytes whose size is fixed when it is made, and the address at which programs are
loaded. An access that leaves memory is refused as a whole. -/

namespace Chip8

/-- Bytes to load: what can be read, and the error that ends the reading if there is one. -/
structure Reader where
  bytes : Array UInt8
  failure : Option InputError := none

/-- All that there is to read; an error on the way loses what came before it. -/
def Reader.contents (r : Reader) : Except InputError (Array UInt8) :=
  match r.failure with
  | some e => .error e
  | none => .ok r.bytes

/-- Why bytes are not loaded: they cannot be read, or else there is no room for them. -/
def Reader.refusal (r : Reader) (addr : UInt16) : Failure :=
  match r.failure with
  | some e => .input e
  | none => .load addr r.bytes.size

structure Memory where
  bytes : Array UInt8
  programAddr : UInt16
  le_size : minMemory ≤ bytes.size
  size_le : bytes.size ≤ maxMemory
  deriving DecidableEq

namespace Memory

/-- Memory of the least size, all zero. -/
def blank : Memory where
  bytes := Array.replicate minMemory 0
  programAddr := defaultProgramAddr
  le_size := by simp
  size_le := by simp [minMemory, maxMemory]

/-- Zeroed memory of a size that programs can use. -/
def ofSize (size : Nat) : Except Failure Memory :=
  if h : minMemory ≤ size ∧ size ≤ maxMemory then
    .ok { bytes := Array.replicate size 0
          programAddr := defaultProgramAddr
          le_size := by simpa using h.1
          size_le := by simpa using h.2 }
  else .error (.settings (.unsupportedMemory size))

def size (m : Memory) : Nat := m.bytes.size

/-- The byte at an address, where there is one. -/
def byte? (m : Memory) (a : Nat) : Option UInt8 := m.bytes[a]?

theorem byte?_eq_some (m : Memory) (a : Nat) (h : a < m.size) : ∃ b, m.byte? a = some b :=
  ⟨_, Array.getElem?_eq_getElem h⟩

theorem eq_of_bytes {m m' : Memory} (hs : m.size = m'.size) (ha : m.programAddr = m'.programAddr)
    (hb : ∀ a, (m.byte? a).getD 0 = (m'.byte? a).getD 0) : m = m' := by
  obtain ⟨bytes, addr, _, _⟩ := m
  obtain ⟨bytes', addr', _, _⟩ := m'
  simp only [size, byte?] at hs ha hb
  have : bytes = bytes' := by
    apply Array.ext hs
    intro a h h'
    simpa [h, h'] using hb a
  subst this ha
  rfl

/-- Puts bytes at consecutive addresses; those past the end are left out. -/
def overwrite (bytes : Array UInt8) (a : Nat) (data : List UInt8) : Array UInt8 :=
  (data.foldl (fun s b => (s.1.setIfInBounds s.2 b, s.2 + 1)) (bytes, a)).1

theorem size_foldl_overwrite (data : List UInt8) (bytes : Array UInt8) (a : Nat) :
    (data.foldl (fun s b => (s.1.setIfInBounds s.2 b, s.2 + 1)) (bytes, a)).1.size = bytes.size := by
  induction data generalizing bytes a with
  | nil => rfl
  | cons b r ih => simp [ih]

@[simp] theorem size_overwrite (bytes : Array UInt8) (a : Nat) (data : List UInt8) :
    (overwrite bytes a data).size = bytes.size :=
  size_foldl_overwrite data bytes a

theorem getElem?_foldl_overwrite (data : List UInt8) (bytes : Array UInt8) (a k : Nat)
    (h : a + data.length ≤ bytes.size) :
    (data.foldl (fun s b => (s.1.setIfInBounds s.2 b, s.2 + 1)) (bytes, a)).1[k]? =
      if a ≤ k ∧ k < a + data.length then data[k - a]? else bytes[k]? := by
  induction data generalizing bytes a with
  | nil =>
    simp only [List.foldl_nil, List.length_nil, Nat.add_zero]
    rw [if_neg (by omega)]
  | cons b r ih =>
    simp only [List.foldl_cons, List.length_cons] at h ⊢
    rw [ih _ _ (by simp; omega), Array.getElem?_setIfInBounds]
    rcases Nat.lt_trichotomy k a with hk | rfl | hk
    · rw [if_neg (by omega), if_neg (by omega), if_neg (by omega)]
    · rw [if_neg (by omega), if_pos rfl, if_pos (by omega), if_pos (by omega), Nat.sub_self,
        List.getElem?_cons_zero]
    · rw [show k - a = k - (a + 1) + 1 by omega, List.getElem?_cons_succ, if_neg (show ¬a = k by omega)]
      simp only [show (a + 1 ≤ k ∧ k < a + 1 + r.length) ↔ (a ≤ k ∧ k < a + (r.length + 1)) by omega]

theorem getElem?_overwrite (bytes : Array UInt8) (a k : Nat) (data : List UInt8)
    (h : a + data.length ≤ bytes.size) :
    (overwrite bytes a data)[k]? = if a ≤ k ∧ k < a + data.length then data[k - a]? else bytes[k]? :=
  getElem?_foldl_overwrite data bytes a k h

/-- Whether `length` bytes at `addr` lie in memory. -/
def holds (m : Memory) (addr : UInt16) (length : Nat) : Bool := addr.toNat + length ≤ m.size

/-- The bytes at `addr`. -/
def read (m : Memory) (addr : UInt16) (length : Nat) : Except Fault (List UInt8) :=
  if m.holds addr length then .ok (m.bytes.extract addr.toNat (addr.toNat + length)).toList
  else .error (.outOfBounds addr length)

theorem read_eq_error (m : Memory) (addr : UInt16) (length : Nat) (h : m.size < addr.toNat + length) :
    m.read addr length = .error (.outOfBounds addr length) := by
  rw [read, if_neg (by simpa [holds] using h)]

theorem read_eq_ok (m : Memory) (addr : UInt16) (length : Nat) (h : addr.toNat + length ≤ m.size) :
    ∃ block, m.read addr length = .ok block ∧ block.length = length ∧
      ∀ k < length, block[k]? = m.byte? (addr.toNat + k) := by
  refine ⟨_, by rw [read, if_pos (by simpa [holds] using h)], ?_, fun k hk => ?_⟩
  · rw [Array.length_toList, Array.size_extract]
    unfold size at h
    omega
  · rw [Array.getElem?_toList, Array.getElem?_extract, byte?, if_pos]
    unfold size at h
    omega

/-- Puts bytes at `addr`, all or none. -/
def write (m : Memory) (data : List UInt8) (addr : UInt16) : Except Fault Unit × Memory :=
  if m.holds addr data.length then
    (.ok (), { m with bytes := overwrite m.bytes addr.toNat data
                      le_size := by simpa using m.le_size
                      size_le := by simpa using m.size_le })
  else (.error (.outOfBounds addr data.length), m)

theorem size_write (m : Memory) (data : List UInt8) (addr : UInt16) : (m.write data addr).2.size = m.size := by
  unfold write
  split <;> simp [size]

theorem programAddr_write (m : Memory) (data : List UInt8) (addr : UInt16) :
    (m.write data addr).2.programAddr = m.programAddr := by
  unfold write
  split <;> rfl

theorem write_eq_error (m : Memory) (data : List UInt8) (addr : UInt16) (h : m.size < addr.toNat + data.length) :
    m.write data addr = (.error (.outOfBounds addr data.length), m) := by
  rw [write, if_neg (by simpa [holds] using h)]

theorem write_eq_ok (m : Memory) (data : List UInt8) (addr : UInt16) (h : addr.toNat + data.length ≤ m.size) :
    (m.write data addr).1 = .ok () := by
  rw [write, if_pos (by simpa [holds] using h)]

theorem byte?_write (m : Memory) (data : List UInt8) (addr : UInt16) (a : Nat)
    (h : addr.toNat + data.length ≤ m.size) :
    (m.write data addr).2.byte? a =
      if addr.toNat ≤ a ∧ a < addr.toNat + data.length then data[a - addr.toNat]? else m.byte? a := by
  rw [write, if_pos (by simpa [holds] using h)]
  exact getElem?_overwrite m.bytes addr.toNat a data h

/-- Puts `length` copies of one byte at `addr`. -/
def fill (m : Memory) (addr : UInt16) (length : Nat) (b : UInt8) : Except Fault Unit × Memory :=
  if m.holds addr length then m.write (List.replicate length b) addr
  else (.error (.outOfBounds addr length), m)

theorem fill_eq_write (m : Memory) (addr : UInt16) (length : Nat) (b : UInt8) :
    m.fill addr length b = m.write (List.replicate length b) addr := by
  rw [fill, write, List.length_replicate, ite_eq_left_iff]
  intro h
  rw [if_neg h]

/-- The word whose bytes start at `addr`. -/
def word (m : Memory) (addr : UInt16) : Except Fault Word :=
  match m.byte? addr.toNat, m.byte? (addr.toNat + 1) with
  | some high, some low => .ok (Word.ofBytes high low)
  | _, _ => .error (.outOfBounds addr 2)

theorem word_eq_error (m : Memory) (addr : UInt16) (h : m.size < addr.toNat + 2) :
    m.word addr = .error (.outOfBounds addr 2) := by
  have hlow : m.byte? (addr.toNat + 1) = none := Array.getElem?_eq_none (Nat.le_of_lt_succ h)
  rw [word, hlow]
  cases m.byte? addr.toNat <;> rfl

theorem word_eq_ok (m : Memory) (addr : UInt16) (h : addr.toNat + 2 ≤ m.size) :
    ∃ high low, m.byte? addr.toNat = some high ∧ m.byte? (addr.toNat + 1) = some low ∧
      m.word addr = .ok (Word.ofBytes high low) := by
  obtain ⟨high, hhigh⟩ := m.byte?_eq_some addr.toNat (by omega)
  obtain ⟨low, hlow⟩ := m.byte?_eq_some (addr.toNat + 1) (by omega)
  exact ⟨high, low, hhigh, hlow, by rw [word, hhigh, hlow]⟩

/-- Reads everything and puts it at `addr`; the answer is how many bytes that were. -/
def load (m : Memory) (r : Reader) (addr : UInt16) : Except Failure Nat × Memory :=
  match r.contents with
  | .error e => (.error (.input e), m)
  | .ok data =>
    match m.write data.toList addr with
    | (.ok (), m) => (.ok data.size, m)
    | (.error _, m) => (.error (.load addr data.size), m)

theorem load_served (m : Memory) (r : Reader) (addr : UInt16)
    (h : r.failure = none ∧ addr.toNat + r.bytes.size ≤ m.size) :
    m.load r addr = (.ok r.bytes.size, (m.write r.bytes.toList addr).2) := by
  have hok := m.write_eq_ok r.bytes.toList addr (by simpa using h.2)
  rcases hw : m.write r.bytes.toList addr with ⟨_, m'⟩
  rw [hw] at hok
  cases hok
  simp only [load, Reader.contents, h.1, hw]

theorem load_refused (m : Memory) (r : Reader) (addr : UInt16)
    (h : ¬(r.failure = none ∧ addr.toNat + r.bytes.size ≤ m.size)) : m.load r addr = (.error (r.refusal addr), m) := by
  cases hr : r.failure with
  | some e => simp only [load, Reader.contents, Reader.refusal, hr]
  | none =>
    have hroom : m.size < addr.toNat + r.bytes.size := Nat.lt_of_not_le fun hle => h ⟨hr, hle⟩
    have hwrite := m.write_eq_error r.bytes.toList addr (by simpa using hroom)
    simp only [load, Reader.contents, Reader.refusal, hr, hwrite]

/-- Loads where programs go. -/
def loadProgram (m : Memory) (r : Reader) : Except Failure Nat × Memory := m.load r m.programAddr

/-- Zeroes every byte. -/
def clear (m : Memory) : Memory :=
  { m with bytes := Array.replicate m.bytes.size 0
           le_size := by simpa using m.le_size
           size_le := by simpa using m.size_le }

theorem size_clear (m : Memory) : m.clear.size = m.size := Array.size_replicate

theorem byte?_clear (m : Memory) (a : Nat) (h : a < m.size) : m.clear.byte? a = some 0 :=
  (Array.getElem?_replicate ..).trans (if_pos h)

/-- Sets the byte at an address that is in memory. -/
def poke (m : Memory) (a : Nat) (b : UInt8) : Memory :=
  { m with bytes := m.bytes.setIfInBounds a b
           le_size := by simpa using m.le_size
           size_le := by simpa using m.size_le }

end Memory
end Chip8
