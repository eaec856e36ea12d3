import Chip8.Memory

/-! Memory as a finite map of bytes, whatever is called on it and in whatever order. A call reaches all of its bytes or
is refused and changes none. A byte is the last that was written at its address since memory was cleared, or else
zero; and that is what a read brings back. -/

namespace Chip8.Memory

/-- The sum of an address and a length in 64 bits, where it does not wrap. -/
def checkedEnd? (addr : UInt16) (length : UInt64) : Option UInt64 :=
  let sum := addr.toUInt64 + length
  -- a sum that wraps is less than either of its parts
  if sum < length then none else some sum

theorem checkedEnd?_eq_some_iff {addr : UInt16} {length sum : UInt64} :
    checkedEnd? addr length = some sum ↔ addr.toNat + length.toNat = sum.toNat := by
  have haddr := addr.toNat_lt
  have hlength := length.toNat_lt
  have hsum := sum.toNat_lt
  have hadd : (addr.toUInt64 + length).toNat = (addr.toNat + length.toNat) % 2 ^ 64 := by
    rw [UInt64.toNat_add, UInt16.toNat_toUInt64]
  simp only [checkedEnd?, Option.ite_none_left_eq_some, Option.some.injEq, UInt64.lt_iff_toNat_lt, ← UInt64.toNat_inj,
    hadd]
  omega

/-- Lengths of 64 bits are checked as integers. -/
theorem holds_iff_checkedEnd (m : Memory) (addr : UInt16) (length : UInt64) :
    m.holds addr length.toNat ↔ ∃ sum, checkedEnd? addr length = some sum ∧ sum.toNat ≤ m.size := by
  have hsize : m.size ≤ 65536 := m.size_le
  rw [holds, decide_eq_true_iff]
  constructor
  · intro h
    refine ⟨UInt64.ofNat (addr.toNat + length.toNat), ?_⟩
    have hlt : addr.toNat + length.toNat < UInt64.size := by
      unfold UInt64.size
      omega
    have hsum := UInt64.toNat_ofNat_of_lt' hlt
    exact ⟨checkedEnd?_eq_some_iff.2 hsum.symm, hsum.symm ▸ h⟩
  · rintro ⟨sum, hsum, hle⟩
    exact (checkedEnd?_eq_some_iff.1 hsum).symm ▸ hle

/-! ### Calls -/

/-- What can be asked of memory. Bytes that are lent are read. -/
inductive Call
  | write (data : List UInt8) (addr : UInt16)
  | load (r : Reader) (addr : UInt16)
  | loadProgram (r : Reader)
  | fill (addr : UInt16) (length : UInt64) (b : UInt8)
  | clear
  | read (addr : UInt16) (length : UInt64)
  | word (addr : UInt16)

/-- What a call brings back. -/
inductive Value
  | done
  | loaded (length : Nat)
  | block (data : List UInt8)
  | word (w : Word)

/-- Why a call is refused. -/
inductive Refusal
  | fault (f : Fault)
  | failure (f : Failure)

/-- The outcome of one call in the terms of all calls. -/
def outcome {ε α : Type} (refusal : ε → Refusal) (value : α → Value) : Except ε α → Except Refusal Value
  | .error e => .error (refusal e)
  | .ok v => .ok (value v)

def call (m : Memory) : Call → Except Refusal Value × Memory
  | .write data addr => (m.write data addr).map (outcome .fault fun () => .done) id
  | .load r addr => (m.load r addr).map (outcome .failure .loaded) id
  | .loadProgram r => (m.loadProgram r).map (outcome .failure .loaded) id
  | .fill addr length b => (m.fill addr length.toNat b).map (outcome .fault fun () => .done) id
  | .clear => (.ok .done, m.clear)
  | .read addr length => (outcome .fault .block (m.read addr length.toNat), m)
  | .word addr => (outcome .fault .word (m.word addr), m)

/-- The memory that the first `n` of the calls leave. -/
def after (m : Memory) (calls : List Call) (n : Nat) : Memory := (calls.take n).foldl (fun m c => (m.call c).2) m

namespace Call

variable (programAddr : UInt16)

/-- Where the bytes start that a call asks for. A clear asks for none in particular. -/
def addr : Call → UInt16
  | write _ addr | load _ addr | fill addr .. | read addr _ | word addr => addr
  | loadProgram _ => programAddr
  | clear => 0

/-- How many bytes a call asks for. -/
def length : Call → Nat
  | write data _ => data.length
  | load r _ | loadProgram r => r.bytes.size
  | fill _ length _ | read _ length => length.toNat
  | clear => 0
  | word _ => 2

/-- The bytes that a call puts in memory. -/
def data? : Call → Option (List UInt8)
  | write data _ => some data
  | load r _ | loadProgram r => some r.bytes.toList
  | fill _ length b => some (List.replicate length.toNat b)
  | clear | read .. | word _ => none

def inputError? : Call → Option InputError
  | load r _ | loadProgram r => r.failure
  | _ => none

/-- The bytes that a call puts can be read, and those that it asks for end inside so much memory. -/
def Fits (size : Nat) (c : Call) : Prop :=
  c.inputError? = none ∧ (c.addr programAddr).toNat + c.length ≤ size

/-- The answer to a call that does not fit. -/
def refusal : Call → Refusal
  | load r addr => .failure (r.refusal addr)
  | loadProgram r => .failure (r.refusal programAddr)
  | c => .fault (.outOfBounds (c.addr programAddr) c.length)

/-- What a call brings back of bytes that are told by their addresses. -/
def Brings (byteAt : Nat → UInt8 → Prop) : Call → Value → Prop
  | write .., v | fill .., v | clear, v => v = .done
  | load r _, v | loadProgram r, v => v = .loaded r.bytes.size
  | read addr length, v => ∃ data, v = .block data ∧ data.length = length.toNat ∧
      ∀ k b, data[k]? = some b → byteAt (addr.toNat + k) b
  | word addr, v => ∃ high low w, v = .word w ∧ byteAt addr.toNat high ∧ byteAt (addr.toNat + 1) low ∧
      w.toNat = 256 * high.toNat + low.toNat

/-- What a call that fits makes of memory. -/
structure Does (c : Call) (m m' : Memory) : Prop where
  size : m'.size = m.size
  programAddr : m'.programAddr = m.programAddr
  put : ∀ data, c.data? = some data → data.length = c.length ∧ ∀ a, m'.byte? a =
    if (c.addr m.programAddr).toNat ≤ a ∧ a < (c.addr m.programAddr).toNat + c.length then
      data[a - (c.addr m.programAddr).toNat]?
    else m.byte? a
  cleared : c = .clear → ∀ a < m.size, m'.byte? a = some 0
  kept : c.data? = none → c ≠ .clear → m' = m

end Call

variable {m : Memory} {calls : List Call} {n a : Nat} {b : UInt8} {c : Call}

theorem call_of_not_fits (h : ¬c.Fits m.programAddr m.size) : m.call c = (.error (c.refusal m.programAddr), m) := by
  cases c with
  | write data addr =>
    have hroom : m.size < addr.toNat + data.length := Nat.lt_of_not_le fun hle => h ⟨rfl, hle⟩
    rw [call, m.write_eq_error data addr hroom]
    rfl
  | load r addr =>
    rw [call, m.load_refused r addr h]
    rfl
  | loadProgram r =>
    rw [call, loadProgram, m.load_refused r m.programAddr h]
    rfl
  | fill addr length b =>
    have hroom : m.size < addr.toNat + length.toNat := Nat.lt_of_not_le fun hle => h ⟨rfl, hle⟩
    rw [call, fill_eq_write, m.write_eq_error _ addr (by rwa [List.length_replicate]), List.length_replicate]
    rfl
  | clear => exact absurd ⟨rfl, Nat.zero_le _⟩ h
  | read addr length =>
    have hroom : m.size < addr.toNat + length.toNat := Nat.lt_of_not_le fun hle => h ⟨rfl, hle⟩
    rw [call, m.read_eq_error addr _ hroom]
    rfl
  | word addr =>
    have hroom : m.size < addr.toNat + 2 := Nat.lt_of_not_le fun hle => h ⟨rfl, hle⟩
    rw [call, m.word_eq_error addr hroom]
    rfl

/-- A call that puts bytes and fits is a write of them. -/
theorem call_of_data {data : List UInt8} (hd : c.data? = some data) (h : c.Fits m.programAddr m.size) :
    data.length = c.length ∧ ∃ v, (∀ byteAt, c.Brings byteAt v) ∧
      m.call c = (.ok v, (m.write data (c.addr m.programAddr)).2) := by
  cases c with
  | write data' addr =>
    cases hd
    refine ⟨rfl, .done, fun _ => rfl, ?_⟩
    rw [call, Prod.map, m.write_eq_ok data addr h.2]
    rfl
  | load r addr =>
    cases hd
    refine ⟨Array.length_toList, _, fun _ => rfl, ?_⟩
    rw [call, m.load_served r addr h]
    rfl
  | loadProgram r =>
    cases hd
    refine ⟨Array.length_toList, _, fun _ => rfl, ?_⟩
    rw [call, loadProgram, m.load_served r m.programAddr h]
    rfl
  | fill addr length b =>
    cases hd
    refine ⟨List.length_replicate, .done, fun _ => rfl, ?_⟩
    rw [call, fill_eq_write, Prod.map, m.write_eq_ok _ addr (by rw [List.length_replicate]; exact h.2)]
    rfl
  | clear | read | word => cases hd

theorem call_of_fits (h : c.Fits m.programAddr m.size) :
    ∃ v, (m.call c).1 = .ok v ∧ c.Brings (fun a b => m.byte? a = some b) v ∧ c.Does m (m.call c).2 := by
  cases hd : c.data? with
  | some data =>
    obtain ⟨hlength, v, hbrings, hcall⟩ := call_of_data hd h
    refine ⟨v, by rw [hcall], hbrings _, ?_, ?_, fun data' hd' => ?_, ?_, ?_⟩
    · rw [hcall, size_write]
    · rw [hcall, programAddr_write]
    · cases hd.symm.trans hd'
      have hbyte := fun a => m.byte?_write data (c.addr m.programAddr) a (by rw [hlength]; exact h.2)
      rw [hlength] at hbyte
      exact ⟨hlength, fun a => by rw [hcall, hbyte]⟩
    · rintro rfl
      cases hd
    · intro hnone
      cases hd.symm.trans hnone
  | none =>
    cases c with
    | clear =>
      exact ⟨.done, rfl, rfl, m.size_clear, rfl, nofun, fun _ a ha => m.byte?_clear a ha, fun _ hne => absurd rfl hne⟩
    | read addr length =>
      obtain ⟨data, hread, hlength, hbytes⟩ := m.read_eq_ok addr length.toNat h.2
      refine ⟨.block data, by rw [call, hread]; rfl, ⟨data, rfl, hlength, fun k b hb => ?_⟩, rfl, rfl, nofun, nofun,
        fun _ _ => rfl⟩
      obtain ⟨hk, -⟩ := List.getElem?_eq_some_iff.1 hb
      exact (hbytes k (hlength ▸ hk)).symm.trans hb
    | word addr =>
      obtain ⟨high, low, hhigh, hlow, hword⟩ := m.word_eq_ok addr h.2
      exact ⟨.word _, by rw [call, hword]; rfl, ⟨high, low, _, rfl, hhigh, hlow, Word.toNat_ofBytes high low⟩, rfl, rfl,
        nofun, nofun, fun _ _ => rfl⟩
    | write | load | loadProgram | fill => cases hd

theorem fits_of_ok {v : Value} (h : (m.call c).1 = .ok v) : c.Fits m.programAddr m.size := by
  refine Classical.byContradiction fun hfits => ?_
  rw [call_of_not_fits hfits] at h
  cases h

theorem size_call (m : Memory) (c : Call) :
    (m.call c).2.size = m.size ∧ (m.call c).2.programAddr = m.programAddr := by
  by_cases h : c.Fits m.programAddr m.size
  · obtain ⟨v, -, -, hdoes⟩ := call_of_fits h
    exact ⟨hdoes.size, hdoes.programAddr⟩
  · rw [call_of_not_fits h]
    exact ⟨rfl, rfl⟩

/-- The call is answered, and puts the byte at the address. -/
def Puts (m : Memory) (c : Call) (a : Nat) (b : UInt8) : Prop :=
  ∃ v data, (m.call c).1 = .ok v ∧ c.data? = some data ∧ (c.addr m.programAddr).toNat ≤ a ∧
    data[a - (c.addr m.programAddr).toNat]? = some b

theorem Puts.unique {b' : UInt8} (h : m.Puts c a b) (h' : m.Puts c a b') : b = b' := by
  obtain ⟨-, data, -, hd, -, hb⟩ := h
  obtain ⟨-, data', -, hd', -, hb'⟩ := h'
  cases hd.symm.trans hd'
  exact Option.some.inj (hb.symm.trans hb')

/-- A call makes a byte zero, or the one that it puts there, or leaves it. -/
theorem byte?_call (m : Memory) (c : Call) (ha : a < m.size) :
    (c = .clear ∧ (m.call c).2.byte? a = some 0) ∨ (∃ b, m.Puts c a b ∧ (m.call c).2.byte? a = some b) ∨
      (c ≠ .clear ∧ (∀ b, ¬m.Puts c a b) ∧ (m.call c).2.byte? a = m.byte? a) := by
  by_cases hfits : c.Fits m.programAddr m.size
  · obtain ⟨v, hv, -, hdoes⟩ := call_of_fits hfits
    cases hd : c.data? with
    | none =>
      by_cases hclear : c = .clear
      · exact .inl ⟨hclear, hdoes.cleared hclear a ha⟩
      · refine .inr (.inr ⟨hclear, ?_, by rw [hdoes.kept hd hclear]⟩)
        rintro b ⟨-, data, -, hd', -⟩
        cases hd.symm.trans hd'
    | some data =>
      have hclear : c ≠ .clear := by
        rintro rfl
        cases hd
      obtain ⟨hlength, hput⟩ := hdoes.put data hd
      specialize hput a
      split at hput
      · next hin =>
        have hb := List.getElem?_eq_getElem (show a - (c.addr m.programAddr).toNat < data.length by omega)
        exact .inr (.inl ⟨_, ⟨v, data, hv, hd, hin.1, hb⟩, hput.trans hb⟩)
      · next hout =>
        refine .inr (.inr ⟨hclear, ?_, hput⟩)
        rintro b ⟨-, data', -, hd', hle, hb⟩
        cases hd.symm.trans hd'
        obtain ⟨hlt, -⟩ := List.getElem?_eq_some_iff.1 hb
        exact hout ⟨hle, by omega⟩
  · refine .inr (.inr ⟨?_, ?_, by rw [call_of_not_fits hfits]⟩)
    · rintro rfl
      exact hfits ⟨rfl, Nat.zero_le _⟩
    · rintro b ⟨v, -, hv, -⟩
      exact hfits (fits_of_ok hv)

/-! ### Sequences of calls -/

theorem after_succ (h : calls[n]? = some c) : m.after calls (n + 1) = ((m.after calls n).call c).2 := by
  rw [after, List.take_add_one, h, Option.toList_some, List.foldl_append]
  rfl

theorem after_succ_of_none (h : calls[n]? = none) : m.after calls (n + 1) = m.after calls n := by
  rw [after, List.take_add_one, h, Option.toList_none, List.append_nil]
  rfl

theorem size_after (m : Memory) (calls : List Call) (n : Nat) :
    (m.after calls n).size = m.size ∧ (m.after calls n).programAddr = m.programAddr := by
  induction n with
  | zero => exact ⟨rfl, rfl⟩
  | succ n ih =>
    cases hc : calls[n]? with
    | none => rwa [after_succ_of_none hc]
    | some c =>
      rw [after_succ hc]
      have hsize := (m.after calls n).size_call c
      exact ⟨hsize.1.trans ih.1, hsize.2.trans ih.2⟩

/-- The `n`th call is answered, and puts the byte at the address. -/
def Writes (m : Memory) (calls : List Call) (n a : Nat) (b : UInt8) : Prop :=
  ∃ c, calls[n]? = some c ∧ (m.after calls n).Puts c a b

/-- Of the calls before the `n`th, the `j`th is the last that puts a byte at the address, and memory has not been
cleared since. -/
structure LastWrite (m : Memory) (calls : List Call) (j n a : Nat) (b : UInt8) : Prop where
  before : j < n
  writes : m.Writes calls j a b
  last : ∀ k, j < k → k < n → calls[k]? ≠ some .clear ∧ ∀ b', ¬m.Writes calls k a b'

/-- The last byte that was put at the address since memory was cleared, or else zero. -/
def Holds (m : Memory) (calls : List Call) (n a : Nat) (b : UInt8) : Prop :=
  (∃ j, m.LastWrite calls j n a b) ∨ b = 0 ∧ ∀ j b', ¬m.LastWrite calls j n a b'

theorem writes_iff (hc : calls[n]? = some c) : m.Writes calls n a b ↔ (m.after calls n).Puts c a b := by
  simp only [Writes, hc, Option.some.injEq, exists_eq_left']

theorem lastWrite_succ_iff {j : Nat} :
    m.LastWrite calls j (n + 1) a b ↔ (j = n ∧ m.Writes calls n a b) ∨
      (m.LastWrite calls j n a b ∧ calls[n]? ≠ some .clear ∧ ∀ b', ¬m.Writes calls n a b') := by
  constructor
  · intro h
    rcases Nat.lt_succ_iff_lt_or_eq.1 h.before with hjn | rfl
    · have hlast : m.LastWrite calls j n a b := ⟨hjn, h.writes, fun k hjk hkn => h.last k hjk (Nat.lt_succ_of_lt hkn)⟩
      exact .inr ⟨hlast, h.last n hjn (Nat.lt_succ_self n)⟩
    · exact .inl ⟨rfl, h.writes⟩
  · rintro (⟨rfl, hwrites⟩ | ⟨h, hn⟩)
    · exact ⟨Nat.lt_succ_self j, hwrites, fun k hjk hkj => absurd hjk (Nat.not_lt.2 (Nat.le_of_lt_succ hkj))⟩
    · refine ⟨Nat.lt_succ_of_lt h.before, h.writes, fun k hjk hkn => ?_⟩
      rcases Nat.lt_succ_iff_lt_or_eq.1 hkn with hkn | rfl
      · exact h.last k hjk hkn
      · exact hn

theorem holds_of_no_write (h : ∀ j b', ¬m.LastWrite calls j n a b') : m.Holds calls n a b ↔ b = 0 :=
  ⟨fun hb => hb.elim (fun ⟨j, hj⟩ => absurd hj (h j b)) And.left, fun hb => .inr ⟨hb, h⟩⟩

theorem holds_succ_of_clear (hc : calls[n]? = some .clear) : m.Holds calls (n + 1) a b ↔ b = 0 := by
  refine holds_of_no_write fun j b' hj => ?_
  rcases lastWrite_succ_iff.1 hj with ⟨rfl, hwrites⟩ | ⟨-, hclear, -⟩
  · obtain ⟨-, data, -, hd, -⟩ := (writes_iff hc).1 hwrites
    cases hd
  · exact hclear hc

theorem holds_succ_of_writes {b' : UInt8} (hc : calls[n]? = some c) (h : (m.after calls n).Puts c a b') :
    m.Holds calls (n + 1) a b ↔ b' = b := by
  have hwrites := (writes_iff hc).2 h
  constructor
  · rintro (⟨j, hj⟩ | ⟨-, hnone⟩)
    · rcases lastWrite_succ_iff.1 hj with ⟨rfl, hb⟩ | ⟨-, -, hnot⟩
      · exact h.unique ((writes_iff hc).1 hb)
      · exact absurd hwrites (hnot b')
    · exact absurd (lastWrite_succ_iff.2 (.inl ⟨rfl, hwrites⟩)) (hnone n b')
  · rintro rfl
    exact .inl ⟨n, lastWrite_succ_iff.2 (.inl ⟨rfl, hwrites⟩)⟩

theorem holds_succ_of_kept (hclear : calls[n]? ≠ some .clear) (hnot : ∀ b', ¬m.Writes calls n a b') :
    m.Holds calls (n + 1) a b ↔ m.Holds calls n a b := by
  have hlast : ∀ j b', m.LastWrite calls j (n + 1) a b' ↔ m.LastWrite calls j n a b' := by
    intro j b'
    rw [lastWrite_succ_iff, or_iff_right fun h => hnot b' h.2]
    exact and_iff_left ⟨hclear, hnot⟩
  simp only [Holds, hlast]

/-- Memory that was blank holds what was written last. -/
theorem byte?_after_iff (hblank : ∀ a < m.size, m.byte? a = some 0) (ha : a < m.size) :
    (m.after calls n).byte? a = some b ↔ m.Holds calls n a b := by
  induction n generalizing b with
  | zero =>
    have hzero : (m.after calls 0).byte? a = some 0 := hblank a ha
    rw [hzero, holds_of_no_write fun j b' h => Nat.not_lt_zero j h.before, Option.some_inj, eq_comm]
  | succ n ih =>
    cases hc : calls[n]? with
    | none => rw [after_succ_of_none hc, ih, holds_succ_of_kept (by simp [hc]) (by simp [Writes, hc])]
    | some c =>
      rw [after_succ hc]
      have ha' : a < (m.after calls n).size := (m.size_after calls n).1 ▸ ha
      -- what the call makes of the byte is what it makes of the history
      rcases (m.after calls n).byte?_call c ha' with ⟨rfl, hb⟩ | ⟨b', hputs, hb⟩ | ⟨hclear, hnot, hb⟩
      · rw [hb, holds_succ_of_clear hc, Option.some_inj, eq_comm]
      · rw [hb, holds_succ_of_writes hc hputs, Option.some_inj]
      · rw [hb, ih, holds_succ_of_kept]
        · rwa [hc, ne_eq, Option.some_inj]
        · exact fun b' hb' => hnot b' ((writes_iff hc).1 hb')

/-- What memory holds after `n` of the calls, and what the next one does. -/
structure IsByteMap (m : Memory) (calls : List Call) (n : Nat) : Prop where
  size : (m.after calls n).size = m.size
  programAddr : (m.after calls n).programAddr = m.programAddr
  held : ∀ a < m.size, ∀ b, (m.after calls n).byte? a = some b ↔ m.Holds calls n a b
  succeeds : ∀ c, calls[n]? = some c →
    ((∃ v, ((m.after calls n).call c).1 = .ok v) ↔ c.Fits m.programAddr m.size)
  served : ∀ c v, calls[n]? = some c → ((m.after calls n).call c).1 = .ok v →
    c.Brings (m.Holds calls n) v ∧ c.Does (m.after calls n) (m.after calls (n + 1))
  refused : ∀ c r, calls[n]? = some c → ((m.after calls n).call c).1 = .error r →
    r = c.refusal m.programAddr ∧ m.after calls (n + 1) = m.after calls n

theorem Call.Brings.mono {P Q : Nat → UInt8 → Prop} {v : Value} (h : ∀ a b, P a b → Q a b) (hP : c.Brings P v) :
    c.Brings Q v := by
  cases c with
  | read addr length =>
    obtain ⟨data, hv, hlength, hbytes⟩ := hP
    exact ⟨data, hv, hlength, fun k b hb => h _ b (hbytes k b hb)⟩
  | word addr =>
    obtain ⟨high, low, w, hv, hhigh, hlow, hw⟩ := hP
    exact ⟨high, low, w, hv, h _ high hhigh, h _ low hlow, hw⟩
  | write | load | loadProgram | fill | clear => exact hP

theorem isByteMap_of_blank (hblank : ∀ a < m.size, m.byte? a = some 0) (calls : List Call) (n : Nat) :
    m.IsByteMap calls n := by
  obtain ⟨hsize, haddr⟩ := m.size_after calls n
  have hheld : ∀ a b, (m.after calls n).byte? a = some b → m.Holds calls n a b := by
    intro a b hb
    obtain ⟨ha, -⟩ := Array.getElem?_eq_some_iff.1 hb
    exact (byte?_after_iff hblank (hsize ▸ ha)).1 hb
  refine ⟨hsize, haddr, fun a ha b => byte?_after_iff hblank ha, fun c hc => ?_, fun c v hc hv => ?_,
    fun c r hc hr => ?_⟩
  · rw [← hsize, ← haddr]
    refine ⟨fun ⟨v, hv⟩ => fits_of_ok hv, fun hfits => ?_⟩
    obtain ⟨v, hv, -⟩ := call_of_fits hfits
    exact ⟨v, hv⟩
  · obtain ⟨v', hv', hbrings, hdoes⟩ := call_of_fits (fits_of_ok hv)
    cases hv.symm.trans hv'
    rw [after_succ hc]
    exact ⟨hbrings.mono hheld, hdoes⟩
  · have hfits : ¬c.Fits (m.after calls n).programAddr (m.after calls n).size := by
      intro hfits
      obtain ⟨v, hv, -⟩ := call_of_fits hfits
      cases hr.symm.trans hv
    rw [after_succ hc]
    rw [call_of_not_fits hfits] at hr ⊢
    cases hr
    exact ⟨by rw [haddr], rfl⟩

theorem ofSize_isByteMap (size : Nat) (hmin : 4096 ≤ size) (hmax : size ≤ 65536) :
    ∃ m, Memory.ofSize size = .ok m ∧ m.size = size ∧
      (∀ programAddr calls n, IsByteMap { m with programAddr } calls n) ∧
      ∀ addr length, m.holds addr length.toNat ↔ ∃ sum, checkedEnd? addr length = some sum ∧ sum.toNat ≤ m.size := by
  refine ⟨_, dif_pos ⟨hmin, hmax⟩, Array.size_replicate, fun programAddr => ?_, holds_iff_checkedEnd _⟩
  refine isByteMap_of_blank fun a ha => ?_
  have ha : a < size := Nat.lt_of_lt_of_eq ha Array.size_replicate
  exact Array.getElem?_replicate.trans (if_pos ha)

set_option maxRecDepth 40000 in
/-- A write that ends with the last byte of memory, a fill that would pass it, bytes that cannot be read, and a read. -/
theorem ofSize_isByteMap_atEnd :
    let calls : List Call :=
      [.write [1, 2] 0xFFE, .fill 0xFFF 0xFFFFFFFFFFFFFFFF 9, .load ⟨#[3], some .notText⟩ 0xFFF, .read 0xFFE 2]
    ∃ m, Memory.ofSize 4096 = .ok m ∧
      ((m.after calls 1).call (.fill 0xFFF 0xFFFFFFFFFFFFFFFF 9)).1 =
        .error (.fault (.outOfBounds 0xFFF 0xFFFFFFFFFFFFFFFF)) ∧
      ((m.after calls 3).call (.read 0xFFE 2)).1 = .ok (.block [1, 2]) ∧ m.Holds calls 3 0xFFF 2 := by
  intro calls
  obtain ⟨m, hm, -, hmap, -⟩ := ofSize_isByteMap 4096 (by decide) (by decide)
  obtain rfl : m = Memory.blank := Except.ok.inj (hm.symm.trans rfl)
  have hread : ((Memory.blank.after calls 3).call (.read 0xFFE 2)).1 = .ok (.block [1, 2]) := rfl
  obtain ⟨⟨data, hdata, -, hbytes⟩, -⟩ := (hmap _ calls 3).served _ _ rfl hread
  cases hdata
  exact ⟨_, hm, rfl, hread, hbytes 1 2 rfl⟩

end Chip8.Memory
