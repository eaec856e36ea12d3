import Chip8.Session

/-! How sessions start. Under settings without defects there is always a new session, and an image is loaded whenever
its bytes end inside memory. -/

namespace Chip8

theorem Settings.bounds_of_valid {s : Settings} (h : s.defect? = none) :
    minMemory ≤ s.memorySize ∧ s.memorySize ≤ maxMemory ∧ s.programAddr.toNat < s.memorySize := by
  unfold defect? at h
  split at h
  · cases h
  · split at h
    · cases h
    · omega

/-- Where the counter of a program starts. -/
def Program.start (addr : UInt16) : Program → UInt16
  | .listing _ => 0
  | .image _ => addr

/-- The memory of a machine that was just switched on: some bytes where programs go, and zero elsewhere. -/
structure Memory.Initial (m : Memory) (settings : Settings) (bytes : Array UInt8) : Prop where
  size : m.size = settings.memorySize
  programAddr : m.programAddr = settings.programAddr
  loaded : ∀ k < bytes.size, m.byte? (settings.programAddr.toNat + k) = bytes[k]?
  zero : ∀ a < settings.memorySize,
    a < settings.programAddr.toNat ∨ settings.programAddr.toNat + bytes.size ≤ a → m.byte? a = some 0

theorem Memory.room_of_load {m m' : Memory} {r : Reader} {addr : UInt16} {n : Nat}
    (h : m.load r addr = (.ok n, m')) : r.failure = none ∧ addr.toNat + r.bytes.size ≤ m.size := by
  refine Classical.byContradiction fun hno => ?_
  rw [m.load_refused r addr hno] at h
  cases h

theorem Memory.Initial.write {m : Memory} {settings : Settings} {bytes : Array UInt8} (h : m.Initial settings #[])
    (hroom : settings.programAddr.toNat + bytes.size ≤ settings.memorySize) :
    (m.write bytes.toList settings.programAddr).2.Initial settings bytes := by
  have hbyte := fun a => m.byte?_write bytes.toList settings.programAddr a (by simpa [h.size] using hroom)
  simp only [Array.length_toList, Array.getElem?_toList] at hbyte
  refine ⟨(size_write ..).trans h.size, (programAddr_write ..).trans h.programAddr, fun k hk => ?_, fun a ha hout => ?_⟩
  · rw [hbyte, if_pos ⟨Nat.le_add_right _ _, Nat.add_lt_add_left hk _⟩, Nat.add_sub_cancel_left]
  · rw [hbyte, if_neg (by omega)]
    exact h.zero a ha (Nat.lt_or_ge _ _)

namespace Session

variable {settings : Settings} {cpu : Interpreter} {program : Program}

theorem new_of_valid (h : settings.defect? = none) (hp : program.addressing = settings.addressing)
    (hc : cpu.addressing = settings.addressing) (random : RandomStream) :
    ∃ m : Memory, m.Initial settings #[] ∧ Session.new settings cpu random program = .ok
      { interpreter := cpu, program, programAddr := settings.programAddr
        world := ⟨{ Machine.fresh m with pc := program.start settings.programAddr }, random⟩ } := by
  obtain ⟨hmin, hmax, -⟩ := Settings.bounds_of_valid h
  refine ⟨⟨Array.replicate settings.memorySize 0, settings.programAddr, by simpa, by simpa⟩, ⟨?_, rfl, ?_, ?_⟩, ?_⟩
  · simp [Memory.size]
  · exact fun k hk => absurd hk (Nat.not_lt_zero k)
  · intro a ha _
    simp [Memory.byte?, ha]
  · simp only [Session.new, bind, Except.bind, pure, Except.pure, h, hp, hc, Machine.ofMemorySize, Memory.ofSize, hmin,
      hmax, and_self, dif_pos, ne_eq, not_true, or_self, if_false, Except.map]
    cases program <;> rfl

theorem exists_new (h : settings.defect? = none) (hp : program.addressing = settings.addressing)
    (hc : cpu.addressing = settings.addressing) (random : RandomStream) :
    ∃ s, Session.new settings cpu random program = .ok s := by
  obtain ⟨m, -, hnew⟩ := new_of_valid h hp hc random
  exact ⟨_, hnew⟩

/-- There is no session without settings that are valid, and that count as the program and the interpreter do. -/
theorem agree_of_new {random : RandomStream} {s : Session} (h : Session.new settings cpu random program = .ok s) :
    settings.defect? = none ∧ program.addressing = settings.addressing ∧ cpu.addressing = settings.addressing := by
  simp only [Session.new, bind, Except.bind, pure, Except.pure, throw, throwThe, MonadExceptOf.throw] at h
  cases hd : settings.defect? with
  | some defect =>
    rw [hd] at h
    cases h
  | none =>
    rw [hd] at h
    by_cases hagree : program.addressing ≠ settings.addressing ∨ cpu.addressing ≠ settings.addressing
    · rw [if_pos hagree] at h
      cases h
    · simp only [ne_eq, not_or, Decidable.not_not] at hagree
      exact ⟨rfl, hagree⟩

theorem steps_of_new {random : RandomStream} {s : Session} (h : Session.new settings cpu random program = .ok s) :
    s.steps = 0 := by
  obtain ⟨hvalid, hs, hc⟩ := agree_of_new h
  obtain ⟨m, -, hnew⟩ := new_of_valid hvalid hs hc random
  obtain rfl := Except.ok.inj (h.symm.trans hnew)
  rfl

theorem loadImage_of_room (h : settings.defect? = none) (hs : settings.addressing = .bytes)
    (hc : cpu.addressing = .bytes) (random : RandomStream) {bytes : Array UInt8}
    (hroom : settings.programAddr.toNat + bytes.size ≤ settings.memorySize) :
    ∃ m : Memory, m.Initial settings bytes ∧ Session.loadImage settings cpu random ⟨bytes, none⟩ = .ok
      { interpreter := cpu, program := .image bytes.size.toUInt64, programAddr := settings.programAddr
        world := ⟨{ Machine.fresh m with pc := settings.programAddr }, random⟩ } := by
  obtain ⟨m, hm, hnew⟩ := @new_of_valid settings cpu (.image 0) h hs.symm (hc.trans hs.symm) random
  refine ⟨_, hm.write hroom, ?_⟩
  have hload : m.loadProgram ⟨bytes, none⟩ = _ :=
    m.load_served ⟨bytes, none⟩ m.programAddr ⟨rfl, by rw [hm.programAddr, hm.size]; exact hroom⟩
  rw [hm.programAddr] at hload
  simp [loadImage, load, hnew, bind, Except.bind, machine, withMachine, Machine.fresh, hload, Program.start]

/-- An image that was loaded was read to its end and has room in memory. -/
theorem room_of_loadImage {random : RandomStream} {r : Reader} {s : Session}
    (h : Session.loadImage settings cpu random r = .ok s) :
    settings.defect? = none ∧ settings.addressing = .bytes ∧ cpu.addressing = .bytes ∧ r.failure = none ∧
      settings.programAddr.toNat + r.bytes.size ≤ settings.memorySize := by
  simp only [loadImage, bind, Except.bind] at h
  cases hnew : Session.new settings cpu random (.image 0) with
  | error f =>
    rw [hnew] at h
    cases h
  | ok t =>
    obtain ⟨hvalid, hs, hc⟩ := agree_of_new hnew
    obtain ⟨m, hm, ht⟩ := new_of_valid hvalid hs hc random
    obtain rfl := Except.ok.inj (hnew.symm.trans ht)
    rw [hnew] at h
    rcases hload : m.loadProgram r with ⟨f | n, m'⟩
    · simp only [load, machine, Machine.fresh, hload] at h
      cases h
    · obtain ⟨hread, hroom⟩ := Memory.room_of_load hload
      rw [hm.programAddr, hm.size] at hroom
      exact ⟨hvalid, hs.symm, hc.trans hs.symm, hread, hroom⟩

/-- An image that is not loaded could not be read, or has no room. -/
theorem refusal_of_loadImage {random : RandomStream} {r : Reader} {f : Failure} (hvalid : settings.defect? = none)
    (hs : settings.addressing = .bytes) (hc : cpu.addressing = .bytes)
    (h : Session.loadImage settings cpu random r = .error f) : ∃ addr, f = r.refusal addr := by
  obtain ⟨m, -, hnew⟩ := @new_of_valid settings cpu (.image 0) hvalid hs.symm (hc.trans hs.symm) random
  simp only [loadImage, hnew, bind, Except.bind, load, machine, Machine.fresh] at h
  by_cases hroom : r.failure = none ∧ m.programAddr.toNat + r.bytes.size ≤ m.size
  · rw [Memory.loadProgram, m.load_served r _ hroom] at h
    cases h
  · rw [Memory.loadProgram, m.load_refused r _ hroom] at h
    cases h
    exact ⟨_, rfl⟩

end Session
end Chip8
