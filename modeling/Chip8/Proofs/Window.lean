import Chip8.Proofs.History

/-! What a session fetches. A listing serves the word at the counter, and an image the two bytes there, as long as both
lie in its window and in memory. The end of the window is a sum of 64 bits, which is that of integers as long as these
hold it; where they do not, the program is given up as soon as the counter has to be compared with it. -/

namespace Chip8.Session

variable {s : Session} {word : Word} {length : UInt64} {words : Array Word}

theorem fetch_image (hp : s.program = .image length) (h : s.programAddr.toNat + length.toNat < UInt64.size) :
    s.fetch = .ok (if s.machine.pc.toNat < s.programAddr.toNat ∨
        s.programAddr.toNat + length.toNat < s.machine.pc.toNat + 2 then none
      else (s.machine.memory.word s.machine.pc).toOption) := by
  simp only [fetch, hp, UInt16.lt_iff_toNat_lt, if_neg (Nat.not_le_of_lt h)]
  split
  · next hbefore => rw [if_pos (.inl hbefore)]
  · next hbefore => simp only [hbefore, false_or, apply_ite Except.ok]

/-- The length of an image that may lie in memory is not cut. -/
theorem fetch_image_of_le {n : Nat} (hp : s.program = .image n.toUInt64) (h : n ≤ 65536) :
    s.fetch = .ok (if s.machine.pc.toNat < s.programAddr.toNat ∨ s.programAddr.toNat + n < s.machine.pc.toNat + 2
      then none else (s.machine.memory.word s.machine.pc).toOption) := by
  have haddr := s.programAddr.toNat_lt
  have hn : n.toUInt64.toNat = n := UInt64.toNat_ofNat_of_lt' (by unfold UInt64.size; omega)
  rw [fetch_image hp (by unfold UInt64.size; omega), hn]

theorem step_of_overflow (hp : s.program = .image length)
    (h : UInt64.size ≤ s.programAddr.toNat + length.toNat) :
    s.step = (if s.machine.pc.toNat < s.programAddr.toNat then .ok none else .error .overflow, s) := by
  by_cases hbefore : s.machine.pc.toNat < s.programAddr.toNat
  · rw [if_pos hbefore]
    exact step_of_fetch_none (by simp only [fetch, hp, UInt16.lt_iff_toNat_lt, if_pos hbefore])
  · rw [if_neg hbefore]
    exact step_of_fetch_error (fetch_eq_error_iff.2 ⟨rfl, length, hp, Nat.le_of_not_lt hbefore, h⟩)

/-- A step is the dispatch of this word, after which the session moves on. -/
def Dispatches (s : Session) (word : Word) : Prop :=
  s.step = match s.interpreter.dispatch word s.world with
    | (.ok d, w) => (.ok (some d), s.advance w)
    | (.error failure, w) => (.error failure, { s with world := w })

theorem Dispatches.step_ne_none (h : s.Dispatches word) : s.step.1 ≠ .ok none := by
  unfold Dispatches at h
  rw [h]
  rcases s.interpreter.dispatch word s.world with ⟨_ | _, w⟩ <;> nofun

theorem step_eq_none_iff (s : Session) : s.step.1 = .ok none ↔ s.fetch = .ok none := by
  rcases hf : s.fetch with f | _ | word
  · simp [step_of_fetch_error hf]
  · simp [step_of_fetch_none hf]
  · simpa using Dispatches.step_ne_none (step_of_fetch hf)

theorem step_of_none (h : s.step.1 = .ok none) : s.step.2 = s := by
  rw [step_of_fetch_none ((step_eq_none_iff s).1 h)]

/-- What a step makes of an image of so many bytes, in sums of integers. -/
structure ServesImage (s : Session) (length : Nat) : Prop where
  ended : s.step.1 = .ok none ↔ s.machine.pc.toNat < s.programAddr.toNat ∨
    s.programAddr.toNat + length < s.machine.pc.toNat + 2 ∨ s.machine.memory.size < s.machine.pc.toNat + 2
  unchanged : s.step.1 = .ok none → s.step.2 = s
  served : s.step.1 ≠ .ok none → ∃ high low word, s.machine.memory.byte? s.machine.pc.toNat = some high ∧
    s.machine.memory.byte? (s.machine.pc.toNat + 1) = some low ∧ word.toNat = 256 * high.toNat + low.toNat ∧
    s.Dispatches word

theorem servesImage (hp : s.program = .image length) (h : s.programAddr.toNat + length.toNat < UInt64.size) :
    s.ServesImage length.toNat := by
  have hfetch := fetch_image hp h
  have hserved : s.fetch ≠ .ok none → ∃ high low word, s.machine.memory.byte? s.machine.pc.toNat = some high ∧
      s.machine.memory.byte? (s.machine.pc.toNat + 1) = some low ∧ word.toNat = 256 * high.toNat + low.toNat ∧
      s.Dispatches word := by
    intro hsome
    by_cases hroom : s.machine.pc.toNat + 2 ≤ s.machine.memory.size
    · obtain ⟨high, low, hhigh, hlow, hword⟩ := s.machine.memory.word_eq_ok s.machine.pc hroom
      refine ⟨high, low, _, hhigh, hlow, Word.toNat_ofBytes high low, step_of_fetch ?_⟩
      rw [hfetch, hword] at hsome ⊢
      split at hsome
      · exact absurd rfl hsome
      · next hin => rw [if_neg hin]; rfl
    · rw [hfetch, s.machine.memory.word_eq_error s.machine.pc (Nat.lt_of_not_le hroom)] at hsome
      exact absurd (congrArg Except.ok (ite_self none)) hsome
  refine ⟨?_, step_of_none, fun hsome => hserved (mt (step_eq_none_iff s).2 hsome)⟩
  rw [step_eq_none_iff, hfetch, Except.ok.injEq, ← or_assoc]
  split
  · next hout => simp [hout]
  · next hin =>
    rw [or_iff_right hin]
    by_cases hroom : s.machine.pc.toNat + 2 ≤ s.machine.memory.size
    · obtain ⟨high, low, -, -, hword⟩ := s.machine.memory.word_eq_ok s.machine.pc hroom
      simp [hword, Except.toOption, Nat.not_lt.2 hroom]
    · simp [s.machine.memory.word_eq_error s.machine.pc (Nat.lt_of_not_le hroom), Except.toOption,
        Nat.lt_of_not_le hroom]

/-- What a step makes of a listing. -/
structure ServesListing (s : Session) (words : Array Word) : Prop where
  ended : s.step.1 = .ok none ↔ words.size ≤ s.machine.pc.toNat
  unchanged : s.step.1 = .ok none → s.step.2 = s
  served : ∀ h : s.machine.pc.toNat < words.size, s.Dispatches words[s.machine.pc.toNat]

theorem servesListing (hp : s.program = .listing words) : s.ServesListing words := by
  refine ⟨?_, step_of_none, fun h => step_of_fetch ?_⟩
  · rw [step_eq_none_iff, fetch_listing hp, Except.ok.injEq]
    exact Array.getElem?_eq_none_iff
  · rw [fetch_listing hp, Array.getElem?_eq_getElem h]

section Loading

variable {settings : Settings} {bytes : Array UInt8}

/-- An image is loaded just if settings and interpreter count in bytes and memory has room for it. -/
theorem exists_loadImage_iff (h : settings.defect? = none) (cpu : Interpreter) (random : RandomStream) :
    (∃ s, Session.loadImage settings cpu random ⟨bytes, none⟩ = .ok s) ↔ settings.addressing = .bytes ∧
      cpu.addressing = .bytes ∧ settings.programAddr.toNat + bytes.size ≤ settings.memorySize := by
  constructor
  · rintro ⟨s, hs⟩
    obtain ⟨-, hmode, hcpu, -, hroom⟩ := room_of_loadImage hs
    exact ⟨hmode, hcpu, hroom⟩
  · rintro ⟨hmode, hcpu, hroom⟩
    obtain ⟨m, -, hs⟩ := loadImage_of_room h hmode hcpu random hroom
    exact ⟨_, hs⟩

theorem initial_of_loadImage {cpu : Interpreter} {random : RandomStream}
    (h : Session.loadImage settings cpu random ⟨bytes, none⟩ = .ok s) : s.machine.memory.Initial settings bytes := by
  obtain ⟨hvalid, hmode, hcpu, -, hroom⟩ := room_of_loadImage h
  obtain ⟨m, hm, hs⟩ := loadImage_of_room hvalid hmode hcpu random hroom
  obtain rfl := Except.ok.inj (h.symm.trans hs)
  exact hm

end Loading

/-- What is served, by images whose end is a number of 64 bits, by those whose end is not, and by listings; and what an
image has in memory when it is loaded. -/
theorem window_served (s : Session) :
    (∀ length, s.program = .image length → s.programAddr.toNat + length.toNat < UInt64.size →
      s.ServesImage length.toNat) ∧
    (∀ length, s.program = .image length → UInt64.size ≤ s.programAddr.toNat + length.toNat →
      s.step = (if s.machine.pc.toNat < s.programAddr.toNat then .ok none else .error .overflow, s)) ∧
    (∀ words, s.program = .listing words → s.ServesListing words) ∧
    ∀ settings : Settings, settings.defect? = none →
      ∀ (cpu : Interpreter) (random : RandomStream) (bytes : Array UInt8),
      ((∃ t, Session.loadImage settings cpu random ⟨bytes, none⟩ = .ok t) ↔ settings.addressing = .bytes ∧
        cpu.addressing = .bytes ∧ settings.programAddr.toNat + bytes.size ≤ settings.memorySize) ∧
      ∀ t, Session.loadImage settings cpu random ⟨bytes, none⟩ = .ok t → t.machine.memory.Initial settings bytes :=
  ⟨fun _ => servesImage, fun _ => step_of_overflow, fun _ => servesListing,
    fun _ h cpu random _ => ⟨exists_loadImage_iff h cpu random, fun _ => initial_of_loadImage⟩⟩

/-- An image of three bytes serves its first two, and the third is no word. -/
theorem window_served_odd :
    let bytes : Array UInt8 := #[0x22, 0x02, 0x00]
    let cpu := { bracketed.interpreter with addressing := .bytes }
    ∃ s, Session.loadImage .image cpu bracketed.world.random ⟨bytes, none⟩ = .ok s ∧
      s.machine.memory.Initial .image bytes ∧ s.Dispatches 0x2202 ∧
      let t := s.withMachine { s.machine with pc := 0x202 }
      t.step.1 = .ok none ∧ t.step.2 = t := by
  intro bytes cpu
  obtain ⟨m, hm, hload⟩ := @loadImage_of_room .image cpu (by rfl) rfl rfl bracketed.world.random bytes (by decide)
  have hsize : m.size = 4096 := hm.size
  let s : Session :=
    { interpreter := cpu, program := .image 3, programAddr := 0x200
      world := ⟨{ Machine.fresh m with pc := 0x200 }, bracketed.world.random⟩ }
  let t := s.withMachine { s.machine with pc := 0x202 }
  have hend : (0x200 : UInt16).toNat + (3 : UInt64).toNat < UInt64.size := by decide
  have hs : s.ServesImage 3 := (window_served s).1 3 rfl hend
  have ht : t.ServesImage 3 := (window_served t).1 3 rfl hend
  have hpast : (0x200 : UInt16).toNat + 3 < (0x202 : UInt16).toNat + 2 := by decide
  have hnone : t.step.1 = .ok none := ht.ended.2 (.inr (.inl hpast))
  have hsome : s.step.1 ≠ .ok none := by
    rw [ne_eq, hs.ended]
    change ¬(0x200 < 0x200 ∨ 0x200 + 3 < 0x200 + 2 ∨ m.size < 0x200 + 2)
    rw [hsize]
    decide
  obtain ⟨high, low, word, hhigh, hlow, hword, hdispatches⟩ := hs.served hsome
  obtain rfl : high = 0x22 := Option.some.inj (hhigh.symm.trans (hm.loaded 0 (by decide)))
  obtain rfl : low = 0x02 := Option.some.inj (hlow.symm.trans (hm.loaded 1 (by decide)))
  obtain rfl : word = 0x2202 := UInt16.toNat_inj.1 hword
  exact ⟨s, hload, ((window_served s).2.2.2 .image (by rfl) cpu _ bytes).2 s hload, hdispatches, hnone,
    ht.unchanged hnone⟩

/-- The end of a window of 2 ^ 64 - 1 bytes is no number of 64 bits, so that not even its first word is served: the
program is given up. -/
theorem window_end_overflows :
    let cpu := { bracketed.interpreter with addressing := .bytes }
    ∃ s, Session.new .image cpu bracketed.world.random (.image 0xFFFFFFFFFFFFFFFF) = .ok s ∧
      ¬(s.machine.pc.toNat < s.programAddr.toNat ∨
        s.programAddr.toNat + (0xFFFFFFFFFFFFFFFF : UInt64).toNat < s.machine.pc.toNat + 2 ∨
        s.machine.memory.size < s.machine.pc.toNat + 2) ∧
      s.step = (.error .overflow, s) := by
  intro cpu
  obtain ⟨m, hm, hnew⟩ := @new_of_valid .image cpu (.image 0xFFFFFFFFFFFFFFFF) (by rfl) rfl rfl bracketed.world.random
  have hsize : m.size = 4096 := hm.size
  have hend : UInt64.size ≤ (0x200 : UInt16).toNat + (0xFFFFFFFFFFFFFFFF : UInt64).toNat := by decide
  refine ⟨_, hnew, ?_, step_of_overflow rfl hend⟩
  simp only [machine, Machine.fresh, Program.start, hsize]
  decide

end Chip8.Session
