import Chip8.Proofs.Integrity
import Chip8.Proofs.Lockstep
import Chip8.Proofs.Relocation
import Chip8.Proofs.Starting

/-! A listing and its image, loaded where programs go. The image does step by step what the listing does, and ends when
it ends, although the one runs off its words and the other out of its window. -/

namespace Chip8

/-- The high byte and the low one. -/
def Word.bytes (w : Word) : List UInt8 := [UInt8.ofNat (w.toNat / 256), UInt8.ofNat w.toNat]

theorem Word.ofBytes_bytes (w : Word) : ofBytes (UInt8.ofNat (w.toNat / 256)) (UInt8.ofNat w.toNat) = w := by
  have hw := w.toNat_lt
  apply UInt16.toNat_inj.1
  simp only [ofBytes, UInt16.toNat_ofNat', UInt8.toNat_ofNat']
  omega

/-- The image of a listing. -/
def imageBytes (words : List Word) : Array UInt8 := (words.flatMap fun w => w.relocate.bytes).toArray

theorem size_imageBytes (words : List Word) : (imageBytes words).size = 2 * words.length := by
  induction words with
  | nil => rfl
  | cons w words ih =>
    simp only [imageBytes, List.size_toArray, List.flatMap_cons, List.length_append, List.length_cons] at ih ⊢
    rw [ih]
    simp only [Word.bytes, List.length_cons, List.length_nil]
    omega

theorem getElem?_imageBytes {words : List Word} {k : Nat} (hk : k < words.length) :
    (imageBytes words)[2 * k]? = some (UInt8.ofNat (words[k].relocate.toNat / 256)) ∧
      (imageBytes words)[2 * k + 1]? = some (UInt8.ofNat words[k].relocate.toNat) := by
  simp only [imageBytes, List.getElem?_toArray]
  induction words generalizing k with
  | nil => cases hk
  | cons w words ih =>
    cases k with
    | zero => exact ⟨rfl, rfl⟩
    | succ k => exact ih (Nat.lt_of_succ_lt_succ hk)

/-- The settings for the image of a listing that is run with `s`. -/
def Settings.forImage (s : Settings) (size : Nat) : Settings :=
  { Settings.image with memorySize := size, shiftFlag := s.shiftFlag, incrementIndex := s.incrementIndex }

namespace Session

/-- A listing that has an image, and memory that holds it. -/
structure Imaged (cpu : Interpreter) (words : List Word) (m : Memory) : Prop where
  standard : Decoder.standard = .ok cpu.decoder
  addressing : cpu.addressing = .words
  relocatable : ∀ w ∈ words, ∀ i, cpu.decoder.decode w = .ok i → i.Relocatable
  room : 0x200 + 2 * words.length ≤ 65536
  loaded : ∀ k (h : k < words.length), m.word (UInt16.ofNat (0x200 + 2 * k)) = .ok words[k].relocate

/-- A session of the image where the session of the listing is. -/
structure Relocates (cpu : Interpreter) (words : List Word) (m : Memory) (a b : Session) : Prop where
  interpreter : a.interpreter = cpu ∧ b.interpreter = cpu.forImages
  program : a.program = .listing words.toArray ∧ b.program = .image (2 * words.length).toUInt64
  programAddr : b.programAddr = defaultProgramAddr
  memory : b.machine.memory = m
  inside : a.world.view.Inside words.length
  view : a.world.view.Relocates b.world.view
  steps : b.steps = a.steps

variable {cpu : Interpreter} {words : List Word} {m : Memory} {a b : Session}

theorem Relocates.fetch (hm : Imaged cpu words m) (h : Relocates cpu words m a b) :
    b.fetch = a.fetch.map (Option.map Word.relocate) := by
  have hroom := hm.room
  have hpc : b.machine.pc.toNat = (0x200 + 2 * a.machine.pc.toNat) % 65536 := h.view.pc
  have hinside : a.machine.pc.toNat ≤ words.length + 1 ∨ a.machine.pc.toNat ≤ 0x6FF := h.inside.pc
  have haddr : defaultProgramAddr.toNat = 0x200 := rfl
  rw [fetch_image_of_le h.program.2 (by omega), fetch_listing h.program.1]
  simp only [h.programAddr, h.memory, haddr, List.getElem?_toArray, Except.map]
  refine congrArg Except.ok ?_
  by_cases hend : a.machine.pc.toNat < words.length
  · have hat : b.machine.pc = UInt16.ofNat (0x200 + 2 * a.machine.pc.toNat) := by
      rw [← UInt16.ofNat_toNat (x := b.machine.pc), hpc]
      apply UInt16.toNat_inj.1
      simp
    rw [if_neg (by omega), hat, hm.loaded _ hend, List.getElem?_eq_getElem hend]
    rfl
  · -- the address is behind the window, or has gone around to one below it
    rw [if_pos (by omega), List.getElem?_eq_none (Nat.le_of_not_lt hend)]
    rfl

theorem Relocates.advance (h : Relocates cpu words m a b) {w w' : World} (hview : w.view.Relocates w'.view)
    (hinside : (w.view.advance 1).Inside words.length) (hmem : w'.machine.memory = m) :
    Relocates cpu words m (a.advance w) (b.advance w') := by
  have hstride : a.stride = 1 := by rw [stride, h.program.1]
  have hstride' : b.stride = 2 := by rw [stride, h.program.2]
  have ha : (a.advance w).world.view = w.view.advance 1 := by rw [view_advance, hstride]; rfl
  have hb : (b.advance w').world.view = w'.view.advance 2 := by rw [view_advance, hstride']; rfl
  refine ⟨h.interpreter, h.program, h.programAddr, hmem, ?_, ?_, congrArg (· + 1) h.steps⟩
  · rw [ha]
    exact hinside
  · rw [ha, hb]
    exact hview.advance

theorem Relocates.twin (hm : Imaged cpu words m) (h : Relocates cpu words m a b) {word : Word}
    (hf : a.fetch = .ok (some word)) : a.machine.pc.toNat < words.length ∧ cpu.Twin word a.world b.world := by
  have hget : words[a.machine.pc.toNat]? = some word := by simpa [fetch_listing h.program.1] using hf
  have hword := hm.relocatable word (List.mem_of_getElem? hget)
  exact ⟨(List.getElem?_eq_some_iff.1 hget).1,
    Interpreter.twin_of_relocates hm.standard hm.addressing hword h.view⟩

/-- A step of the image is the step of the listing, in another place. -/
theorem Relocates.step (hm : Imaged cpu words m) (h : Relocates cpu words m a b) :
    b.step.1 = (a.step.1.map (Option.map Dispatched.relocate)).mapError Failure.relocate ∧
      Relocates cpu words m a.step.2 b.step.2 := by
  have hfetch := h.fetch hm
  rcases hf : a.fetch with f | _ | word <;> rw [hf] at hfetch
  · cases (fetch_listing h.program.1).symm.trans hf
  · rw [step_of_fetch_none hf, step_of_fetch_none hfetch]
    exact ⟨rfl, h⟩
  · -- both have a word, and dispatching them comes to the same
    obtain ⟨ha, hb⟩ := h.interpreter
    obtain ⟨hpc, htwin⟩ := h.twin hm hf
    cases htwin with
    | refused hd hd' =>
      rw [← ha] at hd
      rw [← hb] at hd'
      rw [step_of_dispatch_error hf hd, step_of_dispatch_error hfetch hd']
      exact ⟨rfl, h⟩
    | done hd hd' hreloc he hview hmemory =>
      rw [← ha] at hd
      rw [← hb] at hd'
      rw [step_eq_some_iff.2 ⟨_, _, hf, hd, rfl⟩, step_eq_some_iff.2 ⟨_, _, hfetch, hd', rfl⟩]
      exact ⟨rfl, h.advance hview (Interpreter.inside_of_effect hm.addressing hreloc h.inside hpc he)
        (hmemory.trans h.memory)⟩

theorem Relocates.step_ne_jump (hm : Imaged cpu words m) (h : Relocates cpu words m a b) {d : Dispatched}
    (hd : a.step.1 = .ok (some d)) : d.step ≠ .jump := by
  obtain ⟨word, w, hf, hdispatch, -⟩ := step_eq_some_iff.1 (Prod.ext hd rfl : a.step = (_, a.step.2))
  rw [h.interpreter.1] at hdispatch
  cases (h.twin hm hf).2 with
  | refused hd' => cases hd'.symm.trans hdispatch
  | done hd' _ hreloc he =>
    cases hd'.symm.trans hdispatch
    exact Interpreter.step_ne_jump hreloc he

theorem lockstep_relocates (hm : Imaged cpu words m) :
    Lockstep Dispatched.relocate Failure.relocate (Relocates cpu words m) where
  answer h := (h.step hm).1
  next h := (h.step hm).2
  idles h hd := iff_of_false (fun hidle => h.step_ne_jump hm hd hidle.1) fun hidle => h.step_ne_jump hm hd hidle.1

/-- What a session of an image has in common with the session of its listing. -/
structure InStep (a b : Session) : Prop where
  v : b.machine.v = a.machine.v
  i : b.machine.i = a.machine.i
  pc : b.machine.pc = relocateAddr a.machine.pc
  sp : b.machine.sp = a.machine.sp
  returns : b.machine.returnAddresses = a.machine.returnAddresses.map relocateAddr
  steps : b.steps = a.steps

theorem Relocates.returns (h : Relocates cpu words m a b) (hdepth : b.machine.depth = a.machine.depth) :
    b.machine.returnAddresses = a.machine.returnAddresses.map relocateAddr := by
  apply List.ext_getElem?
  intro k
  simp only [Machine.returnAddresses, List.getElem?_map, List.getElem?_take, Vector.getElem?_toList, hdepth]
  by_cases hk : k < a.machine.depth
  · rw [if_pos hk, if_pos hk]
    by_cases hroom : k < 16
    · have ha : a.machine.stack[k]? = some a.machine.stack[k] := Vector.getElem?_eq_getElem hroom
      have hslot : b.world.view.stack k = (relocateAddr a.machine.stack[k]).toNat := by
        rw [h.view.stack k (by rw [World.depth_view]; exact hk), toNat_relocateAddr,
          (World.view_stack_eq_iff hroom _).2 ha]
      rw [ha]
      exact (World.view_stack_eq_iff hroom _).1 hslot
    · -- a stack pointer past the last slot claims no more than the slots
      rw [Vector.getElem?_eq_none (Nat.le_of_not_lt hroom), Vector.getElem?_eq_none (Nat.le_of_not_lt hroom)]
      rfl
  · rw [if_neg hk, if_neg hk]
    rfl

theorem Relocates.inStep (h : Relocates cpu words m a b) : InStep a b := by
  have hsp : b.machine.sp = a.machine.sp := UInt8.toNat_inj.1 h.view.sp
  have hdepth : b.machine.depth = a.machine.depth := by rw [Machine.depth, hsp, Machine.depth]
  refine ⟨?_, UInt16.toNat_inj.1 h.view.i, Interpreter.pc_of_relocates h.view, hsp, h.returns hdepth, h.steps⟩
  apply Vector.ext
  intro k hk
  have hv : b.machine.v[k]? = a.machine.v[k]? := World.v_eq_of_view (congrFun h.view.v k)
  simpa [hk] using hv

theorem word_of_initial {settings : Settings} {m : Memory} (hm : m.Initial settings (imageBytes words))
    (haddr : settings.programAddr = defaultProgramAddr) (hroom : 0x200 + 2 * words.length ≤ 65536) {k : Nat}
    (hk : k < words.length) : m.word (UInt16.ofNat (0x200 + 2 * k)) = .ok words[k].relocate := by
  have hsize := size_imageBytes words
  have hbyte := hm.loaded
  rw [haddr] at hbyte
  have hat : (UInt16.ofNat (0x200 + 2 * k)).toNat = 0x200 + 2 * k := by
    rw [UInt16.toNat_ofNat']
    omega
  have hhigh : m.byte? (0x200 + 2 * k) = _ := (hbyte (2 * k) (by omega)).trans (getElem?_imageBytes hk).1
  have hlow : m.byte? (0x200 + 2 * k + 1) = _ := (hbyte (2 * k + 1) (by omega)).trans (getElem?_imageBytes hk).2
  rw [Memory.word, hat, hhigh, hlow]
  exact congrArg Except.ok (Word.ofBytes_bytes _)

/-- Two sessions that run in lockstep from now on: after every step, and after every run that nobody disturbs. -/
structure Mirrored (a b : Session) : Prop where
  inStep : ∀ k, InStep (a.after k) (b.after k)
  answers : ∀ k, (b.after k).step.1 =
    ((a.after k).step.1.map (Option.map Dispatched.relocate)).mapError Failure.relocate
  runs : ∀ {μ μ' : Type} {o : Observer μ} {o' : Observer μ'} {p : μ → Prop} {p' : μ' → Prop} {u : μ} {u' : μ'},
    o.Quiet p → p u → o'.Quiet p' → p' u' → ∀ max,
      (b.run o' max u').1 = (a.run o max u).1.mapError Failure.relocate ∧
        InStep (a.run o max u).2.1 (b.run o' max u').2.1

theorem Relocates.mirrored (hm : Imaged cpu words m) (h : Relocates cpu words m a b) : Mirrored a b where
  inStep k := ((lockstep_relocates hm).after h k).inStep
  answers k := (lockstep_relocates hm).answer ((lockstep_relocates hm).after h k)
  runs ho hu ho' hu' max :=
    have hrun := (lockstep_relocates hm).run h ho hu ho' hu' max
    ⟨hrun.1, hrun.2.inStep⟩

/-- A listing and its image mirror each other, if the listing has no jumps and no block transfers, calls no
position past 0x6FF, and leaves room for itself in memory. -/
theorem listing_mirrored {settings : Settings} {size : Nat} {cpu cpu' : Interpreter}
    (hcpu : Interpreter.ofSettings settings = .ok cpu) (haddressing : settings.addressing = .words)
    (hcpu' : Interpreter.ofSettings (settings.forImage size) = .ok cpu')
    (hwords : ∀ w ∈ words, ∀ i, cpu.decoder.decode w = .ok i → i.Relocatable)
    (hroom : 0x200 + 2 * words.length ≤ size) (random : RandomStream) :
    ∃ a b, Session.new settings cpu random (.listing words.toArray) = .ok a ∧
      Session.loadImage (settings.forImage size) cpu' random ⟨imageBytes words, none⟩ = .ok b ∧ Mirrored a b := by
  obtain ⟨hvalid, d, hd, rfl⟩ := Interpreter.ofSettings_eq_ok_iff.1 hcpu
  obtain ⟨hvalid', d', hd', rfl⟩ := Interpreter.ofSettings_eq_ok_iff.1 hcpu'
  cases hd.symm.trans hd'
  obtain ⟨-, hmax, -⟩ := Settings.bounds_of_valid hvalid'
  have hspace : 0x200 + 2 * words.length ≤ 65536 := Nat.le_trans hroom hmax
  obtain ⟨m, -, hnew⟩ := @new_of_valid settings ⟨d, settings.addressing, settings.shiftFlag, settings.incrementIndex⟩
    (.listing words.toArray) hvalid haddressing.symm rfl random
  obtain ⟨m', hm', hload⟩ := @loadImage_of_room (settings.forImage size)
    ⟨d, .bytes, settings.shiftFlag, settings.incrementIndex⟩ hvalid' rfl rfl random (imageBytes words)
    (by rw [size_imageBytes]; exact hroom)
  have himaged : Imaged ⟨d, settings.addressing, settings.shiftFlag, settings.incrementIndex⟩ words m' :=
    ⟨hd, haddressing, hwords, hspace, fun k hk => word_of_initial hm' rfl hspace hk⟩
  -- nothing has been called yet
  have hempty : ∀ k, ¬k < (0xFF + 1) % 256 := Nat.not_lt_zero
  refine ⟨_, _, hnew, hload, Relocates.mirrored himaged ⟨⟨rfl, rfl⟩, ⟨rfl, ?_⟩, rfl, rfl, ?_, ?_, rfl⟩⟩
  · rw [size_imageBytes]
  · exact ⟨.inl (Nat.zero_le _), fun k hk => (hempty k hk).elim⟩
  · exact ⟨rfl, rfl, rfl, rfl, fun k hk => (hempty k hk).elim, rfl, rfl⟩

/-- A call, a word that is no instruction, and the return. -/
theorem listing_mirrored_bracketed :
    let words : List Word := [0x2002, 0xFFFF, 0x00EE]
    ∃ cpu cpu' a b, Interpreter.ofSettings {} = .ok cpu ∧
      Interpreter.ofSettings (Settings.forImage {} 4096) = .ok cpu' ∧
      Session.new {} cpu ⟨fun _ => 0, 0⟩ (.listing words.toArray) = .ok a ∧
      Session.loadImage (Settings.forImage {} 4096) cpu' ⟨fun _ => 0, 0⟩ ⟨#[0x22, 0x04, 0xFF, 0xFF, 0x00, 0xEE], none⟩ =
        .ok b ∧
      (b.run FrameCounter.observer 5 {}).1 = (a.run FrameCounter.observer 5 {}).1.mapError Failure.relocate := by
  intro words
  obtain ⟨cpu, hcpu⟩ := Interpreter.exists_ofSettings (s := {}) (by rfl)
  obtain ⟨cpu', hcpu'⟩ := Interpreter.exists_ofSettings (s := Settings.forImage {} 4096) (by rfl)
  have hwords : ∀ w ∈ words, ∀ i, cpu.decoder.decode w = .ok i → i.Relocatable := by
    intro w hw i hi
    rw [Decoder.decode_standard_iff (Interpreter.decoder_of_ofSettings hcpu)] at hi
    simp only [words, List.mem_cons, List.not_mem_nil, or_false] at hw
    rcases hw with rfl | rfl | rfl
    · cases (show Instruction.ofWord? (0x2002 : Word).toNat = some (.call 2) from rfl).symm.trans hi
      exact (by decide : (2 : UInt16) ≤ 0x6FF)
    · cases (show Instruction.ofWord? (0xFFFF : Word).toNat = none from rfl).symm.trans hi
    · cases (show Instruction.ofWord? (0x00EE : Word).toNat = some .ret from rfl).symm.trans hi
      trivial
  obtain ⟨a, b, ha, hb, hmirrored⟩ := listing_mirrored hcpu rfl hcpu' hwords (by decide) ⟨fun _ => 0, 0⟩
  exact ⟨cpu, cpu', a, b, hcpu, hcpu', ha, hb, (hmirrored.runs FrameCounter.quiet rfl FrameCounter.quiet rfl 5).1⟩

end Session
end Chip8
