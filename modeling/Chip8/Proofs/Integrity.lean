import Chip8.Proofs.Brackets
import Chip8.Proofs.Schedule
import Chip8.Proofs.Starting
import Chip8.Proofs.Window

/-! What a session keeps to from its start on, whatever it is asked for and whatever comes of it. Memory has the size of
the settings, the stack pointer stands on a slot or below the first, and interpreter and program count in the same unit.
The window of a loaded image lies in memory, so that nothing but the end of the image ends its words. -/

namespace Chip8

namespace View

/-- The stack pointer stands on one of the slots, or before the first. -/
def OnStack (s : View) : Prop := s.sp < 16 ∨ s.sp = 255

theorem OnStack.depth_le {s : View} (h : s.OnStack) : s.depth ≤ 16 := by
  unfold depth
  rcases h with h | h <;> omega

end View

theorem Interpreter.StackEffect.onStack {s t : View} {st : Step} (h : StackEffect s t st) (hs : s.OnStack) :
    t.OnStack := by
  unfold View.OnStack at hs ⊢
  cases h with
  | pushed htop hsp =>
    rw [hsp]
    exact .inl htop
  | popped hslot hsp => omega
  | kept _ _ hsp =>
    rw [hsp]
    exact hs

namespace Session

/-- What every request leaves in order. -/
structure Sound (settings : Settings) (s : Session) : Prop where
  size : s.machine.memory.size = settings.memorySize
  pointer : s.machine.sp.toNat < 16 ∨ s.machine.sp = emptyStack
  stride : s.interpreter.addressing.stride = s.program.addressing.stride

variable {settings : Settings} {cpu : Interpreter} {random : RandomStream} {s : Session}

theorem onStack_iff (s : Session) :
    s.world.view.OnStack ↔ s.machine.sp.toNat < 16 ∨ s.machine.sp = emptyStack :=
  or_congr_right (UInt8.toNat_inj (b := emptyStack))

theorem Sound.depth_le (h : Sound settings s) : s.machine.depth ≤ 16 := by
  have hdepth : s.world.view.depth = s.machine.depth := s.world.depth_view
  rw [← hdepth]
  exact ((onStack_iff s).2 h.pointer).depth_le

theorem Sound.step (h : Sound settings s) : Sound settings s.step.2 := by
  have hkept := kept_step s
  by_cases hd : ∃ d, s.step.1 = .ok (some d)
  · obtain ⟨d, hd⟩ := hd
    obtain ⟨t, he, hv⟩ := effect_of_step (Prod.ext hd rfl : s.step = (.ok (some d), s.step.2))
    have hmemory := Interpreter.memoryEffect_of_effect he
    have hstack := (Interpreter.stackEffect_of_effect he).onStack ((onStack_iff s).2 h.pointer)
    refine ⟨?_, (onStack_iff _).1 ?_, ?_⟩
    · change s.step.2.world.view.size = _
      rw [hv]
      exact hmemory.size.trans h.size
    · rw [hv]
      exact hstack
    · rw [hkept.interpreter, hkept.program]
      exact h.stride
  · rw [step_of_not_some (not_exists.1 hd)]
    exact h

theorem Sound.after (h : Sound settings s) (n : Nat) : Sound settings (s.after n) := by
  induction n with
  | zero => exact h
  | succ n ih => exact ih.step

theorem Sound.askAll {μ : Type} (h : Sound settings s) (o : Observer μ) (requests : List Request) (u : μ) :
    Sound settings (askAll o requests s u).2.1 := by
  obtain ⟨n, -, hn⟩ := continues_iff.1 (continues_askAll o requests s u)
  rw [hn]
  exact h.after n

theorem sound_of_new {program : Program} (h : Session.new settings cpu random program = .ok s) : Sound settings s := by
  obtain ⟨hvalid, hp, hc⟩ := agree_of_new h
  obtain ⟨m, hm, hnew⟩ := new_of_valid hvalid hp hc random
  obtain rfl := Except.ok.inj (h.symm.trans hnew)
  refine ⟨hm.size, .inr rfl, ?_⟩
  rw [hc, hp]

/-- The counter is at one of the words of an image of so many bytes. -/
def Inside (s : Session) (size : Nat) : Prop :=
  s.programAddr.toNat ≤ s.machine.pc.toNat ∧ s.machine.pc.toNat + 2 ≤ s.programAddr.toNat + size

/-- The program is an image of so many bytes, which lies in memory and whose words can all be fetched. -/
structure Windowed (size : Nat) (s : Session) : Prop where
  program : s.program = .image size.toUInt64
  room : s.programAddr.toNat + size ≤ s.machine.memory.size
  ended : s.fetch = .ok none ↔ ¬s.Inside size
  fetched : s.Inside size → ∃ word, s.machine.memory.word s.machine.pc = .ok word ∧ s.fetch = .ok (some word)

theorem windowed_of_room {size : Nat} (hp : s.program = .image size.toUInt64)
    (hroom : s.programAddr.toNat + size ≤ s.machine.memory.size) : Windowed size s := by
  have hmax : s.machine.memory.size ≤ 65536 := s.machine.memory.size_le
  have hfetch := fetch_image_of_le hp (by omega)
  have hfetched : s.Inside size →
      ∃ word, s.machine.memory.word s.machine.pc = .ok word ∧ s.fetch = .ok (some word) := by
    rintro ⟨hle, hlt⟩
    obtain ⟨high, low, -, -, hword⟩ := s.machine.memory.word_eq_ok s.machine.pc (by omega)
    refine ⟨_, hword, ?_⟩
    rw [hfetch, if_neg (by omega), hword]
    rfl
  refine ⟨hp, hroom, ⟨fun hnone hin => ?_, fun hout => ?_⟩, hfetched⟩
  · obtain ⟨word, -, hsome⟩ := hfetched hin
    cases hnone.symm.trans hsome
  · unfold Inside at hout
    rw [hfetch, if_pos (by omega)]

theorem Windowed.kept {size : Nat} {t : Session} (h : Windowed size s) (hkept : Kept s t)
    (hsize : t.machine.memory.size = s.machine.memory.size) : Windowed size t := by
  refine windowed_of_room (hkept.program.trans h.program) ?_
  rw [hkept.programAddr, hsize]
  exact h.room

theorem sound_of_loadImage {r : Reader} (h : Session.loadImage settings cpu random r = .ok s) :
    Sound settings s ∧ Windowed r.bytes.size s := by
  obtain ⟨hvalid, hs, hc, hread, hroom⟩ := room_of_loadImage h
  obtain ⟨bytes, failure⟩ := r
  obtain rfl : failure = none := hread
  obtain ⟨m, hm, hload⟩ := loadImage_of_room hvalid hs hc random hroom
  obtain rfl := Except.ok.inj (h.symm.trans hload)
  refine ⟨⟨hm.size, .inr rfl, ?_⟩, windowed_of_room rfl ?_⟩
  · rw [hc]
    rfl
  · change settings.programAddr.toNat + bytes.size ≤ m.size
    rw [hm.size]
    exact hroom

theorem kept_askAll {μ : Type} (o : Observer μ) (requests : List Request) (s : Session) (u : μ) :
    Kept s (askAll o requests s u).2.1 := by
  obtain ⟨n, -, hn⟩ := continues_iff.1 (continues_askAll o requests s u)
  rw [hn]
  exact kept_after s n

/-- A session that was started under some settings, with an image or without one. -/
inductive Started (settings : Settings) : Session → Prop
  | new {cpu : Interpreter} {random : RandomStream} {program : Program} {s : Session} :
    Session.new settings cpu random program = .ok s → Started settings s
  | loadImage {cpu : Interpreter} {random : RandomStream} {r : Reader} {s : Session} :
    Session.loadImage settings cpu random r = .ok s → Started settings s

theorem Started.sound (h : Started settings s) : settings.defect? = none ∧ Sound settings s := by
  cases h with
  | new h => exact ⟨(agree_of_new h).1, sound_of_new h⟩
  | loadImage h => exact ⟨(room_of_loadImage h).1, (sound_of_loadImage h).1⟩

/-- Whatever a session has been asked for, its parts still fit together, and the window of an image that was loaded
still lies in memory. -/
theorem started_sound {μ : Type} (o : Observer μ) (requests : List Request) (u : μ) (h : Started settings s) :
    Sound settings (askAll o requests s u).2.1 ∧ 4096 ≤ settings.memorySize ∧ settings.memorySize ≤ 65536 ∧
      (askAll o requests s u).2.1.machine.depth ≤ 16 ∧
      ∀ cpu random r, Session.loadImage settings cpu random r = .ok s →
        Windowed r.bytes.size (askAll o requests s u).2.1 := by
  obtain ⟨hvalid, hsound⟩ := h.sound
  obtain ⟨hmin, hmax, -⟩ := Settings.bounds_of_valid hvalid
  have hafter := hsound.askAll o requests u
  refine ⟨hafter, hmin, hmax, hafter.depth_le, fun cpu random r hload => ?_⟩
  refine (sound_of_loadImage hload).2.kept (kept_askAll o requests s u) ?_
  rw [hafter.size, hsound.size]

/-- An image of a call and the return that it leads to, asked for more than it has. -/
theorem started_sound_image :
    let image : Reader := { bytes := #[0x22, 0x02, 0x00, 0xEE] }
    let cpu := { bracketed.interpreter with addressing := .bytes }
    ∃ s, Session.loadImage .image cpu bracketed.world.random image = .ok s ∧
      let t := (askAll FrameCounter.observer [.step, .run 1, .step, .run 3] s {}).2.1
      Sound .image t ∧ t.machine.depth ≤ 16 ∧ Windowed 4 t := by
  intro image cpu
  obtain ⟨m, -, hload⟩ := @loadImage_of_room .image cpu (by rfl) rfl rfl bracketed.world.random image.bytes (by decide)
  refine ⟨_, hload, ?_⟩
  obtain ⟨hsound, -, -, hdepth, hwindow⟩ := started_sound FrameCounter.observer [.step, .run 1, .step, .run 3] {}
    (.loadImage hload)
  exact ⟨hsound, hdepth, hwindow _ _ _ hload⟩

end Session
end Chip8
