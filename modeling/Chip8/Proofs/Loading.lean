import Chip8.CommandLine.Report
import Chip8.Proofs.Grammar
import Chip8.Proofs.Pace
import Chip8.Proofs.Standard
import Chip8.Proofs.Undrawn

/-! What the command line does before it runs a program. The options stand for settings, and with these the program
is read, understood and loaded, or the first of these steps that cannot be done is the problem. With a pacer that keeps
out of the way it comes to what it comes to without one. -/

namespace Chip8.CommandLine

namespace Options

/-- An option says that the program is a listing, or its name does. -/
def Listed (o : Options) : Prop := o.listing = true ∨ ∃ e ∈ ["hex", "txt", "lst"], extension? o.program = some e

/-- The settings that options stand for. -/
structure Stands (o : Options) (s : Settings) : Prop where
  memorySize : s.memorySize = o.memory
  programAddr : s.programAddr = 0x200
  addressing : s.addressing = .words ↔ o.Listed
  shiftFlag : s.shiftFlag = .operand ↔ o.operandShiftFlag = true
  incrementIndex : s.incrementIndex = o.incrementIndex
  clockRate : s.clockRate = o.clockRate

theorem isListing_iff {o : Options} : o.isListing = true ↔ o.Listed := by
  simp [isListing, Listed]

theorem stands_settings (o : Options) : o.Stands o.settings where
  memorySize := rfl
  programAddr := rfl
  addressing := by
    rw [← isListing_iff]
    simp [settings]
  shiftFlag := by simp [settings]
  incrementIndex := rfl
  clockRate := rfl

/-- Options stand for no other settings. -/
theorem Stands.unique {o : Options} {s t : Settings} (hs : o.Stands s) (ht : o.Stands t) : s = t := by
  have haddressing : s.addressing = t.addressing := by
    have hwords := hs.addressing.trans ht.addressing.symm
    revert hwords
    cases s.addressing <;> cases t.addressing <;> simp
  have hflag : s.shiftFlag = t.shiftFlag := by
    have hoperand := hs.shiftFlag.trans ht.shiftFlag.symm
    revert hoperand
    cases s.shiftFlag <;> cases t.shiftFlag <;> simp
  obtain ⟨memory, addr, mode, flag, index, rate⟩ := s
  rw [Settings.mk.injEq]
  exact ⟨hs.memorySize.trans ht.memorySize.symm, hs.programAddr.trans ht.programAddr.symm, haddressing, hflag,
    hs.incrementIndex.trans ht.incrementIndex.symm, hs.clockRate.trans ht.clockRate.symm⟩

end Options

section Loads

variable {κ : Type} (pacer : Pacer κ) (o : Options) (settings : Settings) (files : Files) (random : RandomStream)

/-- The session that options come to, or the first problem on the way: with the settings, with reading the program,
with what it says, with putting it in memory. Nobody watches but a counter of frames, which is here as it is then. -/
inductive Loads : Except Problem (PacedSession κ) → FrameCounter → Prop
  | misconfigured {defect} : settings.defect? = some defect → Loads (.error (.failure (.settings defect))) {}
  | unread {e} : settings.defect? = none → o.Listed → (files o.program).bind readText = .error e →
    Loads (.error (.file e)) {}
  | unparsed {text f} : settings.defect? = none → o.Listed → (files o.program).bind readText = .ok text →
    Program.parseListing text = .error f → Loads (.error (.failure f)) {}
  | listing {text p cpu s c} : o.Listed → (files o.program).bind readText = .ok text →
    Program.parseListing text = .ok p → Interpreter.ofSettings settings = .ok cpu →
    PacedSession.new pacer settings cpu random p ({} : FrameCounter) = some (.ok s, c) → Loads (.ok s) c
  | unopened {e} : settings.defect? = none → ¬o.Listed → files o.program = .error e → Loads (.error (.file e)) {}
  | unloaded {r cpu f c} : ¬o.Listed → files o.program = .ok r → Interpreter.ofSettings settings = .ok cpu →
    PacedSession.loadImage pacer settings cpu random r ({} : FrameCounter) = some (.error f, c) →
    Loads (.error (.failure f)) c
  | image {r cpu s c} : ¬o.Listed → files o.program = .ok r → Interpreter.ofSettings settings = .ok cpu →
    PacedSession.loadImage pacer settings cpu random r ({} : FrameCounter) = some (.ok s, c) → Loads (.ok s) c

end Loads

section Loading

variable {o : Options} {files : Files} {random : RandomStream}

/-- The session that a program leads to, without a pacer. -/
def Source.load (settings : Settings) (cpu : Interpreter) (random : RandomStream) : Source → Except Problem Session
  | .listing p => (Session.new settings cpu random p).mapError .failure
  | .image r => (Session.loadImage settings cpu random r).mapError .failure

/-- What is done before a program runs, with the interpreter made on the way, and without a pacer. -/
def prepare (o : Options) (files : Files) (random : RandomStream) : Except Problem Session :=
  match Interpreter.ofSettings o.settings with
  | .error f => .error (.failure f)
  | .ok cpu => (source o files).bind (Source.load o.settings cpu random)

theorem ofSettings_of_defect {s : Settings} {defect : Settings.Defect} (h : s.defect? = some defect) :
    Interpreter.ofSettings s = .error (.settings defect) := by
  obtain ⟨d, hd⟩ := Decoder.exists_standard
  rw [Interpreter.ofSettings, hd]
  change Interpreter.ofDecoder s d = _
  rw [Interpreter.ofDecoder, h]

theorem source_of_listed (h : o.Listed) : source o files =
    match (files o.program).bind readText with
    | .error e => .error (.file e)
    | .ok text =>
      match Program.parseListing text with
      | .error f => .error (.failure f)
      | .ok p => .ok (.listing p) := by
  rw [source, if_pos (Options.isListing_iff.2 h)]
  cases (files o.program).bind readText with
  | error e => rfl
  | ok text =>
    simp only [Except.mapError, bind, Except.bind]
    cases Program.parseListing text <;> rfl

theorem source_of_not_listed (h : ¬o.Listed) : source o files =
    match files o.program with
    | .error e => .error (.file e)
    | .ok r => .ok (.image r) := by
  rw [source, if_neg (mt Options.isListing_iff.1 h)]
  cases files o.program <;> rfl

/-- A listing that was parsed has a session, since options and settings agree on what it is. -/
theorem exists_new_of_listed (h : o.Listed) {cpu : Interpreter} (hcpu : Interpreter.ofSettings o.settings = .ok cpu)
    {text : String} {p : Program} (hp : Program.parseListing text = .ok p) (random : RandomStream) :
    ∃ s, Session.new o.settings cpu random p = .ok s := by
  obtain ⟨ws, -, rfl⟩ := Listing.parseListing_eq_ok_iff.1 hp
  have hmode : o.settings.addressing = .words := o.stands_settings.addressing.2 h
  have hagree : (Program.listing ws.toArray).addressing = o.settings.addressing := hmode.symm
  exact Session.exists_new (Interpreter.ofSettings_eq_ok_iff.1 hcpu).1 hagree
    (Interpreter.modes_of_ofSettings hcpu).1 random

/-- No sum of sizes was too large, and none will be. -/
def Bounded : Except Problem Session → Prop
  | .error p => p ≠ .failure .overflow
  | .ok s => ∀ length, s.program = .image length → s.programAddr.toNat + length.toNat < UInt64.size

theorem bounded_of_listing {settings : Settings} {cpu : Interpreter} {words : Array Word} {s : Session}
    (h : Session.new settings cpu random (.listing words) = .ok s) : Bounded (.ok s) := by
  obtain ⟨-, hprogram, -⟩ := Session.addressing_of_new h
  intro length himage
  cases hprogram.symm.trans himage

theorem bounded_of_image {settings : Settings} {cpu : Interpreter} {r : Reader} {s : Session}
    (h : Session.loadImage settings cpu random r = .ok s) : Bounded (.ok s) := by
  obtain ⟨hvalid, hmode, hcpu, hread, hroom⟩ := Session.room_of_loadImage h
  obtain ⟨-, hmax, -⟩ := Settings.bounds_of_valid hvalid
  obtain ⟨bytes, failure⟩ := r
  obtain rfl : failure = none := hread
  obtain ⟨m, -, hload⟩ := Session.loadImage_of_room hvalid hmode hcpu random hroom
  obtain rfl := Except.ok.inj (h.symm.trans hload)
  intro length himage
  cases himage
  have hend : settings.programAddr.toNat + bytes.size ≤ 65536 := Nat.le_trans hroom hmax
  have hlength : bytes.size.toUInt64.toNat = bytes.size :=
    UInt64.toNat_ofNat_of_lt' (by unfold UInt64.size; omega)
  change settings.programAddr.toNat + bytes.size.toUInt64.toNat < UInt64.size
  rw [hlength]
  unfold UInt64.size
  omega

theorem bounded_prepare (o : Options) (files : Files) (random : RandomStream) : Bounded (prepare o files random) := by
  rw [prepare]
  cases hvalid : o.settings.defect? with
  | some defect =>
    rw [ofSettings_of_defect hvalid]
    nofun
  | none =>
    obtain ⟨cpu, hcpu⟩ := Interpreter.exists_ofSettings hvalid
    rw [hcpu]
    by_cases hlisted : o.Listed
    · simp only [source_of_listed hlisted]
      cases (files o.program).bind readText with
      | error e => nofun
      | ok text =>
        cases hp : Program.parseListing text with
        | error f =>
          obtain ⟨-, t, -, -, -, -, rfl⟩ := Listing.parseListing_eq_error_iff.1 hp
          simp only [hp]
          nofun
        | ok p =>
          obtain ⟨s, hs⟩ := exists_new_of_listed hlisted hcpu hp random
          obtain ⟨ws, -, rfl⟩ := Listing.parseListing_eq_ok_iff.1 hp
          simp only [hp, Except.bind, Source.load, hs]
          exact bounded_of_listing hs
    · simp only [source_of_not_listed hlisted]
      cases files o.program with
      | error e => nofun
      | ok r =>
        simp only [Except.bind, Source.load]
        cases hload : Session.loadImage o.settings cpu random r with
        | error f =>
          have hmode : o.settings.addressing = .bytes := by
            cases hwords : o.settings.addressing with
            | words => exact absurd (o.stands_settings.addressing.1 hwords) hlisted
            | bytes => rfl
          obtain ⟨addr, rfl⟩ := Session.refusal_of_loadImage hvalid hmode
            ((Interpreter.modes_of_ofSettings hcpu).1.trans hmode) hload
          intro heq
          unfold Reader.refusal at heq
          split at heq <;> cases heq
        | ok s => exact bounded_of_image hload

section Paced

variable {κ : Type} {pacer : Pacer κ} (h : pacer.Serves o.clockRate)
include h

theorem exists_start (files : Files) (cpu : Interpreter) (random : RandomStream) {μ : Type} (u : μ) :
    ∃ r, start pacer o files random cpu u = some (r, u) ∧
      PacedSession.Carries pacer r ((source o files).bind (Source.load o.settings cpu random)) := by
  rw [start]
  cases source o files with
  | error p => exact ⟨_, rfl, .error p⟩
  | ok src =>
    cases src with
    | listing p =>
      obtain ⟨r, hnew, hcarries⟩ := PacedSession.exists_new o.settings h cpu random p u
      exact ⟨_, by simp only [hnew, bind, Option.bind, pure], hcarries.mapError Problem.failure⟩
    | image reader =>
      obtain ⟨r, hload, hcarries⟩ := PacedSession.exists_loadImage o.settings h cpu random reader u
      exact ⟨_, by simp only [hload, bind, Option.bind, pure], hcarries.mapError Problem.failure⟩

theorem exists_loads (files : Files) (random : RandomStream) :
    ∃ r, Loads pacer o o.settings files random r {} ∧ PacedSession.Carries pacer r (prepare o files random) := by
  cases hvalid : o.settings.defect? with
  | some defect =>
    rw [prepare, ofSettings_of_defect hvalid]
    exact ⟨_, .misconfigured hvalid, .error _⟩
  | none =>
    obtain ⟨cpu, hcpu⟩ := Interpreter.exists_ofSettings hvalid
    rw [prepare, hcpu]
    by_cases hlisted : o.Listed
    · simp only [source_of_listed hlisted]
      cases htext : (files o.program).bind readText with
      | error e => exact ⟨_, .unread hvalid hlisted htext, .error _⟩
      | ok text =>
        cases hp : Program.parseListing text with
        | error f =>
          simp only [hp]
          exact ⟨_, .unparsed hvalid hlisted htext hp, .error _⟩
        | ok p =>
          obtain ⟨r, hnew, hcarries⟩ :=
            PacedSession.exists_new o.settings h cpu random p ({} : FrameCounter)
          obtain ⟨s, hs⟩ := exists_new_of_listed hlisted hcpu hp random
          rw [hs] at hcarries
          simp only [hp, Except.bind, Source.load, hs]
          cases hcarries with
          | ok ht => exact ⟨_, .listing hlisted htext hp hcpu hnew, .ok ht⟩
    · simp only [source_of_not_listed hlisted]
      cases hr : files o.program with
      | error e => exact ⟨_, .unopened hvalid hlisted hr, .error _⟩
      | ok r =>
        obtain ⟨q, hload, hcarries⟩ :=
          PacedSession.exists_loadImage o.settings h cpu random r ({} : FrameCounter)
        refine ⟨_, ?_, hcarries.mapError Problem.failure⟩
        cases q with
        | error f => exact .unloaded hlisted hr hcpu hload
        | ok s => exact .image hlisted hr hcpu hload

theorem Loads.carries {r : Except Problem (PacedSession κ)} {c : FrameCounter}
    (hloads : Loads pacer o o.settings files random r c) :
    c = {} ∧ PacedSession.Carries pacer r (prepare o files random) := by
  rw [prepare]
  cases hloads with
  | misconfigured hvalid =>
    rw [ofSettings_of_defect hvalid]
    exact ⟨rfl, .error _⟩
  | unread hvalid hlisted htext =>
    obtain ⟨cpu, hcpu⟩ := Interpreter.exists_ofSettings hvalid
    simp only [hcpu, source_of_listed hlisted, htext]
    exact ⟨trivial, .error _⟩
  | unparsed hvalid hlisted htext hp =>
    obtain ⟨cpu, hcpu⟩ := Interpreter.exists_ofSettings hvalid
    simp only [hcpu, source_of_listed hlisted, htext, hp]
    exact ⟨trivial, .error _⟩
  | @listing _ p cpu _ _ hlisted htext hp hcpu hs =>
    obtain ⟨q, hnew, hcarries⟩ :=
      PacedSession.exists_new o.settings h cpu random p ({} : FrameCounter)
    cases hs.symm.trans hnew
    simp only [hcpu, source_of_listed hlisted, htext, hp]
    exact ⟨trivial, hcarries.mapError Problem.failure⟩
  | unopened hvalid hlisted hr =>
    obtain ⟨cpu, hcpu⟩ := Interpreter.exists_ofSettings hvalid
    simp only [hcpu, source_of_not_listed hlisted, hr]
    exact ⟨trivial, .error _⟩
  | @unloaded r cpu _ _ hlisted hr hcpu hs | @image r cpu _ _ hlisted hr hcpu hs =>
    obtain ⟨q, hload, hcarries⟩ :=
      PacedSession.exists_loadImage o.settings h cpu random r ({} : FrameCounter)
    cases hs.symm.trans hload
    simp only [hcpu, source_of_not_listed hlisted, hr]
    exact ⟨trivial, hcarries.mapError Problem.failure⟩

end Paced

theorem Source.load_withRandom {settings : Settings} {cpu : Interpreter} (random ρ : RandomStream) (src : Source) :
    src.load settings cpu ρ = (src.load settings cpu random).map (·.withRandom ρ) := by
  cases src with
  | listing p =>
    simp only [load, Session.new_withRandom random ρ]
    cases Session.new settings cpu random p <;> rfl
  | image r =>
    simp only [load, Session.loadImage_withRandom random ρ]
    cases Session.loadImage settings cpu random r <;> rfl

theorem prepare_withRandom (random ρ : RandomStream) :
    prepare o files ρ = (prepare o files random).map (·.withRandom ρ) := by
  rw [prepare, prepare]
  cases Interpreter.ofSettings o.settings with
  | error f => rfl
  | ok cpu =>
    cases source o files with
    | error p => rfl
    | ok src => exact src.load_withRandom random ρ

end Loading

/-! ### Pace -/

/-- A clock can run at the rate that is asked for, if one is. -/
def Paced (rate : Option Float) : Prop := ∀ f ∈ rate, Settings.clockRateValid f = true

section Pace

variable {s : Settings} {rate : Option Float}

theorem defect?_of_paced (h : Paced s.clockRate) : s.defect? = { s with clockRate := none }.defect? := by
  obtain ⟨memorySize, programAddr, addressing, shiftFlag, incrementIndex, rate⟩ := s
  cases rate with
  | none => rfl
  | some f => simp only [Settings.defect?, h f rfl, if_true]

theorem defect?_pace (hs : Paced s.clockRate) (hrate : Paced rate) :
    { s with clockRate := rate }.defect? = s.defect? := by
  rw [defect?_of_paced (s := { s with clockRate := rate }) hrate, defect?_of_paced hs]

variable (h : { s with clockRate := rate }.defect? = s.defect?)
include h

theorem ofSettings_pace : Interpreter.ofSettings { s with clockRate := rate } = Interpreter.ofSettings s := by
  simp only [Interpreter.ofSettings, Interpreter.ofDecoder, h]

theorem Source.load_pace (cpu : Interpreter) (random : RandomStream) (src : Source) :
    src.load { s with clockRate := rate } cpu random = src.load s cpu random := by
  cases src with
  | listing p => simp only [load, Session.new, h]
  | image r => simp only [load, Session.loadImage, Session.new, h]

end Pace

/-- The rate of the clock makes no difference to what comes before a run, nor does how much is logged. -/
theorem prepare_pace {o : Options} {rate : Option Float} (h : rate = o.clockRate ∨ Paced o.clockRate ∧ Paced rate)
    (verbosity : Nat) (files : Files) (random : RandomStream) :
    prepare { o with verbosity, clockRate := rate } files random = prepare o files random := by
  have hsettings : { o with verbosity, clockRate := rate }.settings = { o.settings with clockRate := rate } := rfl
  have hdefect : { o.settings with clockRate := rate }.defect? = o.settings.defect? := by
    rcases h with rfl | ⟨ho, hrate⟩
    · rfl
    · exact defect?_pace ho hrate
  have hsource : source { o with verbosity, clockRate := rate } files = source o files := rfl
  rw [prepare, prepare, hsettings, ofSettings_pace hdefect, hsource]
  cases Interpreter.ofSettings o.settings with
  | error f => rfl
  | ok cpu =>
    cases source o files with
    | error p => rfl
    | ok src => exact src.load_pace hdefect cpu random

end Chip8.CommandLine
