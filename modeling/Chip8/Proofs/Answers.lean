import Chip8.CommandLine.Shell
import Chip8.Proofs.Loading

/-! What the command line answers, however its arguments are read. It is what a session comes to that is started from
the options and run without anybody watching: logs, verbosity and the rate of the clock make no difference to it, as
long as whatever keeps to that rate only takes time. -/

namespace Chip8.CommandLine

section Computes

variable {κ : Type} (pacer : Pacer κ) (o : Options) (settings : Settings) (files : Files) (random : RandomStream)

/-- The machine that the program leaves when it has run for as long as it may, or the problem that kept it from that. -/
inductive Computes : Except Problem Machine → Prop
  | unstarted {p c} : Loads pacer o settings files random (.error p) c → Computes (.error p)
  | failed {s c f t c'} : Loads pacer o settings files random (.ok s) c →
    s.run pacer FrameCounter.observer o.steps c = some (.error f, t, c') → Computes (.error (.failure f))
  | halted {s c halt t c'} : Loads pacer o settings files random (.ok s) c →
    s.run pacer FrameCounter.observer o.steps c = some (.ok halt, t, c') → Computes (.ok t.session.machine)

/-- The program carries out no random instruction. -/
def Undrawn : Prop := ∀ s c r t c', Loads pacer o settings files random (.ok s) c →
  s.run pacer FrameCounter.observer o.steps c = some (r, t, c') →
  s.session.Undrawn (t.session.steps - s.session.steps)

end Computes

/-- What a report tells of a machine or of a problem, whatever it logs. -/
def Reports (r : Report) : Except Problem Machine → Prop
  | .ok m => r.code = 0 ∧ r.stderr = "" ∧ r.plainLines = m.lines
  | .error p => r.code = 1 ∧ r.stderr = s!"Error: {p.inspect}\n" ∧ r.plainLines = []

/-! ### Output -/

namespace Output

/-- Nothing but records was printed. -/
def Logs (out : Output) : Prop := ∀ e ∈ out.entries, ∃ r, e = .record r

variable {out : Output}

theorem Logs.add (h : out.Logs) (r : Record) : (out.add r).Logs := by
  rw [Output.add]
  split
  · intro e he
    rcases Array.mem_push.1 he with he | rfl
    · exact h e he
    · exact ⟨r, rfl⟩
  · exact h

theorem Logs.addAll (h : out.Logs) (rs : List Record) : (out.addAll rs).Logs := by
  induction rs generalizing out with
  | nil => exact h
  | cons r rs ih => exact ih (h.add r)

/-- Without a monitor an observer only logs, and lets the run be. -/
theorem quiet_observer (stride : UInt16) : (observer stride false).Quiet Logs where
  frame hu h := by
    cases h
    exact ⟨rfl, hu.addAll _⟩
  interrupted hu h := by
    cases h
    exact ⟨rfl, hu⟩

end Output

variable {out : Output}

/-- All that is plain in a report is what was printed last. -/
theorem plainLines_print (h : out.Logs) (text : List String) (code : Nat) (stderr : String) :
    Report.plainLines ⟨code, (out.print text).entries.toList, stderr⟩ = text := by
  simp only [Report.plainLines, Output.print, Array.toList_appendList, List.filterMap_append]
  rw [List.filterMap_eq_nil_iff.2]
  · simp [List.filterMap_map]
  · intro e he
    obtain ⟨r, rfl⟩ := h e (Array.mem_toList_iff.1 he)
    rfl

theorem print_nil (out : Output) : out.print [] = out := by
  simp [Output.print]

theorem reports_failed (h : out.Logs) (p : Problem) : Reports (failed out p) (.error p) := by
  refine ⟨rfl, rfl, ?_⟩
  have hplain := plainLines_print h [] 1 s!"Error: {p.inspect}\n"
  rwa [print_nil] at hplain

/-- The report of a session that is run without a pacer. -/
def finished (o : Options) (s : Session) (out : Output) : Report :=
  match s.run (Output.observer s.interpreter.addressing.stride o.monitor) o.steps out with
  | (r, t, out) => ended o r t out

section Execute

variable {κ : Type} {pacer : Pacer κ}

theorem finish_of_undisturbed {s : PacedSession κ} (h : s.Undisturbed pacer) (o : Options) (out : Output) :
    finish pacer o s out = some (finished o s.session out) := by
  obtain ⟨t, hrun, hsession⟩ :=
    h.run (Output.observer s.session.interpreter.addressing.stride o.monitor) o.steps out
  rw [finish, hrun, finished]
  simp only [bind, Option.bind, pure, hsession]

/-- The part of an invocation that comes after loading. -/
theorem exists_execute {o : Options} (h : pacer.Serves o.clockRate) (files : Files) (random : RandomStream) :
    ∃ out : Output, out.Logs ∧ execute pacer o files random = some (match prepare o files random with
      | .error p => failed out p
      | .ok s => finished o s out) := by
  have hempty : (Output.mk (.ofVerbosity o.verbosity) #[]).Logs := by
    intro e he
    simp at he
  rw [execute, prepare]
  cases hcpu : Interpreter.ofSettings o.settings with
  | error f => exact ⟨_, hempty, rfl⟩
  | ok cpu =>
    dsimp only
    have hready := hempty.add (Record.decoderReady cpu.decoder)
    obtain ⟨r, hstart, hcarries⟩ := exists_start h files cpu random
      ((Output.mk (.ofVerbosity o.verbosity) #[]).add (Record.decoderReady cpu.decoder))
    simp only [hstart, bind, Option.bind]
    generalize (source o files).bind (Source.load o.settings cpu random) = q at hcarries
    cases hcarries with
    | error p => exact ⟨_, hready, rfl⟩
    | @ok s hs => exact ⟨_, hready.addAll (startRecords s.session), finish_of_undisturbed hs o _⟩

end Execute

/-- What a session comes to when it is run for so many instructions. -/
def outcome (s : Session) (steps : Nat) : Except Problem Machine :=
  match s.run FrameCounter.observer steps {} with
  | (r, t, _) => (r.map fun _ => t.machine).mapError .failure

theorem reports_finished {o : Options} (hmonitor : o.monitor = false) (h : out.Logs) {s : Session}
    (hundrawn : s.Undrawn ((s.run FrameCounter.observer o.steps {}).2.1.steps - s.steps)) (ρ : RandomStream) :
    Reports (finished o (s.withRandom ρ) out) (outcome s o.steps) := by
  rcases hrun : s.run FrameCounter.observer o.steps {} with ⟨r, t, c⟩
  rw [hrun] at hundrawn
  obtain ⟨out', hrun', hlogs⟩ := Session.run_withRandom ρ FrameCounter.quiet rfl
    (Output.quiet_observer (s.withRandom ρ).interpreter.addressing.stride) h hrun hundrawn
  rw [finished, hmonitor, hrun', outcome, hrun]
  cases r with
  | error f => exact reports_failed (hlogs.addAll _) _
  | ok halt =>
    simp only [ended, hmonitor]
    exact ⟨rfl, rfl, plainLines_print (hlogs.addAll _) _ _ _⟩

/-! ### Invocations -/

section Invocations

variable {κ : Type} {pacer : Pacer κ} {o : Options} {files : Files} {random : RandomStream}
  {r : Except Problem Machine}

theorem computes_iff (h : pacer.Serves o.clockRate) : Computes pacer o o.settings files random r ↔
    r = (prepare o files random).bind fun s => outcome s o.steps := by
  constructor
  · intro hr
    cases hr with
    | unstarted hloads =>
      obtain ⟨-, hcarries⟩ := hloads.carries h
      generalize prepare o files random = q at hcarries
      cases hcarries
      rfl
    | failed hloads hrun | halted hloads hrun =>
      obtain ⟨rfl, hcarries⟩ := hloads.carries h
      generalize prepare o files random = q at hcarries
      cases hcarries with
      | ok hs =>
        obtain ⟨t', hrun', hsession⟩ := hs.run FrameCounter.observer o.steps {}
        obtain ⟨hfst, rfl, -⟩ : _ ∧ _ ∧ _ := by simpa using hrun.symm.trans hrun'
        simp only [Except.bind, outcome, ← hfst, ← hsession]
        rfl
  · rintro rfl
    obtain ⟨q, hloads, hcarries⟩ := exists_loads h files random
    generalize prepare o files random = q' at hcarries
    cases hcarries with
    | error p => exact .unstarted hloads
    | @ok s hs =>
      obtain ⟨t, hrun, hsession⟩ := hs.run FrameCounter.observer o.steps {}
      simp only [Except.bind, outcome, ← hsession]
      generalize (s.session.run FrameCounter.observer o.steps {}).1 = r at hrun
      cases r with
      | error f => exact .failed hloads hrun
      | ok halt => exact .halted hloads hrun

/-- A session without a pacer draws as little as the session with one. -/
theorem Undrawn.prepared (hundrawn : Undrawn pacer o o.settings files random) (h : pacer.Serves o.clockRate)
    {s : Session} (hs : prepare o files random = .ok s) :
    s.Undrawn ((s.run FrameCounter.observer o.steps {}).2.1.steps - s.steps) := by
  obtain ⟨q, hloads, hcarries⟩ := exists_loads h files random
  rw [hs] at hcarries
  cases hcarries with
  | @ok s' hs' =>
    obtain ⟨t, hrun, hsession⟩ := hs'.run FrameCounter.observer o.steps {}
    rw [← hsession]
    exact hundrawn _ _ _ _ _ hloads hrun

/-- What the options come to shows in the report, whatever is logged and whatever words there are to draw. -/
theorem Computes.reports (hr : Computes pacer o o.settings files random r) (h : pacer.Serves o.clockRate)
    (hundrawn : ∀ s, prepare o files random = .ok s →
      s.Undrawn ((s.run FrameCounter.observer o.steps {}).2.1.steps - s.steps))
    (hmonitor : o.monitor = false) (ρ : RandomStream) :
    ∃ report, execute pacer o files ρ = some report ∧ Reports report r := by
  obtain ⟨out, hlogs, hexecute⟩ := exists_execute h files ρ
  refine ⟨_, hexecute, ?_⟩
  rw [(computes_iff h).1 hr, prepare_withRandom random]
  cases hs : prepare o files random with
  | error p => exact reports_failed hlogs p
  | ok s => exact reports_finished hmonitor hlogs (hundrawn s hs) ρ

theorem Reports.agree {a b : Report} (ha : Reports a r) (hb : Reports b r) :
    b.code = a.code ∧ b.stderr = a.stderr ∧ b.plainLines = a.plainLines := by
  cases r with
  | error | ok => exact ⟨hb.1.trans ha.1.symm, hb.2.1.trans ha.2.1.symm, hb.2.2.trans ha.2.2.symm⟩

/-- No program on the command line is given up: the window of an image that was loaded ends where memory does. -/
theorem Computes.ne_overflow (hr : Computes pacer o o.settings files random r) (h : pacer.Serves o.clockRate) :
    r ≠ .error (.failure .overflow) := by
  have hbounded := bounded_prepare o files random
  rw [(computes_iff h).1 hr]
  generalize prepare o files random = q at hbounded
  cases q with
  | error p => exact fun heq => hbounded (Except.error.inj heq)
  | ok s =>
    have hrun := Session.run_ne_overflow hbounded FrameCounter.observer o.steps {}
    simp only [Except.bind, outcome]
    generalize (s.run FrameCounter.observer o.steps {}).1 = r at hrun
    cases r with
    | error f => exact fun heq => hrun (congrArg Except.error (Problem.failure.inj (Except.error.inj heq)))
    | ok halt => nofun

end Invocations

theorem answer_of_parse {κ : Type} {parse : List String → Except Report Options} {arguments : List String}
    {o : Options} (h : parse arguments = .ok o) (pacer : Pacer κ) (files : Files) (random : RandomStream) :
    answer pacer parse arguments files random = execute pacer o files random := by
  rw [answer, h]

/-- The command line answers what its options come to, and answers it alike for every verbosity and every pace that a
clock can run at. -/
theorem answer_computes {κ : Type} {pacer : Pacer κ} {parse : List String → Except Report Options}
    {arguments : List String} {o : Options} (hparse : parse arguments = .ok o) (hmonitor : o.monitor = false)
    (hserves : pacer.Serves o.clockRate) {settings : Settings} (hs : o.Stands settings) (files : Files)
    (random : RandomStream) (hundrawn : Undrawn pacer o settings files random) :
    ∃ r, Computes pacer o settings files random r ∧ (∀ r', Computes pacer o settings files random r' → r' = r) ∧
      r ≠ .error (.failure .overflow) ∧
      (∀ ρ, ∃ report, answer pacer parse arguments files ρ = some report ∧ Reports report r) ∧
      ∀ arguments' o', parse arguments' = .ok o' →
        o' = { o with verbosity := o'.verbosity, clockRate := o'.clockRate } →
        o'.clockRate = o.clockRate ∨ Paced o.clockRate ∧ Paced o'.clockRate → pacer.Serves o'.clockRate →
        ∀ ρ ρ', ∃ report report', answer pacer parse arguments files ρ = some report ∧
          answer pacer parse arguments' files ρ' = some report' ∧ report'.code = report.code ∧
          report'.stderr = report.stderr ∧ report'.plainLines = report.plainLines := by
  obtain rfl := hs.unique o.stands_settings
  obtain ⟨r, hr⟩ : ∃ r, Computes pacer o o.settings files random r := ⟨_, (computes_iff hserves).2 rfl⟩
  have hplain := fun s => hundrawn.prepared (s := s) hserves
  have hreports (ρ : RandomStream) : ∃ report, answer pacer parse arguments files ρ = some report ∧
      Reports report r := by
    rw [answer_of_parse hparse]
    exact hr.reports hserves hplain hmonitor ρ
  refine ⟨r, hr, fun r' hr' => ?_, hr.ne_overflow hserves, hreports,
    fun arguments' o' hparse' ho' hrate hserves' ρ ρ' => ?_⟩
  · rw [(computes_iff hserves).1 hr, (computes_iff hserves).1 hr']
  · have hmonitor' : o'.monitor = false := by rw [ho']; exact hmonitor
    have hsteps : o'.steps = o.steps := by rw [ho']
    have hprepare : prepare o' files random = prepare o files random := by
      rw [ho']
      exact prepare_pace hrate o'.verbosity files random
    have hr' : Computes pacer o' o'.settings files random r := by
      rw [computes_iff hserves', hprepare, hsteps]
      exact (computes_iff hserves).1 hr
    rw [answer_of_parse hparse']
    obtain ⟨report, hanswer, hreport⟩ := hreports ρ
    obtain ⟨report', hanswer', hreport'⟩ := hr'.reports hserves' (by rw [hprepare, hsteps]; exact hplain) hmonitor' ρ'
    exact ⟨report, report', hanswer, hanswer', hreport.agree hreport'⟩

/-- A stopwatch only keeps time. -/
theorem Stopwatch.serves (rate : Option Float) : Stopwatch.pacer.Serves rate := fun _ _ _ =>
  ⟨fun _ => True, fun _ _ => ⟨_, rfl, trivial⟩, fun _ _ _ => ⟨_, rfl, trivial⟩, fun _ _ _ => ⟨_, rfl, trivial⟩⟩

/-- A listing of one word that is known by its name, at 500 words a second, and with a log at 60. -/
theorem answer_computes_hex :
    let slow : Options := ⟨"six.hex", false, 18000, some 60, false, false, false, 4096, 1⟩
    let o : Options := { slow with clockRate := some 500, verbosity := 0 }
    let files : Files := fun _ => .ok ⟨#[0x36, 0x30, 0x30, 0x35], none⟩
    let random : RandomStream := ⟨fun _ => 0, 0⟩
    readArguments ["--hz", "500", "six.hex"] = .ok o ∧ readArguments ["-v", "--hz=60", "six.hex"] = .ok slow ∧
      Paced o.clockRate ∧ Paced slow.clockRate ∧ o.Stands o.settings ∧
      Undrawn Stopwatch.pacer o o.settings files random ∧
      ∃ r, Computes Stopwatch.pacer o o.settings files random r ∧ r ≠ .error (.failure .overflow) ∧
        (∀ ρ, ∃ report,
          answer Stopwatch.pacer readArguments ["--hz", "500", "six.hex"] files ρ = some report ∧ Reports report r) ∧
        ∀ ρ ρ', ∃ report report',
          answer Stopwatch.pacer readArguments ["--hz", "500", "six.hex"] files ρ = some report ∧
          answer Stopwatch.pacer readArguments ["-v", "--hz=60", "six.hex"] files ρ' = some report' ∧
          report'.code = report.code ∧ report'.stderr = report.stderr ∧ report'.plainLines = report.plainLines := by
  intro slow o files random
  have hparse : readArguments ["--hz", "500", "six.hex"] = .ok o := by rfl
  have hparse' : readArguments ["-v", "--hz=60", "six.hex"] = .ok slow := by rfl
  have hpaced : Paced o.clockRate := by
    rintro f ⟨⟩
    decide
  have hpaced' : Paced slow.clockRate := by
    rintro f ⟨⟩
    decide
  have hlisted : o.Listed := .inr ⟨"hex", by simp, by cbv⟩
  have hundrawn : Undrawn Stopwatch.pacer o o.settings files random := by
    intro s c r t c' hloads _
    cases hloads with
    | image hnot => exact absurd hlisted hnot
    | @listing text p cpu _ _ _ htext hp hcpu hs =>
      have htext' : (files o.program).bind readText = .ok "6005" := by cbv
      cases htext'.symm.trans htext
      have hp' : Program.parseListing "6005" = .ok (.listing #[0x6005]) := by cbv
      cases hp'.symm.trans hp
      obtain ⟨q, hq, hcarries⟩ := PacedSession.exists_new o.settings
        (Stopwatch.serves o.settings.clockRate) cpu random (.listing #[0x6005]) ({} : FrameCounter)
      cases hs.symm.trans hq
      generalize hnew : Session.new o.settings cpu random (.listing #[0x6005]) = q at hcarries
      cases hcarries with
      | ok _ =>
        obtain ⟨rfl, hprogram, -⟩ := Session.addressing_of_new hnew
        refine Session.undrawn_of_listing hprogram (fun word hword x kk hrandom => ?_) _
        obtain rfl : word = 0x6005 := by simpa using hword
        rw [Decoder.decode_standard_iff (Interpreter.decoder_of_ofSettings hcpu)] at hrandom
        cases hrandom
  have hstands : o.Stands o.settings := o.stands_settings
  obtain ⟨r, hr, -, hbounded, hreports, hagree⟩ := answer_computes hparse rfl (Stopwatch.serves _) hstands files random
    hundrawn
  exact ⟨hparse, hparse', hpaced, hpaced', hstands, hundrawn, r, hr, hbounded, hreports,
    hagree _ _ hparse' rfl (.inr ⟨hpaced, hpaced'⟩) (Stopwatch.serves _)⟩

end Chip8.CommandLine
