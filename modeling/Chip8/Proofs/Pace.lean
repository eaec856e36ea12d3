import Chip8.Pacing
import Chip8.Proofs.History

/-! Pacers that keep out of the way. Where each call of a helper comes back and leaves the session and its observer as
they were, a paced session starts and runs as a session does that has no helper. -/

namespace Chip8

/-- At this rate a pacer only takes time. A helper can be built, and is in one of the states `running` ever after; its
calls come back, and neither they nor the building of it touch the session or the observer. -/
structure Pacer.Unobtrusive {κ : Type} (pacer : Pacer κ) (rate : Float) (running : κ → Prop) : Prop where
  build : ∀ {μ : Type} (s : Session) (u : μ), ∃ helper, pacer.build rate s u = some (helper, s, u) ∧ running helper
  loopStart : ∀ {μ : Type} {helper : κ} (s : Session) (u : μ), running helper →
    ∃ helper', pacer.loopStart helper s u = some (helper', s, u) ∧ running helper'
  loopSleep : ∀ {μ : Type} {helper : κ} (s : Session) (u : μ), running helper →
    ∃ helper', pacer.loopSleep helper s u = some (helper', s, u) ∧ running helper'

/-- The pacer is unobtrusive at the rate that is asked for, if one is at which a clock can run. -/
def Pacer.Serves {κ : Type} (pacer : Pacer κ) (rate : Option Float) : Prop :=
  ∀ f ∈ rate, Settings.clockRateValid f = true → ∃ running, pacer.Unobtrusive f running

theorem Settings.clockRateValid_of_valid {s : Settings} (h : s.defect? = none) {f : Float} (hf : f ∈ s.clockRate) :
    clockRateValid f = true := by
  rw [Option.mem_def] at hf
  unfold defect? at h
  split at h
  · cases h
  · split at h
    · cases h
    · simp only [hf] at h
      by_cases hvalid : clockRateValid f = true
      · exact hvalid
      · rw [if_neg hvalid] at h
        cases h

namespace PacedSession

variable {κ μ : Type} {pacer : Pacer κ} {s : PacedSession κ}

/-- The helper, if there is one, is in a state in which it only takes time. -/
def Undisturbed (pacer : Pacer κ) (s : PacedSession κ) : Prop :=
  ∀ helper ∈ s.helper, ∃ rate running, pacer.Unobtrusive rate running ∧ running helper

/-- A call that leaves what it is given as it was comes back to a session that nobody disturbs either. -/
theorem Undisturbed.entrust {call : κ → Session → μ → Option (κ × Session × μ)} {u : μ} (h : s.Undisturbed pacer)
    (hcall : ∀ {rate : Float} {running : κ → Prop} {helper : κ}, pacer.Unobtrusive rate running → running helper →
      ∃ helper', call helper s.session u = some (helper', s.session, u) ∧ running helper') :
    ∃ t, s.entrust call u = some (t, u) ∧ t.session = s.session ∧ t.Undisturbed pacer := by
  cases hs : s.helper with
  | none => exact ⟨s, by rw [PacedSession.entrust, hs], rfl, h⟩
  | some helper =>
    obtain ⟨rate, running, hpacer, hrunning⟩ := h helper hs
    obtain ⟨helper', hreturn, hrunning'⟩ := hcall hpacer hrunning
    refine ⟨⟨s.session, some helper'⟩, ?_, rfl, fun helper'' hhelper => ?_⟩
    · rw [PacedSession.entrust, hs]
      simp only [hreturn, bind, Option.bind, pure]
    · cases hhelper
      exact ⟨rate, running, hpacer, hrunning'⟩

theorem Undisturbed.loopStart (h : s.Undisturbed pacer) (u : μ) :
    ∃ t, s.entrust pacer.loopStart u = some (t, u) ∧ t.session = s.session ∧ t.Undisturbed pacer :=
  h.entrust fun hpacer hrunning => hpacer.loopStart s.session u hrunning

theorem Undisturbed.loopSleep (h : s.Undisturbed pacer) (u : μ) :
    ∃ t, s.entrust pacer.loopSleep u = some (t, u) ∧ t.session = s.session ∧ t.Undisturbed pacer :=
  h.entrust fun hpacer hrunning => hpacer.loopSleep s.session u hrunning

/-- Where nobody disturbs it, a paced session runs as it would without its helper. -/
theorem Undisturbed.run (h : s.Undisturbed pacer) (o : Observer μ) (max : Nat) (u : μ) :
    ∃ t, s.run pacer o max u = some ((s.session.run o max u).1, t, (s.session.run o max u).2.2) ∧
      t.session = (s.session.run o max u).2.1 := by
  induction max generalizing s u with
  | zero => exact ⟨s, rfl, rfl⟩
  | succ max ih =>
    obtain ⟨t, hstart, hsession, ht⟩ := h.loopStart u
    rw [PacedSession.run, hstart, Session.run_succ]
    simp only [bind, Option.bind, hsession]
    rcases s.session.round o u with ⟨_ | r, session, v⟩
    · have hround : ({ t with session } : PacedSession κ).Undisturbed pacer := ht
      obtain ⟨t', hsleep, hsession', ht'⟩ := hround.loopSleep v
      have hrun := ih ht' v
      rw [hsession'] at hrun
      simpa only [hsleep] using hrun
    · exact ⟨{ t with session }, rfl, rfl⟩

/-- Both have failed alike, or there is a session that is paced and nobody disturbs it. -/
inductive Carries {ε : Type} (pacer : Pacer κ) : Except ε (PacedSession κ) → Except ε Session → Prop
  | error (e : ε) : Carries pacer (.error e) (.error e)
  | ok {s : PacedSession κ} : s.Undisturbed pacer → Carries pacer (.ok s) (.ok s.session)

theorem Carries.mapError {ε ε' : Type} {r : Except ε (PacedSession κ)} {r' : Except ε Session}
    (h : Carries pacer r r') (f : ε → ε') : Carries pacer (r.mapError f) (r'.mapError f) := by
  cases h with
  | error e => exact .error (f e)
  | ok hs => exact .ok hs

section Starting

variable (settings : Settings) (h : pacer.Serves settings.clockRate) (cpu : Interpreter) (random : RandomStream)
include h

theorem exists_new (program : Program) (u : μ) :
    ∃ r, PacedSession.new pacer settings cpu random program u = some (r, u) ∧
      Carries pacer r (Session.new settings cpu random program) := by
  unfold PacedSession.new
  cases hnew : Session.new settings cpu random program with
  | error f => exact ⟨_, rfl, .error f⟩
  | ok s =>
    cases hrate : settings.clockRate with
    | none => exact ⟨_, rfl, .ok fun helper hhelper => by cases hhelper⟩
    | some rate =>
      have hvalid := Settings.clockRateValid_of_valid (Session.agree_of_new hnew).1 hrate
      obtain ⟨running, hpacer⟩ := h rate hrate hvalid
      obtain ⟨helper, hbuild, hrunning⟩ := hpacer.build s u
      simp only [hbuild, bind, Option.bind, pure]
      refine ⟨_, rfl, .ok (s := ⟨s, some helper⟩) fun helper' hhelper => ?_⟩
      cases hhelper
      exact ⟨rate, running, hpacer, hrunning⟩

theorem exists_loadImage (r : Reader) (u : μ) :
    ∃ r', PacedSession.loadImage pacer settings cpu random r u = some (r', u) ∧
      Carries pacer r' (Session.loadImage settings cpu random r) := by
  obtain ⟨r', hnew, hcarries⟩ := exists_new settings h cpu random (.image 0) u
  rw [PacedSession.loadImage, Session.loadImage, hnew]
  simp only [bind, Option.bind, Except.bind, pure]
  generalize Session.new settings cpu random (.image 0) = q at hcarries
  cases hcarries with
  | error f => exact ⟨_, rfl, .error f⟩
  | @ok s hs =>
    refine ⟨_, rfl, ?_⟩
    change Carries pacer ((s.session.load r).map _) (s.session.load r)
    cases s.session.load r with
    | error f => exact .error f
    | ok session => exact .ok (s := { s with session }) hs

end Starting

end PacedSession
end Chip8
