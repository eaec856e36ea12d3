import Chip8.Proofs.Counter
import Chip8.Proofs.Undrawn

/-! Sessions that are switched off and on. Nothing but the machine remembers what a session was asked for, and a reset
leaves nothing of it there. So a listing that draws no random words runs again as it ran at first, and only the count of
its instructions goes on. -/

namespace Chip8

/-- Memories of one size, with programs at one address. Their bytes may differ. -/
structure Memory.SameLayout (m m' : Memory) : Prop where
  size : m'.size = m.size
  programAddr : m'.programAddr = m.programAddr

namespace Memory.SameLayout

theorem refl (m : Memory) : SameLayout m m := ⟨rfl, rfl⟩

theorem trans {a b c : Memory} (h : SameLayout a b) (h' : SameLayout b c) : SameLayout a c :=
  ⟨h'.size.trans h.size, h'.programAddr.trans h.programAddr⟩

theorem poke (m : Memory) (a : Nat) (b : UInt8) : SameLayout m (m.poke a b) := ⟨Array.size_setIfInBounds, rfl⟩

end Memory.SameLayout

theorem Memory.getD_clear (m : Memory) (a : Nat) : (m.clear.byte? a).getD 0 = 0 := by
  unfold clear byte?
  rw [Array.getElem?_replicate]
  split <;> rfl

/-- Nothing is left of the bytes of a memory that was cleared. -/
theorem Memory.clear_eq {m m' : Memory} (h : m.SameLayout m') : m'.clear = m.clear :=
  eq_of_bytes (by rw [size_clear, size_clear, h.size]) h.programAddr fun a => by rw [getD_clear, getD_clear]

theorem Memory.Initial.clear_eq {m : Memory} {settings : Settings} (h : m.Initial settings #[]) : m.clear = m := by
  refine eq_of_bytes m.size_clear rfl fun a => ?_
  rw [getD_clear]
  by_cases ha : a < settings.memorySize
  · rw [h.zero a ha (Nat.lt_or_ge _ _)]
    rfl
  · have hle : m.size ≤ a := h.size ▸ Nat.le_of_not_lt ha
    have hnone : m.byte? a = none := Array.getElem?_eq_none hle
    rw [hnone]
    rfl

namespace Session

/-- What becomes of a session that is asked for steps and runs, whatever comes of them and whoever watches. In between,
registers, slots and bytes may be set to anything. -/
inductive Leads (s : Session) : Session → Prop
  | refl : Leads s s
  | ask {t : Session} {μ : Type} (o : Observer μ) (u : μ) (request : Request) :
    Leads s t → Leads s (t.ask o u request).2.1
  | edit {t : Session} {m : Machine} : t.machine.memory.SameLayout m.memory → Leads s t → Leads s (t.withMachine m)

/-- Switched off and on. -/
def reset (s : Session) : Session := s.withMachine s.machine.reset

/-- The same session with so many instructions more on its count. -/
def ahead (s : Session) (k : Nat) : Session := { s with steps := s.steps + k }

variable {s t : Session} {k : Nat}

theorem sameLayout_step (s : Session) : s.machine.memory.SameLayout s.step.2.machine.memory := by
  by_cases hd : ∃ d, s.step.1 = .ok (some d)
  · obtain ⟨d, hd⟩ := hd
    obtain ⟨v, he, hv⟩ := effect_of_step (Prod.ext hd rfl : s.step = (.ok (some d), s.step.2))
    have hmemory := Interpreter.memoryEffect_of_effect he
    have hsize := (congrArg View.size hv).trans hmemory.size
    have haddr := (congrArg View.programAddr hv).trans hmemory.programAddr
    exact ⟨hsize, UInt16.toNat_inj.1 haddr⟩
  · rw [step_of_not_some (not_exists.1 hd)]
    exact .refl _

theorem sameLayout_after (s : Session) (n : Nat) : s.machine.memory.SameLayout (s.after n).machine.memory := by
  induction n with
  | zero => exact .refl _
  | succ n ih => exact ih.trans (sameLayout_step _)

theorem Leads.kept (h : s.Leads t) : Kept s t ∧ s.machine.memory.SameLayout t.machine.memory := by
  induction h with
  | refl => exact ⟨.refl s, .refl _⟩
  | @ask t μ o u request _ ih =>
    obtain ⟨n, -, hn⟩ := continues_iff.1 (continues_ask o t u request)
    rw [hn]
    exact ⟨ih.1.trans (kept_after t n), ih.2.trans (sameLayout_after t n)⟩
  | edit hm _ ih => exact ⟨ih.1.trans ⟨rfl, rfl, rfl⟩, ih.2.trans hm⟩

/-! ### What is left after a reset -/

section Starting

variable {settings : Settings} {cpu : Interpreter} {random : RandomStream} {words : Array Word}

theorem machine_reset_of_new (h : Session.new settings cpu random (.listing words) = .ok s) :
    s.machine.reset = s.machine := by
  obtain ⟨hvalid, hp, hc⟩ := agree_of_new h
  obtain ⟨m, hm, hnew⟩ := new_of_valid hvalid hp hc random
  obtain rfl := Except.ok.inj (h.symm.trans hnew)
  exact congrArg Machine.fresh hm.clear_eq

/-- A reset takes a session back to its first machine, whatever has become of it. -/
theorem Leads.reset_eq (h : s.Leads t) (hs : s.machine.reset = s.machine) :
    t.reset = { s with world := ⟨s.machine, t.world.random⟩, steps := t.steps } := by
  obtain ⟨hkept, hlayout⟩ := h.kept
  have hmachine : t.machine.reset = s.machine := (congrArg Machine.fresh (Memory.clear_eq hlayout)).trans hs
  unfold reset withMachine
  rw [hmachine]
  obtain ⟨cpu, program, addr, w, n⟩ := t
  obtain ⟨rfl, rfl, rfl⟩ := hkept
  rfl

end Starting

/-! ### The second time -/

/-- The count plays no part in what a step does. -/
theorem step_ahead (s : Session) (k : Nat) : (s.ahead k).step = (s.step.1, s.step.2.ahead k) := by
  rcases hf : s.fetch with f | _ | word
  · have hf' : (s.ahead k).fetch = .error f := hf
    rw [step_of_fetch_error hf, step_of_fetch_error hf']
  · have hf' : (s.ahead k).fetch = .ok none := hf
    rw [step_of_fetch_none hf, step_of_fetch_none hf']
  · have hf' : (s.ahead k).fetch = .ok (some word) := hf
    rw [step_of_fetch hf, step_of_fetch hf', show (s.ahead k).interpreter.dispatch word (s.ahead k).world =
      s.interpreter.dispatch word s.world from rfl]
    rcases s.interpreter.dispatch word s.world with ⟨f | d, w⟩
    · rfl
    · have hcount : s.steps + k + 1 = s.steps + 1 + k := Nat.add_right_comm ..
      simp only [advance, ahead, hcount]

/-- The second session is where the first one is, so many instructions later, and neither is to draw a random word. -/
structure Repeats (k : Nat) (s t : Session) : Prop where
  state : ∃ ρ, t = (s.withRandom ρ).ahead k
  undrawn : ∀ n, s.Undrawn n

theorem Repeats.step (h : Repeats k s t) : t.step.1 = s.step.1 ∧ Repeats k s.step.2 t.step.2 := by
  obtain ⟨⟨ρ, rfl⟩, hundrawn⟩ := h
  have hnot : ∀ d, s.step.1 = .ok (some d) → ∀ x kk, d.instruction ≠ .random x kk := hundrawn 1 0 Nat.one_pos
  have hstep := step_ahead (s.withRandom ρ) k
  rw [step_withRandom ρ hnot] at hstep
  rw [hstep]
  exact ⟨rfl, ⟨ρ, rfl⟩, fun n => (hundrawn (n + 1)).after_step⟩

theorem Repeats.machine (h : Repeats k s t) : t.machine = s.machine := by
  obtain ⟨⟨ρ, rfl⟩, -⟩ := h
  rfl

theorem lockstep_repeats (k : Nat) : Lockstep id id (Repeats k) where
  answer {s t} h := by
    rw [h.step.1, Option.map_id]
    rcases s.step.1 with f | d <;> rfl
  next h := h.step.2
  idles {s t d} h _ := by
    unfold Idles
    rw [h.machine, h.step.2.machine]
    rfl

section Requests

variable {μ μ' : Type} {o : Observer μ} {o' : Observer μ'} {p : μ → Prop} {p' : μ' → Prop} {u : μ} {u' : μ'}

theorem quiet_round (ho : o.Quiet p) (hu : p u) (s : Session) : p (s.round o u).2.2 := by
  have hround := round_cases o s u
  generalize s.round o u = r at hround ⊢
  obtain ⟨r, t, v⟩ := r
  cases hround with
  | failed | ended => exact hu
  | unseen _ hf => exact (ho.frame hu hf).2
  | unasked _ hf hi | interrupted _ hf hi | idle _ hf hi | goesOn _ hf hi =>
    exact (ho.interrupted (ho.frame hu hf).2 hi).2

theorem quiet_ask (ho : o.Quiet p) (hu : p u) (s : Session) (request : Request) : p (s.ask o u request).2.2 := by
  cases request with
  | step => exact hu
  | run max =>
    change p (s.run o max u).2.2
    induction max generalizing s u with
    | zero => exact hu
    | succ max ih =>
      have hround := quiet_round ho hu s
      rw [run_succ]
      generalize s.round o u = r at hround ⊢
      obtain ⟨_ | r, t, v⟩ := r
      · exact ih hround t
      · exact hround

theorem Repeats.ask (h : Repeats k s t) (ho : o.Quiet p) (hu : p u) (ho' : o'.Quiet p') (hu' : p' u')
    (request : Request) :
    (t.ask o' u' request).1 = (s.ask o u request).1 ∧
      Repeats k (s.ask o u request).2.1 (t.ask o' u' request).2.1 := by
  cases request with
  | step => exact ⟨congrArg Answer.stepped h.step.1, h.step.2⟩
  | run max =>
    obtain ⟨hend, hlast⟩ := (lockstep_repeats k).run h ho hu ho' hu' max
    refine ⟨congrArg Answer.ran (hend.trans ?_), hlast⟩
    rcases (s.run o max u).1 with f | halt <;> rfl

theorem Repeats.askAll (h : Repeats k s t) (ho : o.Quiet p) (hu : p u) (ho' : o'.Quiet p') (hu' : p' u')
    (requests : List Request) :
    (askAll o' requests t u').1 = (askAll o requests s u).1 ∧
      Repeats k (askAll o requests s u).2.1 (askAll o' requests t u').2.1 := by
  induction requests generalizing s t u u' with
  | nil => exact ⟨rfl, h⟩
  | cons request requests ih =>
    obtain ⟨hanswer, hnext⟩ := h.ask ho hu ho' hu' request
    obtain ⟨hanswers, hlast⟩ := ih hnext (quiet_ask ho hu s request) (quiet_ask ho' hu' t request)
    exact ⟨List.cons_eq_cons.2 ⟨hanswer, hanswers⟩, hlast⟩

end Requests

/-- Asked for the same, both give the same answers and go through the same states, and the count of `t` stays ahead of
that of `s`. Who watches them may differ, and does not interfere. -/
def Echoes (k : Nat) (s t : Session) : Prop :=
  ∀ ⦃μ μ' : Type⦄ ⦃o : Observer μ⦄ ⦃o' : Observer μ'⦄ ⦃p : μ → Prop⦄ ⦃p' : μ' → Prop⦄ ⦃u : μ⦄ ⦃u' : μ'⦄,
    o.Quiet p → p u → o'.Quiet p' → p' u' → ∀ requests,
      (askAll o' requests t u').1 = (askAll o requests s u).1 ∧
        (askAll o' requests t u').2.1.machine = (askAll o requests s u).2.1.machine ∧
        (askAll o' requests t u').2.1.steps = (askAll o requests s u).2.1.steps + k

theorem Repeats.echoes (h : Repeats k s t) : Echoes k s t := by
  intro μ μ' o o' p p' u u' ho hu ho' hu' requests
  obtain ⟨hanswers, hlast⟩ := h.askAll ho hu ho' hu' requests
  refine ⟨hanswers, hlast.machine, ?_⟩
  obtain ⟨ρ, hstate⟩ := hlast.state
  rw [hstate]
  rfl

section Starting

variable {settings : Settings} {cpu : Interpreter} {random : RandomStream} {words : Array Word}

/-- After a reset, a listing without random words runs as in a new session, whatever has been asked of it and written
to its machine. -/
theorem reset_replays (hnew : Session.new settings cpu random (.listing words) = .ok s)
    (hwords : ∀ word ∈ words, ∀ x kk, cpu.decoder.decode word ≠ .ok (.random x kk)) (h : s.Leads t)
    (ρ : RandomStream) :
    ∃ f, Session.new settings cpu ρ (.listing words) = .ok f ∧ t.reset.machine = f.machine ∧
      Echoes t.steps f t.reset := by
  have hreset := h.reset_eq (machine_reset_of_new hnew)
  have hsteps := steps_of_new hnew
  obtain ⟨hcpu, hprogram, -⟩ := addressing_of_new hnew
  refine ⟨s.withRandom ρ, by rw [new_withRandom random, hnew]; rfl, by rw [hreset]; rfl, ?_⟩
  have hrepeats : Repeats t.steps (s.withRandom ρ) t.reset := by
    refine ⟨⟨t.world.random, ?_⟩, undrawn_of_listing hprogram fun word hw => ?_⟩
    · rw [hreset]
      simp only [withRandom, ahead, machine, hsteps, Nat.zero_add]
    · have hdecode := hwords word hw
      rw [← hcpu] at hdecode
      exact hdecode
  exact hrepeats.echoes

end Starting

/-- A call, and then a machine that is written all over. -/
theorem reset_replays_bracketed :
    let called := (bracketed.ask FrameCounter.observer {} .step).2.1
    let t := called.withMachine { called.machine with
      v := Vector.replicate 16 9, sp := 3, memory := called.machine.memory.poke 0x300 7 }
    t.steps = 1 ∧ t.reset.machine = bracketed.machine ∧
      (askAll FrameCounter.observer [.step, .run 3] t.reset {}).1 =
        (askAll FrameCounter.observer [.step, .run 3] bracketed {}).1 := by
  intro called t
  have hnew : Session.new {} bracketed.interpreter bracketed.world.random bracketed.program = .ok bracketed := rfl
  have hwords : ∀ word ∈ (#[0x2002, 0xFFFF, 0x00EE] : Array Word), ∀ x kk,
      bracketed.interpreter.decoder.decode word ≠ .ok (.random x kk) := by
    intro word hword x kk
    simp only [List.mem_toArray, List.mem_cons, List.not_mem_nil, or_false] at hword
    obtain rfl | rfl | rfl := hword <;> exact nofun
  have hleads : bracketed.Leads t := .edit (.poke ..) (.ask FrameCounter.observer {} .step .refl)
  obtain ⟨f, hf, hmachine, hechoes⟩ := reset_replays hnew hwords hleads bracketed.world.random
  obtain rfl := Except.ok.inj (hnew.symm.trans hf)
  have hquiet := FrameCounter.quiet
  exact ⟨rfl, hmachine, (hechoes hquiet rfl hquiet rfl _).1⟩

end Session
end Chip8
