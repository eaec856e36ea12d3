import Chip8.Proofs.Interleaving
import Chip8.Proofs.Lockstep

/-! Random words that nobody draws. A session that carries out no random instruction does the same whatever words
are to come, and who watches it makes no difference to it as long as nobody interferes. -/

namespace Chip8.Session

/-- The same session with other random words to come. -/
def withRandom (s : Session) (ρ : RandomStream) : Session := { s with world := { s.world with random := ρ } }

/-- None of the next `n` steps carries out a random instruction. -/
def Undrawn (s : Session) (n : Nat) : Prop :=
  ∀ k < n, ∀ d, (s.after k).step.1 = .ok (some d) → ∀ x kk, d.instruction ≠ .random x kk

variable {μ μ' : Type} {o : Observer μ} {o' : Observer μ'} {p : μ → Prop} {p' : μ' → Prop} {u v : μ} {u' : μ'}
  {s t : Session}

theorem Undrawn.after_step {n : Nat} (h : s.Undrawn n) : s.step.2.Undrawn (n - 1) := by
  intro k hk
  rw [← after_succ]
  exact h (k + 1) (by omega)

/-- A listing without random instructions draws no random word. -/
theorem undrawn_of_listing {words : Array Word} (hp : s.program = .listing words)
    (h : ∀ word ∈ words, ∀ x kk, s.interpreter.decoder.decode word ≠ .ok (.random x kk)) (n : Nat) : s.Undrawn n := by
  intro k _ d hd x kk hrandom
  obtain ⟨hcpu, hprogram, -⟩ := kept_after s k
  obtain ⟨word, w, hfetch, hdispatch, -⟩ := step_eq_some_iff.1 (Prod.ext hd rfl : (s.after k).step = (.ok (some d), _))
  have hmem : word ∈ words := by
    rw [fetch_listing (hprogram.trans hp)] at hfetch
    exact Array.mem_of_getElem? (Except.ok.inj hfetch)
  obtain ⟨-, -, hdecode, -⟩ := Interpreter.dispatch_eq_ok_iff.1 hdispatch
  exact h word hmem x kk (by rw [← hcpu, hdecode, hrandom])

theorem step_withRandom (ρ : RandomStream)
    (h : ∀ d, s.step.1 = .ok (some d) → ∀ x kk, d.instruction ≠ .random x kk) :
    (s.withRandom ρ).step = (s.step.1, s.step.2.withRandom ρ) := by
  rcases hf : s.fetch with f | _ | word
  · have hf' : (s.withRandom ρ).fetch = .error f := hf
    rw [step_of_fetch_error hf, step_of_fetch_error hf']
  · have hf' : (s.withRandom ρ).fetch = .ok none := hf
    rw [step_of_fetch_none hf, step_of_fetch_none hf']
  · have hf' : (s.withRandom ρ).fetch = .ok (some word) := hf
    have hdecode : ∀ x kk, s.interpreter.decoder.decode word ≠ .ok (.random x kk) := by
      intro x kk hrandom
      refine h ⟨s.machine.pc, word, .random x kk, .next⟩ ?_ x kk rfl
      rw [step_of_fetch hf, s.interpreter.dispatch_of_random hrandom]
      rfl
    have hsame : s.interpreter.dispatch word (s.withRandom ρ).world = ((s.interpreter.dispatch word s.world).1,
        ⟨(s.interpreter.dispatch word s.world).2.machine, ρ⟩) :=
      (s.interpreter.dispatch_of_not_random hdecode s.machine s.world.random ρ).2.2
    have hcpu : (s.withRandom ρ).interpreter = s.interpreter := rfl
    rw [step_of_fetch hf, step_of_fetch hf', hcpu, hsame]
    rcases s.interpreter.dispatch word s.world with ⟨f | d, w⟩ <;> rfl

theorem steps_step_le_run (o : Observer μ) (max : Nat) (s : Session) (u : μ) :
    s.step.2.steps ≤ (s.run o (max + 1) u).2.1.steps := by
  rw [run_succ, ← session_round o s u]
  rcases s.round o u with ⟨_ | r, t, v⟩
  · exact (continues_run o max t v).steps
  · exact Nat.le_refl _

/-- A run that draws no random word ends alike whatever words are to come, and whoever watches. -/
theorem run_withRandom (ρ : RandomStream) (ho : o.Quiet p) (hu : p u) (ho' : o'.Quiet p') (hu' : p' u') {max : Nat}
    {r : Except Failure Halt} (h : s.run o max u = (r, t, v)) (hundrawn : s.Undrawn (t.steps - s.steps)) :
    ∃ v', (s.withRandom ρ).run o' max u' = (r, t.withRandom ρ, v') ∧ p' v' := by
  induction max generalizing s u u' with
  | zero =>
    cases h
    exact ⟨u', rfl, hu'⟩
  | succ max ih =>
    have hsteps : s.step.2.steps ≤ t.steps := by simpa only [h] using steps_step_le_run o max s u
    have hnot : ∀ d, s.step.1 = .ok (some d) → ∀ x kk, d.instruction ≠ .random x kk := by
      intro d hd
      have hone : s.step.2.steps = s.steps + 1 := steps_of_step (d := d) (Prod.ext hd rfl)
      exact hundrawn 0 (by omega) d hd
    have hs' := step_withRandom ρ hnot
    rw [run_succ] at h ⊢
    rcases hs : s.step with ⟨f | _ | d, s₁⟩ <;> rw [hs] at hs' hsteps
    · rw [round_of_step_error hs] at h
      rw [round_of_step_error hs']
      cases h
      exact ⟨u', rfl, hu'⟩
    · rw [round_of_step_none hs] at h
      rw [round_of_step_none hs']
      cases h
      exact ⟨u', rfl, hu'⟩
    · obtain ⟨w, hw, hround⟩ := round_of_step ho hu hs
      obtain ⟨w', hw', hround'⟩ := round_of_step ho' hu' hs'
      have hidles : (s.withRandom ρ).Idles d (s₁.withRandom ρ) ↔ s.Idles d s₁ := .rfl
      rw [hround] at h
      rw [hround']
      by_cases hidle : s.Idles d s₁
      · rw [if_pos hidle] at h
        rw [if_pos (hidles.2 hidle)]
        cases h
        exact ⟨w', rfl, hw'⟩
      · rw [if_neg hidle] at h
        rw [if_neg (mt hidles.1 hidle)]
        have hlater := hundrawn.after_step
        rw [hs, ← Nat.sub_add_eq, ← steps_of_step hs] at hlater
        exact ih hw hw' h hlater

section Starting

variable {settings : Settings} {cpu : Interpreter}

theorem new_withRandom (random ρ : RandomStream) (program : Program) :
    Session.new settings cpu ρ program = (Session.new settings cpu random program).map (·.withRandom ρ) := by
  simp only [Session.new, bind, Except.bind, pure, Except.pure, throw, throwThe, MonadExceptOf.throw]
  cases settings.defect? with
  | some defect => rfl
  | none =>
    by_cases hagree : program.addressing ≠ settings.addressing ∨ cpu.addressing ≠ settings.addressing
    · simp only [if_pos hagree, Except.map]
    · simp only [if_neg hagree]
      cases Machine.ofMemorySize settings.memorySize <;> rfl

theorem loadImage_withRandom (random ρ : RandomStream) (r : Reader) :
    Session.loadImage settings cpu ρ r = (Session.loadImage settings cpu random r).map (·.withRandom ρ) := by
  simp only [loadImage, bind, Except.bind]
  rw [new_withRandom random]
  cases Session.new settings cpu random (.image 0) with
  | error f => rfl
  | ok s =>
    have hmachine : (s.withRandom ρ).machine = s.machine := rfl
    simp only [Except.map, load, hmachine]
    rcases s.machine.memory.loadProgram r with ⟨f | n, m⟩ <;> rfl

end Starting

end Chip8.Session
