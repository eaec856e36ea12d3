import Chip8.Proofs.History

/-! Failures leave everything as it was. A session that failed therefore still is where its last
instruction left it, fetches the same word again, and fails the same way whatever it is asked for, until
its machine is edited. -/

namespace Chip8

/-- A computation that fails leaves its state as it was. -/
def Atomic {σ ε α : Type} (f : σ → Except ε α × σ) : Prop := ∀ s e s', f s = (.error e, s') → s' = s

theorem Memory.atomic_write (data : List UInt8) (addr : UInt16) : Atomic fun m : Memory => m.write data addr := by
  intro m f m' h
  simp only [write] at h
  split at h <;> cases h
  rfl

namespace Machine

theorem atomic_push (addr : UInt16) : Atomic fun m : Machine => m.push addr := by
  intro m f m' h
  simp only [push] at h
  split at h <;> cases h
  rfl

theorem atomic_pop : Atomic pop := by
  intro m f m' h
  simp only [pop] at h
  split at h <;> cases h
  rfl

theorem atomic_storeRegisters (x : Nat) : Atomic fun m : Machine => m.storeRegisters x := by
  intro m f m' h
  simp only [storeRegisters] at h
  split at h
  · rcases hw : m.memory.write (m.v.toList.take (x + 1)) m.i with ⟨_ | _, memory⟩ <;> rw [hw] at h <;> cases h
    rw [Memory.atomic_write _ _ _ _ _ hw]
  · cases h
    rfl

theorem atomic_loadRegisters (x : Nat) : Atomic fun m : Machine => m.loadRegisters x := by
  intro m f m' h
  simp only [loadRegisters] at h
  split at h
  · split at h <;> cases h
    rfl
  · cases h
    rfl

end Machine
namespace Interpreter

variable (cpu : Interpreter)

theorem atomic_perform (i : Instruction) : Atomic (cpu.perform i) := by
  intro w f w' h
  cases i with
  | skipEqImm | skipNeImm | skipEqReg | skipNeReg =>
    simp only [perform] at h
    split at h <;> cases h
  | call nnn =>
    rcases hp : w.machine.push w.machine.pc with ⟨_ | _, m⟩ <;> simp only [perform, hp] at h <;> cases h
    rw [Machine.atomic_push _ _ _ _ hp]
  | ret =>
    rcases hp : w.machine.pop with ⟨_ | _, m⟩ <;> simp only [perform, hp] at h <;> cases h
    rw [Machine.atomic_pop _ _ _ hp]
  | storeRegs x =>
    rcases hs : w.machine.storeRegisters x.toNat with ⟨_ | _, m⟩ <;> simp only [perform, hs] at h <;> cases h
    rw [Machine.atomic_storeRegisters _ _ _ _ hs]
  | loadRegs x =>
    rcases hl : w.machine.loadRegisters x.toNat with ⟨_ | _, m⟩ <;> simp only [perform, hl] at h <;> cases h
    rw [Machine.atomic_loadRegisters _ _ _ _ hl]
  | _ => cases h

theorem atomic_apply (i : Instruction) : Atomic (cpu.apply i) := by
  intro w f w' h
  unfold apply at h
  split at h
  · split at h
    · cases h
      rfl
    · exact cpu.atomic_perform i w f w' h
  · exact cpu.atomic_perform i w f w' h

theorem atomic_dispatch (word : Word) : Atomic (cpu.dispatch word) := by
  intro w f w' h
  cases hi : cpu.decoder.decode word with
  | error f' =>
    rw [dispatch_of_decode_error hi] at h
    cases h
    rfl
  | ok i =>
    rw [dispatch_of_decode hi] at h
    rcases ha : cpu.apply i w with ⟨_ | _, w''⟩ <;> rw [ha] at h <;> cases h
    exact cpu.atomic_apply i _ _ _ ha

theorem atomic_dispatchText (text : String) : Atomic (cpu.dispatchText text) := by
  intro w f w' h
  unfold dispatchText at h
  split at h
  · exact cpu.atomic_dispatch _ w f w' h
  · cases h
    rfl

theorem atomic_execute (word : Word) : Atomic (cpu.execute word) := by
  intro w f w' h
  rcases hd : cpu.dispatch word w with ⟨_ | _, w''⟩ <;> rw [execute, hd] at h <;> cases h
  exact cpu.atomic_dispatch word _ _ _ hd

theorem atomic_executeText (text : String) : Atomic (cpu.executeText text) := by
  intro w f w' h
  rcases hd : cpu.dispatchText text w with ⟨_ | _, w''⟩ <;> rw [executeText, hd] at h <;> cases h
  exact cpu.atomic_dispatchText text _ _ _ hd

variable {cpu}

theorem error_of_dispatch {word : Word} {w w' : World} {f : Failure} (h : cpu.dispatch word w = (.error f, w')) :
    f = .unknownInstruction word ∨ ∃ fault, f = .fault w.machine.pc word fault := by
  cases hi : cpu.decoder.decode word with
  | error f' =>
    rw [dispatch_of_decode_error hi] at h
    cases h
    exact .inl (Decoder.error_of_decode hi)
  | ok i =>
    rw [dispatch_of_decode hi] at h
    rcases ha : cpu.apply i w with ⟨fault | _, w''⟩ <;> rw [ha] at h <;> cases h
    exact .inr ⟨fault, rfl⟩

end Interpreter
namespace Session

theorem atomic_step : Atomic step := by
  intro s f s' h
  rcases hf : s.fetch with e | _ | word
  · rw [step_of_fetch_error hf] at h
    cases h
    rfl
  · rw [step_of_fetch_none hf] at h
    cases h
  · rw [step_of_fetch hf] at h
    rcases hd : s.interpreter.dispatch word s.world with ⟨_ | _, w⟩ <;> rw [hd] at h <;> cases h
    rw [s.interpreter.atomic_dispatch word _ _ _ hd]

theorem error_of_step {s s' : Session} {f : Failure} (h : s.step = (.error f, s')) :
    (∃ word, f = .unknownInstruction word) ∨ (∃ pc word fault, f = .fault pc word fault) ∨
      f = .overflow ∧ s.Overruns := by
  rcases hf : s.fetch with e | _ | word
  · rw [step_of_fetch_error hf] at h
    cases h
    exact .inr (.inr (fetch_eq_error_iff.1 hf))
  · rw [step_of_fetch_none hf] at h
    cases h
  · rw [step_of_fetch hf] at h
    rcases hd : s.interpreter.dispatch word s.world with ⟨_ | _, w⟩ <;> rw [hd] at h <;> cases h
    rcases Interpreter.error_of_dispatch hd with hunknown | ⟨fault, hfault⟩
    · exact .inl ⟨word, hunknown⟩
    · exact .inr (.inl ⟨_, word, fault, hfault⟩)

/-- A step that carries nothing out changes nothing. -/
theorem step_of_not_some {s : Session} (h : ∀ d, s.step.1 ≠ .ok (some d)) : s.step.2 = s := by
  rcases hf : s.fetch with e | _ | word
  · rw [step_of_fetch_error hf]
  · rw [step_of_fetch_none hf]
  · rcases hd : s.interpreter.dispatch word s.world with ⟨f | d, w⟩
    · rw [step_of_dispatch_error hf (by rw [hd, s.interpreter.atomic_dispatch word _ _ _ hd])]
    · exact absurd (congrArg Prod.fst (step_eq_some_iff.2 ⟨word, w, hf, hd, rfl⟩)) (h d)

theorem eq_of_step_none {s t : Session} (h : s.step = (.ok none, t)) : t = s := by
  have hnone : ∀ d, s.step.1 ≠ .ok (some d) := by
    intro d hd
    rw [h] at hd
    cases hd
  rw [← step_of_not_some hnone, h]

section Rounds

variable {μ : Type}

/-- All that can become of a round: a failure or the end of the program before anything is carried out, or an
instruction with what the observer answers to it. -/
inductive Round (o : Observer μ) (s : Session) (u : μ) : Option (Except Failure Halt) → Session → μ → Prop
  | failed {f : Failure} : s.step = (.error f, s) → Round o s u (some (.error f)) s u
  | ended : s.step = (.ok none, s) → Round o s u (some (.ok .endOfProgram)) s u
  | unseen {d : Dispatched} {t : Session} {e : InputError} {v : μ} : s.step = (.ok (some d), t) →
    o.frame t.machine d u = (.error e, v) → Round o s u (some (.error (.input e))) t v
  | unasked {d : Dispatched} {t : Session} {e : InputError} {v v' : μ} : s.step = (.ok (some d), t) →
    o.frame t.machine d u = (.ok (), v) → o.interrupted v = (.error e, v') →
    Round o s u (some (.error (.input e))) t v'
  | interrupted {d : Dispatched} {t : Session} {v v' : μ} : s.step = (.ok (some d), t) →
    o.frame t.machine d u = (.ok (), v) → o.interrupted v = (.ok true, v') →
    Round o s u (some (.ok .interrupted)) t v'
  | idle {d : Dispatched} {t : Session} {v v' : μ} : s.step = (.ok (some d), t) →
    o.frame t.machine d u = (.ok (), v) → o.interrupted v = (.ok false, v') →
    d.step = .jump ∧ t.machine.pc = s.machine.pc → Round o s u (some (.ok .idle)) t v'
  | goesOn {d : Dispatched} {t : Session} {v v' : μ} : s.step = (.ok (some d), t) →
    o.frame t.machine d u = (.ok (), v) → o.interrupted v = (.ok false, v') →
    ¬(d.step = .jump ∧ t.machine.pc = s.machine.pc) → Round o s u none t v'

theorem round_cases (o : Observer μ) (s : Session) (u : μ) :
    Round o s u (s.round o u).1 (s.round o u).2.1 (s.round o u).2.2 := by
  rcases hs : s.step with ⟨f | _ | d, t⟩
  · obtain rfl := atomic_step s f t hs
    rw [round_of_step_error hs]
    exact .failed hs
  · obtain rfl := eq_of_step_none hs
    rw [round_of_step_none hs]
    exact .ended hs
  · rcases hf : o.frame t.machine d u with ⟨e | _, v⟩
    · simp only [round, hs, hf]
      exact .unseen hs hf
    · rcases hi : o.interrupted v with ⟨e | _ | _, v'⟩
      · simp only [round, hs, hf, hi]
        exact .unasked hs hf hi
      · simp only [round, hs, hf, hi]
        split
        · next hidle => exact .idle hs hf hi hidle
        · next hidle => exact .goesOn hs hf hi hidle
      · simp only [round, hs, hf, hi]
        exact .interrupted hs hf hi

/-- A run takes some steps that succeed, and if it fails, so does the next one, or else the observer did. -/
theorem exists_after_run (o : Observer μ) (max : Nat) (s : Session) (u : μ) :
    ∃ k ≤ max, s.Succeeds k ∧ (s.run o max u).2.1 = s.after k ∧
      ∀ f, (s.run o max u).1 = .error f → (∃ e, f = .input e) ∨ (s.after k).step.1 = .error f := by
  induction max generalizing s u with
  | zero => exact ⟨0, Nat.le_refl 0, .zero s, rfl, nofun⟩
  | succ max ih =>
    rw [run_succ]
    have hround := round_cases o s u
    generalize s.round o u = r at hround ⊢
    obtain ⟨r, t, v⟩ := r
    cases hround with
    | failed hs =>
      refine ⟨0, Nat.zero_le _, .zero _, rfl, fun f h => .inr ?_⟩
      cases h
      exact congrArg Prod.fst hs
    | ended => exact ⟨0, Nat.zero_le _, .zero _, rfl, nofun⟩
    | unseen hs | unasked hs =>
      refine ⟨1, Nat.le_add_left 1 max, .succ hs (.zero t), (congrArg Prod.snd hs).symm, fun f h => .inl ?_⟩
      cases h
      exact ⟨_, rfl⟩
    | interrupted hs | idle hs =>
      exact ⟨1, Nat.le_add_left 1 max, .succ hs (.zero t), (congrArg Prod.snd hs).symm, nofun⟩
    | goesOn hs =>
      have ht : s.step.2 = t := congrArg Prod.snd hs
      obtain ⟨k, hk, hsucceeds, hafter, herr⟩ := ih t v
      refine ⟨k + 1, Nat.succ_le_succ hk, .succ hs hsucceeds, ?_, ?_⟩
      · rw [after_succ, ht]
        exact hafter
      · rw [after_succ, ht]
        exact herr

end Rounds

/-- A run is given up only where the window of its program overruns. -/
theorem run_ne_overflow {μ : Type} {s : Session}
    (h : ∀ length, s.program = .image length → s.programAddr.toNat + length.toNat < UInt64.size) (o : Observer μ)
    (max : Nat) (u : μ) : (s.run o max u).1 ≠ .error .overflow := by
  intro hrun
  obtain ⟨k, -, -, -, herr⟩ := exists_after_run o max s u
  rcases herr _ hrun with ⟨e, he⟩ | hstep
  · cases he
  · have hcause := error_of_step (Prod.ext hstep rfl : (s.after k).step = (_, _))
    rcases hcause with ⟨_, hw⟩ | ⟨_, _, _, hf⟩ | ⟨-, length, hp, -, hend⟩
    · cases hw
    · cases hf
    · rw [(kept_after s k).program] at hp
      rw [(kept_after s k).programAddr] at hend
      exact absurd (h length hp) (Nat.not_lt_of_le hend)

/-- The answer of a session that has failed for good. -/
def Request.refused (f : Failure) : Request → Answer
  | .step => .stepped (.error f)
  | .run _ => .ran (.error f)

theorem run_of_step_error {μ : Type} {s : Session} {f : Failure} (h : s.step = (.error f, s)) (o : Observer μ)
    {max : Nat} (hmax : 1 ≤ max) (u : μ) : s.run o max u = (.error f, s, u) := by
  obtain ⟨max, rfl⟩ := Nat.exists_eq_succ_of_ne_zero (Nat.one_le_iff_ne_zero.1 hmax)
  rw [run_succ, round_of_step_error h]

theorem askAll_of_step_error {μ : Type} {s : Session} {f : Failure} (h : s.step = (.error f, s)) (o : Observer μ)
    (u : μ) {requests : List Request} (hn : ∀ n, .run n ∈ requests → 1 ≤ n) :
    askAll o requests s u = (requests.map (Request.refused f), s, u) := by
  induction requests with
  | nil => rfl
  | cons request requests ih =>
    have hask : s.ask o u request = (request.refused f, s, u) := by
      cases request with
      | step => rw [ask, h]; rfl
      | run max => rw [ask, run_of_step_error h o (hn max List.mem_cons_self)]; rfl
    rw [askAll, hask]
    simp only [ih fun n hmem => hn n (List.mem_cons_of_mem _ hmem)]
    rfl

/-- A failure after so many steps that succeeded, and what it leaves. -/
structure Failed (s : Session) (n : Nat) (f : Failure) (s' : Session) : Prop where
  cause : (∃ word, f = .unknownInstruction word) ∨ (∃ pc word fault, f = .fault pc word fault) ∨
    f = .overflow ∧ s'.Overruns
  succeeds : s.Succeeds n
  left : s' = s.after n
  steps : s'.steps = s.steps + n
  again : ∀ {μ : Type} (o : Observer μ) (u : μ) (requests : List Request), (∀ n, .run n ∈ requests → 1 ≤ n) →
    askAll o requests s' u = (requests.map (Request.refused f), s', u)

theorem failed_of_succeeds {s : Session} {n : Nat} {f : Failure} (hs : s.Succeeds n)
    (h : (s.after n).step.1 = .error f) : Failed s n f (s.after n) := by
  have hstep : (s.after n).step = (.error f, s.after n) :=
    Prod.ext h (step_of_not_some fun d hd => by cases h.symm.trans hd)
  exact ⟨error_of_step hstep, hs, rfl, steps_after hs, fun o u _ hn => askAll_of_step_error hstep o u hn⟩

/-- What an interpreter refuses leaves the world alone, and a session that fails stays where its last
instruction left it and fails ever after. -/
theorem errors_absorb :
    (∀ cpu : Interpreter, (∀ i, Atomic (cpu.apply i)) ∧ (∀ word, Atomic (cpu.dispatch word)) ∧
      (∀ word, Atomic (cpu.execute word)) ∧ (∀ text, Atomic (cpu.dispatchText text)) ∧
      ∀ text, Atomic (cpu.executeText text)) ∧
    ∀ s : Session, (∀ f s', s.step = (.error f, s') → Failed s 0 f s') ∧
      ∀ (μ : Type) (o : Observer μ) (max : Nat) (u u' : μ) (f : Failure) (s' : Session),
        s.run o max u = (.error f, s', u') → (∀ e, f ≠ .input e) → ∃ n ≤ max, Failed s n f s' := by
  refine ⟨fun cpu => ⟨cpu.atomic_apply, cpu.atomic_dispatch, cpu.atomic_execute, cpu.atomic_dispatchText,
    cpu.atomic_executeText⟩, fun s => ⟨?_, ?_⟩⟩
  · intro f s' h
    have hs' : s' = s := atomic_step s f s' h
    rw [hs']
    exact failed_of_succeeds (.zero s) (congrArg Prod.fst h)
  · intro μ o max u u' f s' h hf
    obtain ⟨n, hn, hs, hafter, herr⟩ := exists_after_run o max s u
    rw [h] at hafter herr
    have hs' : s' = s.after n := hafter
    rcases herr f rfl with ⟨e, he⟩ | hstep
    · exact absurd he (hf e)
    · rw [hs']
      exact ⟨n, hn, failed_of_succeeds hs hstep⟩

theorem errors_absorb_bracketed :
    (bracketed.interpreter.dispatch 0xFFFF bracketed.world).2 = bracketed.world ∧
      Failed (bracketed.after 2) 0 (.unknownInstruction 0xFFFF) (bracketed.after 2) ∧
      ∃ n ≤ 5, Failed bracketed n (.unknownInstruction 0xFFFF) (bracketed.after 2) :=
  ⟨(errors_absorb.1 bracketed.interpreter).2.1 0xFFFF _ (.unknownInstruction 0xFFFF) _ rfl,
    (errors_absorb.2 _).1 _ _ rfl,
    (errors_absorb.2 _).2 _ FrameCounter.observer 5 {} _ _ _ rfl nofun⟩

end Session
end Chip8
