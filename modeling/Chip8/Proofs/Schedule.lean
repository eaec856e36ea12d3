import Chip8.Proofs.Atomic

/-! How execution is cut into calls. A run is made of rounds, and a round leaves the session where a single
step leaves it, whatever the observer answers. So any sequence of steps and runs comes to what as many single
steps come to, and a run that reached its limit goes on as if it had never stopped. -/

namespace Chip8

/-- In every state of `p` the observer neither fails nor asks to stop, and it stays in `p`. -/
structure Observer.Quiet {μ : Type} (o : Observer μ) (p : μ → Prop) : Prop where
  frame : ∀ {m d u r u'}, p u → o.frame m d u = (r, u') → r = .ok () ∧ p u'
  interrupted : ∀ {u r u'}, p u → o.interrupted u = (r, u') → r = .ok false ∧ p u'

theorem FrameCounter.quiet : observer.Quiet fun c => c.limit = none where
  frame hc h := by
    cases h
    exact ⟨rfl, hc⟩
  interrupted {c _ _} hc h := by
    have hstop : c.wantsStop = false := by rw [wantsStop, hc]; rfl
    cases h
    exact ⟨congrArg Except.ok hstop, hc⟩

namespace Session

variable {μ : Type} {o : Observer μ} {s t : Session} {u v : μ}

theorem after_add (s : Session) (m n : Nat) : s.after (m + n) = (s.after m).after n := by
  induction n with
  | zero => rfl
  | succ n ih => exact congrArg (fun t : Session => t.step.2) ih

theorem Succeeds.add {m n : Nat} (h : s.Succeeds m) (h' : (s.after m).Succeeds n) : s.Succeeds (m + n) := by
  intro k hk
  by_cases hkm : k < m
  · exact h k hkm
  · obtain ⟨j, rfl⟩ := Nat.exists_eq_add_of_le (Nat.le_of_not_lt hkm)
    rw [after_add]
    exact h' j (Nat.lt_of_add_lt_add_left hk)

/-- `t` is what single steps make of `s`, as many as the counter shows, each of which carried out an
instruction. -/
structure Continues (s t : Session) : Prop where
  steps : s.steps ≤ t.steps
  succeeds : s.Succeeds (t.steps - s.steps)
  state : t = s.after (t.steps - s.steps)

theorem continues_iff : Continues s t ↔ ∃ n, s.Succeeds n ∧ t = s.after n := by
  constructor
  · intro h
    exact ⟨_, h.succeeds, h.state⟩
  · rintro ⟨n, hn, rfl⟩
    have hsteps : (s.after n).steps - s.steps = n := by rw [steps_after hn, Nat.add_sub_cancel_left]
    refine ⟨by rw [steps_after hn]; exact Nat.le_add_right _ _, ?_, ?_⟩
    · rw [hsteps]; exact hn
    · rw [hsteps]

theorem Continues.refl (s : Session) : Continues s s := continues_iff.2 ⟨0, .zero s, rfl⟩

theorem Continues.trans {r : Session} (h : Continues r s) (h' : Continues s t) : Continues r t := by
  obtain ⟨m, hm, rfl⟩ := continues_iff.1 h
  obtain ⟨n, hn, rfl⟩ := continues_iff.1 h'
  exact continues_iff.2 ⟨m + n, hm.add hn, (after_add r m n).symm⟩

theorem continues_step (s : Session) : Continues s s.step.2 := by
  rcases hr : s.step with ⟨f | _ | d, t⟩
  · rw [atomic_step s f t hr]
    exact .refl s
  · rw [eq_of_step_none hr]
    exact .refl s
  · refine continues_iff.2 ⟨1, .succ hr (.zero t), ?_⟩
    exact (congrArg Prod.snd hr).symm

theorem round_ne_stepLimit (h : s.round o u = (some (.ok .stepLimit), t, v)) : False := by
  have hr := round_cases o s u
  rw [h] at hr
  cases hr

/-- A round after which the run goes on has carried out an instruction. -/
theorem step_of_round_none (h : s.round o u = (none, t, v)) : ∃ d, s.step = (.ok (some d), t) := by
  have hr := round_cases o s u
  rw [h] at hr
  cases hr with
  | goesOn hs => exact ⟨_, hs⟩

theorem continues_run (o : Observer μ) (max : Nat) (s : Session) (u : μ) : Continues s (s.run o max u).2.1 := by
  induction max generalizing s u with
  | zero => exact .refl s
  | succ max ih =>
    have hround : Continues s (s.round o u).2.1 := by
      rw [session_round]
      exact continues_step s
    rw [run_succ]
    rcases hr : s.round o u with ⟨_ | r, t, v⟩ <;> rw [hr] at hround
    · exact hround.trans (ih t v)
    · exact hround

theorem continues_ask (o : Observer μ) (s : Session) (u : μ) (request : Request) :
    Continues s (s.ask o u request).2.1 := by
  cases request with
  | step => exact continues_step s
  | run max => exact continues_run o max s u

theorem continues_askAll (o : Observer μ) (requests : List Request) (s : Session) (u : μ) :
    Continues s (askAll o requests s u).2.1 := by
  induction requests generalizing s u with
  | nil => exact .refl s
  | cons request requests ih => exact (continues_ask o s u request).trans (ih _ _)

/-- A run that reaches its limit has carried out as many instructions, and a longer run goes on from there. -/
theorem run_of_stepLimit {a : Nat} (h : s.run o a u = (.ok .stepLimit, t, v)) :
    t.steps = s.steps + a ∧ ∀ b, s.run o (a + b) u = t.run o b v := by
  induction a generalizing s u with
  | zero =>
    cases h
    exact ⟨rfl, fun b => by rw [Nat.zero_add]⟩
  | succ a ih =>
    rw [run_succ] at h
    rcases hr : s.round o u with ⟨_ | r, s', u'⟩ <;> rw [hr] at h
    · obtain ⟨d, hd⟩ := step_of_round_none hr
      obtain ⟨hsteps, hrun⟩ := ih h
      refine ⟨?_, fun b => ?_⟩
      · rw [hsteps, steps_of_step hd]
        omega
      · rw [Nat.add_right_comm, run_succ, hr]
        exact hrun b
    · cases h
      exact (round_ne_stepLimit hr).elim

/-- Why a run under a quiet observer ends where `k` instructions have been carried out. -/
inductive Ending (s : Session) (max : Nat) : Nat → Except Failure Halt → Prop
  | failed {k : Nat} {f : Failure} : k < max → (s.after k).step.1 = .error f → Ending s max k (.error f)
  | ended {k : Nat} : k < max → (s.after k).step.1 = .ok none → Ending s max k (.ok .endOfProgram)
  | idle {k : Nat} {d : Dispatched} : k < max → (s.after k).step.1 = .ok (some d) → d.step = .jump →
    (s.after (k + 1)).machine.pc = (s.after k).machine.pc → Ending s max (k + 1) (.ok .idle)
  | limit : Ending s max max (.ok .stepLimit)

theorem Ending.succ {max k : Nat} {r : Except Failure Halt} (h : Ending s.step.2 max k r) :
    Ending s (max + 1) (k + 1) r := by
  cases h with
  | failed hk h => exact .failed (Nat.succ_lt_succ hk) (by rw [after_succ]; exact h)
  | ended hk h => exact .ended (Nat.succ_lt_succ hk) (by rw [after_succ]; exact h)
  | idle hk h hd hpc =>
    refine .idle (Nat.succ_lt_succ hk) (by rw [after_succ]; exact h) hd ?_
    rw [after_succ, after_succ s]
    exact hpc
  | limit => exact .limit

theorem run_quiet {p : μ → Prop} (ho : o.Quiet p) (hu : p u) (max : Nat) (s : Session) :
    ∃ k, s.Succeeds k ∧ (s.run o max u).2.1 = s.after k ∧ Ending s max k (s.run o max u).1 := by
  induction max generalizing s u with
  | zero => exact ⟨0, .zero s, rfl, .limit⟩
  | succ max ih =>
    rw [run_succ]
    have hround := round_cases o s u
    generalize s.round o u = r at hround ⊢
    obtain ⟨r, t, v⟩ := r
    cases hround with
    | failed hs => exact ⟨0, .zero _, rfl, .failed (Nat.succ_pos max) (congrArg Prod.fst hs)⟩
    | ended hs => exact ⟨0, .zero _, rfl, .ended (Nat.succ_pos max) (congrArg Prod.fst hs)⟩
    | unseen _ hf => cases (ho.frame hu hf).1
    | unasked _ hf hi => cases (ho.interrupted (ho.frame hu hf).2 hi).1
    | interrupted _ hf hi => cases (ho.interrupted (ho.frame hu hf).2 hi).1
    | idle hs _ _ hidle =>
      have ht : t = s.after 1 := (congrArg Prod.snd hs).symm
      refine ⟨1, .succ hs (.zero t), ht, .idle (Nat.succ_pos max) (congrArg Prod.fst hs) hidle.1 ?_⟩
      rw [← ht]
      exact hidle.2
    | goesOn hs hf hi _ =>
      have ht : s.step.2 = t := congrArg Prod.snd hs
      obtain ⟨k, hk, hafter, hend⟩ := ih (ho.interrupted (ho.frame hu hf).2 hi).2 t
      refine ⟨k + 1, .succ hs hk, ?_, Ending.succ (ht ▸ hend)⟩
      rw [after_succ, ht]
      exact hafter

/-- Whatever a session is asked for, and whatever its observer answers, it is then where as many single steps
take it as its counter shows. -/
theorem schedule_irrelevant (o : Observer μ) (s : Session) (u : μ) :
    (∀ requests, Continues s (askAll o requests s u).2.1) ∧
      ∀ a t v, s.run o a u = (.ok .stepLimit, t, v) →
        t.steps = s.steps + a ∧ ∀ b, s.run o (a + b) u = t.run o b v :=
  ⟨fun requests => continues_askAll o requests s u, fun _ _ _ h => run_of_stepLimit h⟩

theorem schedule_irrelevant_bracketed :
    Continues bracketed (askAll FrameCounter.observer [.run 1, .step, .run 3] bracketed {}).2.1 ∧
      bracketed.run FrameCounter.observer (1 + 2) {} =
        (bracketed.after 1).run FrameCounter.observer 2 (FrameCounter.count {} ⟨0, 0x2002, .call 2, .call⟩) :=
  ⟨(schedule_irrelevant _ _ _).1 _, ((schedule_irrelevant _ _ _).2 1 (bracketed.after 1) _ rfl).2 2⟩

end Session
end Chip8
