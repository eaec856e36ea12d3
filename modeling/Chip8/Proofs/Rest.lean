import Chip8.Proofs.Counter
import Chip8.Proofs.Lockstep

/-! Sessions at rest. The one step that leaves the whole machine as it was is a jump to itself, since every other moves
the counter on or changes the depth of the stack. A run is idle after the first such step, and from then on every step
is that jump again. -/

namespace Chip8

/-- Control jumps, is called away or returns, or else goes on by one stride or two. -/
theorem Instruction.flow_cases (i : Instruction) (stride : Nat) (s : View) :
    (∃ nnn, i = .jumpOffset nnn) ∨ (∃ nnn, i = .call nnn) ∨ i = .ret ∨
      i.flow stride s = (.next, s.pc + stride) ∨ i.flow stride s = (.skip, s.pc + 2 * stride) := by
  have branch (c : Bool) : (if c then (Step.skip, s.pc + 2 * stride) else (Step.next, s.pc + stride)) =
      (.next, s.pc + stride) ∨ (if c then (Step.skip, s.pc + 2 * stride) else (Step.next, s.pc + stride)) =
        (.skip, s.pc + 2 * stride) := by
    cases c
    · exact .inl rfl
    · exact .inr rfl
  cases i with
  | jumpOffset nnn => exact .inl ⟨nnn, rfl⟩
  | call nnn => exact .inr (.inl ⟨nnn, rfl⟩)
  | ret => exact .inr (.inr (.inl rfl))
  | skipEqImm | skipNeImm | skipEqReg | skipNeReg => exact .inr (.inr (.inr (branch _)))
  | _ => exact .inr (.inr (.inr (.inl rfl)))

namespace Session

variable {s t : Session} {d : Dispatched} {n : Nat}

/-- A step that leaves the machine as it was is a jump to itself. -/
theorem idles_of_machine_eq (ha : s.interpreter.addressing = s.program.addressing) (h : s.step = (.ok (some d), t))
    (hm : t.machine = s.machine) : s.Idles d t := by
  obtain ⟨hstep, hpc⟩ := flow_of_step ha h
  rw [hm] at hpc
  have hlt := s.machine.pc.toNat_lt
  have hview : s.world.view.pc = s.machine.pc.toNat := rfl
  have hstride : s.stride = 1 ∨ s.stride = 2 := by
    unfold stride
    cases s.program <;> simp
  refine ⟨?_, congrArg Machine.pc hm⟩
  rcases d.instruction.flow_cases s.stride s.world.view with ⟨nnn, hi⟩ | ⟨nnn, hi⟩ | hi | hflow | hflow
  · rw [hstep, hi]
    rfl
  · rw [hi] at hstep
    have hsp := (pushed_of_call h hstep).1
    rw [hm] at hsp
    have hsp' : s.world.view.sp = (s.world.view.sp + 1) % 256 :=
      (congrArg UInt8.toNat hsp).trans s.world.toNat_sp_add_one
    omega
  · rw [hi] at hstep
    have hsp := (popped_of_ret h hstep).2
    rw [hm] at hsp
    have hsp' : s.world.view.sp = (s.world.view.sp + 255) % 256 :=
      (congrArg UInt8.toNat hsp).trans s.world.toNat_sp_sub_one
    omega
  -- one stride or two always bring the counter elsewhere
  · rw [hflow, hview] at hpc
    dsimp only at hpc
    omega
  · rw [hflow, hview] at hpc
    dsimp only at hpc
    omega

/-- A jump to itself draws nothing and leaves the world as it was. -/
theorem world_of_idles (h : s.step = (.ok (some d), t)) (hidle : s.Idles d t) :
    ∃ nnn, d.instruction = .jumpOffset nnn ∧ t.world = s.world := by
  obtain ⟨u, he, hv⟩ := effect_of_step h
  obtain ⟨hjump, hpc⟩ := hidle
  have hstep := (Interpreter.flow_of_effect he).1
  rw [hjump] at hstep
  rcases d.instruction.flow_cases s.interpreter.addressing.stride.toNat s.world.view with
    ⟨nnn, hi⟩ | ⟨nnn, hi⟩ | hi | hflow | hflow
  · refine ⟨nnn, hi, World.view_injective ?_⟩
    simp only [hi, Interpreter.effect, Option.some.injEq, Prod.mk.injEq] at he
    obtain ⟨-, rfl⟩ := he
    have hpc' : t.world.view.pc = s.world.view.pc := congrArg UInt16.toNat hpc
    rw [hv] at hpc' ⊢
    exact View.ext rfl rfl hpc' rfl rfl rfl rfl rfl rfl rfl
  · rw [hi] at hstep
    cases hstep
  · rw [hi] at hstep
    cases hstep
  · rw [hflow] at hstep
    cases hstep
  · rw [hflow] at hstep
    cases hstep

theorem machine_eq_iff (ha : s.interpreter.addressing = s.program.addressing) (h : s.step = (.ok (some d), t)) :
    t.machine = s.machine ↔ s.Idles d t := by
  refine ⟨idles_of_machine_eq ha h, fun hidle => ?_⟩
  obtain ⟨nnn, -, hw⟩ := world_of_idles h hidle
  exact congrArg World.machine hw

/-- The target of such a jump is its own address. -/
theorem idles_iff (ha : s.interpreter.addressing = s.program.addressing) (h : s.step = (.ok (some d), t)) :
    s.Idles d t ↔
      ∃ nnn, d.instruction = .jumpOffset nnn ∧ (s.machine.register 0).toUInt16 + nnn = s.machine.pc := by
  obtain ⟨hstep, hpc⟩ := flow_of_step ha h
  have htarget (nnn : UInt16) (hi : d.instruction = .jumpOffset nnn) :
      t.machine.pc = (s.machine.register 0).toUInt16 + nnn := by
    rw [hi] at hpc
    apply UInt16.toNat_inj.1
    rw [hpc, UInt16.toNat_add, UInt8.toNat_toUInt16]
    rfl
  constructor
  · intro hidle
    obtain ⟨nnn, hi, -⟩ := world_of_idles h hidle
    exact ⟨nnn, hi, (htarget nnn hi).symm.trans hidle.2⟩
  · rintro ⟨nnn, hi, hpc'⟩
    refine ⟨?_, (htarget nnn hi).trans hpc'⟩
    rw [hstep, hi]
    rfl

/-! ### Where a run is idle -/

/-- The step after the first `n` is carried out as these are, and is the first to leave the machine as it was. -/
structure FirstRest (s : Session) (n : Nat) : Prop where
  succeeds : s.Succeeds (n + 1)
  unchanged : (s.after (n + 1)).machine = (s.after n).machine
  first : ∀ j < n, (s.after (j + 1)).machine ≠ (s.after j).machine

theorem firstRest_zero (h : s.step = (.ok (some d), t)) (hm : t.machine = s.machine) : s.FirstRest 0 where
  succeeds := .succ h (.zero t)
  unchanged := by
    rw [after_of_step h]
    exact hm
  first j hj := absurd hj (Nat.not_lt_zero j)

theorem firstRest_succ_iff (h : s.step = (.ok (some d), t)) (hm : t.machine ≠ s.machine) :
    s.FirstRest (n + 1) ↔ t.FirstRest n := by
  constructor
  · rintro ⟨hsucceeds, hunchanged, hfirst⟩
    rw [after_of_step h, after_of_step h] at hunchanged
    refine ⟨fun k hk => ?_, hunchanged, fun j hj => ?_⟩
    · rw [← after_of_step h]
      exact hsucceeds (k + 1) (Nat.succ_lt_succ hk)
    · rw [← after_of_step h, ← after_of_step h]
      exact hfirst (j + 1) (Nat.succ_lt_succ hj)
  · rintro ⟨hsucceeds, hunchanged, hfirst⟩
    refine ⟨.succ h hsucceeds, by rwa [after_of_step h, after_of_step h], fun j hj => ?_⟩
    rw [after_of_step h]
    cases j with
    | zero => exact hm
    | succ j =>
      rw [after_of_step h]
      exact hfirst j (Nat.lt_of_succ_lt_succ hj)

section Runs

variable {μ : Type} {o : Observer μ} {p : μ → Prop} {u v : μ} {max : Nat}

theorem addressing_of_step (ha : s.interpreter.addressing = s.program.addressing) (h : s.step = (.ok (some d), t)) :
    t.interpreter.addressing = t.program.addressing := by
  have hkept := kept_step s
  rw [h] at hkept
  rw [hkept.interpreter, hkept.program]
  exact ha

theorem firstRest_of_run (ha : s.interpreter.addressing = s.program.addressing) (ho : o.Quiet p) (hu : p u)
    (h : s.run o max u = (.ok .idle, t, v)) : ∃ n < max, s.FirstRest n ∧ t = s.after (n + 1) ∧ p v := by
  induction max generalizing s u with
  | zero => cases h
  | succ max ih =>
    rw [run_succ] at h
    rcases hs : s.step with ⟨f | _ | d, s₁⟩
    · rw [round_of_step_error hs] at h
      cases h
    · rw [round_of_step_none hs] at h
      cases h
    · obtain ⟨u', hu', hround⟩ := round_of_step ho hu hs
      rw [hround] at h
      by_cases hidle : s.Idles d s₁
      · rw [if_pos hidle] at h
        cases h
        refine ⟨0, Nat.succ_pos max, firstRest_zero hs ((machine_eq_iff ha hs).2 hidle), ?_, hu'⟩
        exact (after_of_step hs 0).symm
      · rw [if_neg hidle] at h
        obtain ⟨n, hn, hfirst, ht, hv⟩ := ih (addressing_of_step ha hs) hu' h
        have hmoves : s₁.machine ≠ s.machine := mt (machine_eq_iff ha hs).1 hidle
        refine ⟨n + 1, Nat.succ_lt_succ hn, (firstRest_succ_iff hs hmoves).2 hfirst, ?_, hv⟩
        rwa [after_of_step hs]

theorem run_of_firstRest (ha : s.interpreter.addressing = s.program.addressing) (ho : o.Quiet p) (hu : p u)
    (hn : n < max) (h : s.FirstRest n) : ∃ v, s.run o max u = (.ok .idle, s.after (n + 1), v) := by
  induction max generalizing s u n with
  | zero => exact absurd hn (Nat.not_lt_zero n)
  | succ max ih =>
    obtain ⟨d, hd⟩ := h.succeeds 0 (Nat.succ_pos n)
    obtain ⟨t, hs⟩ : ∃ t, s.step = (.ok (some d), t) := ⟨_, Prod.ext hd rfl⟩
    obtain ⟨u', hu', hround⟩ := round_of_step ho hu hs
    rw [run_succ, hround]
    cases n with
    | zero =>
      have hm : t.machine = s.machine := by
        have hunchanged := h.unchanged
        rwa [after_of_step hs] at hunchanged
      rw [if_pos ((machine_eq_iff ha hs).1 hm), after_of_step hs]
      exact ⟨u', rfl⟩
    | succ n =>
      have hm : t.machine ≠ s.machine := by
        have hfirst := h.first 0 (Nat.succ_pos n)
        rwa [after_of_step hs] at hfirst
      rw [if_neg (mt (machine_eq_iff ha hs).2 hm), after_of_step hs]
      exact ih (addressing_of_step ha hs) hu' (Nat.lt_of_succ_lt_succ hn) ((firstRest_succ_iff hs hm).1 h)

/-! ### What comes after -/

/-- The next step is a jump that only counts as one more. -/
structure Rests (s : Session) (d : Dispatched) : Prop where
  jump : d.step = .jump
  step : s.step = (.ok (some d), { s with steps := s.steps + 1 })

theorem Rests.withSteps (h : s.Rests d) (n : Nat) : ({ s with steps := n } : Session).Rests d := by
  obtain ⟨word, w, hf, hd, hnext⟩ := step_eq_some_iff.1 h.step
  refine ⟨h.jump, step_eq_some_iff.2 ⟨word, w, hf, hd, ?_⟩⟩
  exact congrArg (fun t : Session => { t with steps := n + 1 }) hnext

theorem rests_of_idles (h : s.step = (.ok (some d), t)) (hidle : s.Idles d t) : t.Rests d := by
  obtain ⟨nnn, -, hw⟩ := world_of_idles h hidle
  obtain ⟨word, w, -, -, rfl⟩ := step_eq_some_iff.1 h
  have hnext : s.advance w = { s with steps := s.steps + 1 } :=
    congrArg (fun world => { s with world, steps := s.steps + 1 }) hw
  rw [hnext] at h ⊢
  exact (Rests.mk hidle.1 h).withSteps _

/-- The answer of a session at rest. -/
def Request.rested (d : Dispatched) : Request → Answer
  | .step => .stepped (.ok (some d))
  | .run _ => .ran (.ok .idle)

theorem ask_of_rests (h : s.Rests d) (ho : o.Quiet p) (hu : p u) {request : Request}
    (hn : ∀ m, request = .run m → 1 ≤ m) :
    ∃ v, p v ∧ s.ask o u request = (request.rested d, { s with steps := s.steps + 1 }, v) := by
  cases request with
  | step =>
    refine ⟨u, hu, ?_⟩
    rw [ask, h.step]
    rfl
  | run m =>
    obtain ⟨m, rfl⟩ := Nat.exists_eq_succ_of_ne_zero (Nat.one_le_iff_ne_zero.1 (hn m rfl))
    obtain ⟨v, hv, hround⟩ := round_of_step ho hu h.step
    refine ⟨v, hv, ?_⟩
    rw [ask, run_succ, hround, if_pos ⟨h.jump, rfl⟩]
    rfl

theorem askAll_of_rests (h : s.Rests d) (ho : o.Quiet p) (hu : p u) {requests : List Request}
    (hn : ∀ m, .run m ∈ requests → 1 ≤ m) :
    (askAll o requests s u).1 = requests.map (Request.rested d) ∧
      (askAll o requests s u).2.1 = { s with steps := s.steps + requests.length } := by
  induction requests generalizing s u with
  | nil => exact ⟨rfl, rfl⟩
  | cons request requests ih =>
    obtain ⟨v, hv, hask⟩ := ask_of_rests h ho hu fun m hm => hn m (hm ▸ List.mem_cons_self)
    obtain ⟨hanswers, hlast⟩ := ih (h.withSteps (s.steps + 1)) hv fun m hm => hn m (List.mem_cons_of_mem _ hm)
    simp only [askAll, hask, List.map_cons, List.length_cons]
    refine ⟨congrArg _ hanswers, hlast.trans ?_⟩
    rw [Nat.add_assoc, Nat.add_comm 1]

/-- A run is idle just after the first step that leaves the machine as it was, which can only be a jump to its own
address. From there on every step is that jump, and every run is idle after one step, and nothing changes but the
count. -/
theorem idle_at_rest (hs : s.Reachable) (ho : o.Quiet p) (hu : p u) (max : Nat) :
    (∀ k, ((s.run o max u).1 = .ok .idle ∧ (s.run o max u).2.1.steps = s.steps + k) ↔
      ∃ n < max, k = n + 1 ∧ s.FirstRest n) ∧
    (∀ n d, (s.after n).step.1 = .ok (some d) →
      ((s.after (n + 1)).machine = (s.after n).machine ↔ ∃ nnn, d.instruction = .jumpOffset nnn ∧
        ((s.after n).machine.register 0).toUInt16 + nnn = (s.after n).machine.pc)) ∧
    ∀ t v, s.run o max u = (.ok .idle, t, v) → ∃ n d, t = s.after (n + 1) ∧ (s.after n).step.1 = .ok (some d) ∧
      ∀ requests : List Request, (∀ m, .run m ∈ requests → 1 ≤ m) →
        (askAll o requests t v).1 = requests.map (Request.rested d) ∧
          (askAll o requests t v).2.1 = { t with steps := t.steps + requests.length } := by
  have ha := hs.addressing
  have haddressing (n : Nat) : (s.after n).interpreter.addressing = (s.after n).program.addressing := by
    rw [(kept_after s n).interpreter, (kept_after s n).program]
    exact ha
  refine ⟨fun k => ⟨?_, ?_⟩, fun n d hd => ?_, fun t v h => ?_⟩
  · rintro ⟨hidle, hsteps⟩
    obtain ⟨n, hn, hfirst, ht, -⟩ := firstRest_of_run ha ho hu (Prod.ext hidle rfl : s.run o max u = (_, _, _))
    rw [ht, steps_after hfirst.succeeds] at hsteps
    exact ⟨n, hn, (Nat.add_left_cancel hsteps).symm, hfirst⟩
  · rintro ⟨n, hn, rfl, hfirst⟩
    obtain ⟨v, hrun⟩ := run_of_firstRest ha ho hu hn hfirst
    rw [hrun]
    exact ⟨rfl, steps_after hfirst.succeeds⟩
  · have hstep : (s.after n).step = (.ok (some d), s.after (n + 1)) := Prod.ext hd rfl
    rw [machine_eq_iff (haddressing n) hstep, idles_iff (haddressing n) hstep]
  · obtain ⟨n, -, hfirst, rfl, hv⟩ := firstRest_of_run ha ho hu h
    obtain ⟨d, hd⟩ := hfirst.succeeds n (Nat.lt_succ_self n)
    have hstep : (s.after n).step = (.ok (some d), s.after (n + 1)) := Prod.ext hd rfl
    have hrests := rests_of_idles hstep ((machine_eq_iff (haddressing n) hstep).1 hfirst.unchanged)
    exact ⟨n, d, rfl, hd, fun requests hn => askAll_of_rests hrests ho hv hn⟩

end Runs

/-- A listing that loads a register and then jumps to the jump, for an interpreter that knows no more. -/
def resting : Session where
  interpreter :=
    { decoder := ⟨[⟨⟨"6xkk", [.literal 0x6, .operand .register, .operand .byte], rfl⟩, .loadImm⟩,
        ⟨⟨"Bnnn", [.literal 0xB, .operand .address], rfl⟩, .jumpOffset⟩]⟩
      addressing := .words
      shiftFlag := .register
      incrementIndex := false }
  program := .listing #[0x6001, 0xB000]
  programAddr := defaultProgramAddr
  world := { machine := Machine.fresh Memory.blank, random := { word := fun _ => 0 } }

theorem reachable_resting : resting.Reachable := by
  have h : Session.new {} resting.interpreter resting.world.random resting.program = .ok resting := rfl
  exact .new h

/-- It is idle after its second step, and so it stays. -/
theorem idle_at_rest_jump :
    ∃ t v, resting.run FrameCounter.observer 5 {} = (.ok .idle, t, v) ∧ t.steps = 2 ∧
      (askAll FrameCounter.observer [.step, .run 7, .step] t v).2.1 = { t with steps := 5 } := by
  have hone : resting.step = (.ok (some ⟨0, 0x6001, .loadImm 0 1, .next⟩), resting.after 1) := rfl
  have htwo : (resting.after 1).step = (.ok (some ⟨1, 0xB000, .jumpOffset 0, .jump⟩), resting.after 2) := rfl
  have hfirst : resting.FirstRest 1 := by
    refine ⟨.succ hone (.succ htwo (.zero _)), rfl, fun j hj hm => ?_⟩
    obtain rfl : j = 0 := Nat.lt_one_iff.1 hj
    have hpc : (1 : UInt16) = 0 := congrArg Machine.pc hm
    exact absurd hpc (by decide)
  obtain ⟨hiff, -, hafter⟩ := idle_at_rest reachable_resting FrameCounter.quiet (u := {}) rfl 5
  obtain ⟨hidle, hsteps⟩ := (hiff 2).2 ⟨1, by decide, rfl, hfirst⟩
  generalize resting.run FrameCounter.observer 5 {} = r at hidle hsteps hafter ⊢
  obtain ⟨r, t, v⟩ := r
  obtain rfl : r = .ok .idle := hidle
  have hfive : t.steps + 3 = 5 := by rw [show t.steps = 2 from hsteps]
  obtain ⟨n, d, -, -, hrest⟩ := hafter t v rfl
  have hlast := (hrest [.step, .run 7, .step] (by simp)).2
  simp only [List.length_cons, List.length_nil] at hlast
  exact ⟨t, v, rfl, hsteps, hlast.trans (by rw [hfive])⟩

end Session
end Chip8
