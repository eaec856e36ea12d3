import Chip8.Proofs.Starting

/-! What can happen to a session. It is asked for single steps and for runs, and between them its
machine may be edited at will; `Reachable` holds of every session that comes about in this way. Neither
the interpreter nor the program ever changes, so that they go on counting in the same unit. -/

namespace Chip8.Session

/-- The parts that no request and no edit changes. -/
structure Kept (s s' : Session) : Prop where
  interpreter : s'.interpreter = s.interpreter
  program : s'.program = s.program
  programAddr : s'.programAddr = s.programAddr

theorem Kept.refl (s : Session) : Kept s s := ⟨rfl, rfl, rfl⟩

theorem Kept.trans {a b c : Session} (h : Kept a b) (h' : Kept b c) : Kept a c :=
  ⟨h'.interpreter.trans h.interpreter, h'.program.trans h.program, h'.programAddr.trans h.programAddr⟩

theorem fetch_listing {s : Session} {words : Array Word} (h : s.program = .listing words) :
    s.fetch = .ok words[s.machine.pc.toNat]? := by
  rw [fetch, h]

/-- The window of an image ends where 64 bits do not reach, and the counter is not before it. -/
def Overruns (s : Session) : Prop :=
  ∃ length, s.program = .image length ∧ s.programAddr.toNat ≤ s.machine.pc.toNat ∧
    UInt64.size ≤ s.programAddr.toNat + length.toNat

theorem fetch_eq_error_iff {s : Session} {f : Failure} : s.fetch = .error f ↔ f = .overflow ∧ s.Overruns := by
  unfold fetch Overruns
  cases s.program with
  | listing words => simp
  | image length =>
    simp only [UInt16.lt_iff_toNat_lt, Program.image.injEq, exists_eq_left']
    constructor
    · intro h
      split at h
      · cases h
      · next hpc =>
        split at h
        · next hend =>
          cases h
          exact ⟨rfl, Nat.le_of_not_lt hpc, hend⟩
        · split at h <;> cases h
    · rintro ⟨rfl, hpc, hend⟩
      rw [if_neg (Nat.not_lt.2 hpc), if_pos hend]

theorem step_of_fetch_error {s : Session} {f : Failure} (h : s.fetch = .error f) : s.step = (.error f, s) := by
  rw [step, h]

theorem step_of_fetch_none {s : Session} (h : s.fetch = .ok none) : s.step = (.ok none, s) := by
  rw [step, h]

theorem step_of_fetch {s : Session} {word : Word} (h : s.fetch = .ok (some word)) :
    s.step = match s.interpreter.dispatch word s.world with
      | (.ok d, w) => (.ok (some d), s.advance w)
      | (.error failure, w) => (.error failure, { s with world := w }) := by
  have htext := s.interpreter.dispatchText_text word s.world
  rcases hd : s.interpreter.dispatch word s.world with ⟨_ | _, w⟩ <;> rw [hd] at htext <;> simp only [step, h, htext]

theorem step_of_dispatch_error {s : Session} {word : Word} {f : Failure} (hf : s.fetch = .ok (some word))
    (hd : s.interpreter.dispatch word s.world = (.error f, s.world)) : s.step = (.error f, s) := by
  rw [step_of_fetch hf, hd]

theorem step_eq_some_iff {s s' : Session} {d : Dispatched} :
    s.step = (.ok (some d), s') ↔ ∃ word w, s.fetch = .ok (some word) ∧
      s.interpreter.dispatch word s.world = (.ok d, w) ∧ s' = s.advance w := by
  rcases hf : s.fetch with f | _ | word
  · simp [step_of_fetch_error hf]
  · simp [step_of_fetch_none hf]
  · rw [step_of_fetch hf]
    rcases hd : s.interpreter.dispatch word s.world with ⟨f | d', w⟩
    · simp [hd]
    · constructor
      · intro h
        cases h
        exact ⟨word, w, rfl, hd, rfl⟩
      · rintro ⟨word', w', hw, hd', rfl⟩
        cases hw
        cases hd.symm.trans hd'
        rfl

theorem kept_step (s : Session) : Kept s s.step.2 := by
  rcases hf : s.fetch with f | _ | word
  · rw [step_of_fetch_error hf]
    exact Kept.refl s
  · rw [step_of_fetch_none hf]
    exact Kept.refl s
  · rw [step_of_fetch hf]
    split <;> exact ⟨rfl, rfl, rfl⟩

theorem run_succ {μ : Type} (o : Observer μ) (max : Nat) (s : Session) (u : μ) :
    s.run o (max + 1) u = match s.round o u with
      | (some r, t, v) => (r, t, v)
      | (none, t, v) => t.run o max v := rfl

theorem round_of_step_error {μ : Type} {s t : Session} {f : Failure} (h : s.step = (.error f, t)) (o : Observer μ)
    (u : μ) : s.round o u = (some (.error f), t, u) := by
  rw [round, h]

theorem round_of_step_none {μ : Type} {s t : Session} (h : s.step = (.ok none, t)) (o : Observer μ) (u : μ) :
    s.round o u = (some (.ok .endOfProgram), t, u) := by
  rw [round, h]

/-- A round leaves the session where a single step leaves it, whatever the observer answers. -/
theorem session_round {μ : Type} (o : Observer μ) (s : Session) (u : μ) : (s.round o u).2.1 = s.step.2 := by
  unfold round
  rcases s.step with ⟨f | _ | d, t⟩
  · rfl
  · rfl
  · dsimp only
    rcases o.frame t.machine d u with ⟨e | _, v⟩
    · rfl
    · dsimp only
      rcases o.interrupted v with ⟨e | _ | _, v'⟩
      · rfl
      · dsimp only
        split <;> rfl
      · rfl

theorem kept_run {μ : Type} (o : Observer μ) (max : Nat) (s : Session) (u : μ) : Kept s (s.run o max u).2.1 := by
  induction max generalizing s u with
  | zero => exact Kept.refl s
  | succ max ih =>
    have hround : Kept s (s.round o u).2.1 := by
      rw [session_round]
      exact kept_step s
    rw [run_succ]
    rcases hr : s.round o u with ⟨_ | r, t, v⟩ <;> rw [hr] at hround
    · exact hround.trans (ih t v)
    · exact hround

/-- The session after so many steps, of which those that fail or find nothing count too. -/
def after (s : Session) : Nat → Session
  | 0 => s
  | n + 1 => (s.after n).step.2

theorem after_succ (s : Session) (n : Nat) : s.after (n + 1) = s.step.2.after n := by
  induction n with
  | zero => rfl
  | succ n ih =>
    change (s.after (n + 1)).step.2 = _
    rw [ih]
    rfl

theorem after_of_step {s t : Session} {r : Except Failure (Option Dispatched)} (h : s.step = (r, t)) (n : Nat) :
    s.after (n + 1) = t.after n := by
  rw [after_succ, h]

theorem kept_after (s : Session) (n : Nat) : Kept s (s.after n) := by
  induction n with
  | zero => exact Kept.refl s
  | succ n ih => exact ih.trans (kept_step _)

/-- The first so many steps carry out an instruction each. -/
def Succeeds (s : Session) (n : Nat) : Prop := ∀ k < n, ∃ d, (s.after k).step.1 = .ok (some d)

theorem Succeeds.zero (s : Session) : s.Succeeds 0 := fun k hk => absurd hk (Nat.not_lt_zero k)

theorem Succeeds.succ {s t : Session} {d : Dispatched} {n : Nat} (h : s.step = (.ok (some d), t))
    (ht : t.Succeeds n) : s.Succeeds (n + 1) := by
  intro k hk
  cases k with
  | zero => exact ⟨d, congrArg Prod.fst h⟩
  | succ k =>
    rw [after_of_step h]
    exact ht k (Nat.lt_of_succ_lt_succ hk)

theorem steps_of_step {s s' : Session} {d : Dispatched} (h : s.step = (.ok (some d), s')) :
    s'.steps = s.steps + 1 := by
  obtain ⟨word, w, -, -, rfl⟩ := step_eq_some_iff.1 h
  rfl

theorem steps_after {s : Session} {n : Nat} (h : s.Succeeds n) : (s.after n).steps = s.steps + n := by
  induction n with
  | zero => rfl
  | succ n ih =>
    obtain ⟨d, hd⟩ := h n (Nat.lt_succ_self n)
    have hstep : (s.after n).step = (.ok (some d), s.after (n + 1)) := Prod.ext hd rfl
    rw [steps_of_step hstep, ih fun k hk => h k (Nat.lt_succ_of_lt hk), Nat.add_assoc]

/-- What a session can be asked for. -/
inductive Request
  | step
  | run (max : Nat)

inductive Answer
  | stepped (r : Except Failure (Option Dispatched))
  | ran (r : Except Failure Halt)

def ask {μ : Type} (o : Observer μ) (s : Session) (u : μ) : Request → Answer × Session × μ
  | .step => (.stepped s.step.1, s.step.2, u)
  | .run max => (.ran (s.run o max u).1, (s.run o max u).2)

/-- Several requests in a row, whatever becomes of each. -/
def askAll {μ : Type} (o : Observer μ) : List Request → Session → μ → List Answer × Session × μ
  | [], s, u => ([], s, u)
  | request :: requests, s, u =>
    match s.ask o u request with
    | (answer, s, u) =>
      match askAll o requests s u with
      | (answers, s, u) => (answer :: answers, s, u)

/-- Every session that comes about from a new one by steps, runs and edits of its machine. -/
inductive Reachable : Session → Prop
  | new {settings : Settings} {cpu : Interpreter} {random : RandomStream} {program : Program} {s : Session} :
    Session.new settings cpu random program = .ok s → Reachable s
  | loadImage {settings : Settings} {cpu : Interpreter} {random : RandomStream} {r : Reader} {s : Session} :
    Session.loadImage settings cpu random r = .ok s → Reachable s
  | edit {s : Session} (m : Machine) : Reachable s → Reachable (s.withMachine m)
  | step {s : Session} : Reachable s → Reachable s.step.2
  | run {s : Session} {μ : Type} (o : Observer μ) (max : Nat) (u : μ) : Reachable s → Reachable (s.run o max u).2.1

theorem addressing_of_new {settings : Settings} {cpu : Interpreter} {random : RandomStream} {program : Program}
    {s : Session} (h : Session.new settings cpu random program = .ok s) :
    s.interpreter = cpu ∧ s.program = program ∧ cpu.addressing = program.addressing := by
  obtain ⟨hvalid, hs, hc⟩ := agree_of_new h
  obtain ⟨m, -, hnew⟩ := new_of_valid hvalid hs hc random
  obtain rfl := Except.ok.inj (h.symm.trans hnew)
  exact ⟨rfl, rfl, hc.trans hs.symm⟩

theorem addressing_of_loadImage {settings : Settings} {cpu : Interpreter} {random : RandomStream} {r : Reader}
    {s : Session} (h : Session.loadImage settings cpu random r = .ok s) :
    s.interpreter.addressing = s.program.addressing := by
  simp only [Session.loadImage, bind, Except.bind] at h
  split at h
  · cases h
  · next t ht =>
    obtain ⟨rfl, -, hbytes⟩ := addressing_of_new ht
    unfold load at h
    split at h <;> cases h
    exact hbytes

theorem Reachable.addressing {s : Session} (h : s.Reachable) : s.interpreter.addressing = s.program.addressing := by
  induction h with
  | new h =>
    obtain ⟨rfl, rfl, h⟩ := addressing_of_new h
    exact h
  | loadImage h => exact addressing_of_loadImage h
  | edit m _ ih => exact ih
  | @step s _ ih => rw [(kept_step s).interpreter, (kept_step s).program]; exact ih
  | @run s μ o max u _ ih => rw [(kept_run o max s u).interpreter, (kept_run o max s u).program]; exact ih

/-- A listing of a call, a word that is none, and a return, for an interpreter that knows no more. -/
def bracketed : Session where
  interpreter :=
    { decoder := ⟨[⟨⟨"2nnn", [.literal 0x2, .operand .address], rfl⟩, .call⟩,
        ⟨⟨"00EE", [.literal 0x0, .literal 0x0, .literal 0xE, .literal 0xE], rfl⟩, .ret⟩]⟩
      addressing := .words
      shiftFlag := .register
      incrementIndex := false }
  program := .listing #[0x2002, 0xFFFF, 0x00EE]
  programAddr := defaultProgramAddr
  world := { machine := Machine.fresh Memory.blank, random := { word := fun _ => 0 } }

theorem reachable_bracketed : bracketed.Reachable := by
  have h : Session.new {} bracketed.interpreter bracketed.world.random bracketed.program = .ok bracketed := rfl
  exact .new h

end Chip8.Session
