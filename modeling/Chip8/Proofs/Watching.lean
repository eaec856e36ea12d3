import Chip8.Proofs.Rest
import Chip8.Proofs.Schedule

/-! What observers get to see. A run shows every instruction once and asks after every frame that was shown, and the
first reason to stop decides how it ends. A counter that asks to stop after some frames stops the run just there. -/

namespace Chip8

/-- One call of an observer, with what it answered. -/
inductive Observer.Call
  | frame (m : Machine) (d : Dispatched) (r : Except InputError Unit)
  | poll (r : Except InputError Bool)

namespace Observer

variable {μ : Type}

def Call.frame? : Call → Option (Machine × Dispatched)
  | frame m d _ => some (m, d)
  | poll _ => none

/-- The frames among some calls. -/
def frames (calls : List Call) : List (Machine × Dispatched) := calls.filterMap Call.frame?

/-- The same observer, which also notes down how it is called. -/
def noting (o : Observer μ) : Observer (μ × List Call) where
  frame m d u := ((o.frame m d u.1).1, (o.frame m d u.1).2, u.2 ++ [.frame m d (o.frame m d u.1).1])
  interrupted u := ((o.interrupted u.1).1, (o.interrupted u.1).2, u.2 ++ [.poll (o.interrupted u.1).1])

/-- The observer is asked just after each frame that it was shown without an error. -/
structure Polled (calls : List Call) : Prop where
  first : ∀ r, calls[0]? ≠ some (.poll r)
  next : ∀ i, (∃ r, calls[i + 1]? = some (.poll r)) ↔ ∃ m d, calls[i]? = some (.frame m d (.ok ()))

theorem polled_nil : Polled [] where
  first := by simp
  next := by simp

theorem polled_unseen (m : Machine) (d : Dispatched) (e : InputError) : Polled [.frame m d (.error e)] where
  first := by simp
  next i := by cases i <;> simp

theorem Polled.cons {calls : List Call} (h : Polled calls) (m : Machine) (d : Dispatched) (r : Except InputError Bool) :
    Polled (.frame m d (.ok ()) :: .poll r :: calls) where
  first := by simp
  next i := by
    match i with
    | 0 => simp
    | 1 => simpa using h.first
    | i + 2 => simpa using h.next i

end Observer

namespace Session

open Observer (Call Polled)

variable {μ : Type} {o : Observer μ} {s t : Session} {u v : μ} {d : Dispatched} {k : Nat}

/-! ### Calls -/

/-- These are the first instructions that are carried out, each with the machine that it left. -/
def Shows (s : Session) (frames : List (Machine × Dispatched)) : Prop :=
  ∀ j (h : j < frames.length), (s.after j).step = (.ok (some frames[j].2), s.after (j + 1)) ∧
    frames[j].1 = (s.after (j + 1)).machine

/-- The calls that come of the first `k` instructions. Only the last frame may fail, and then nobody is asked. -/
inductive Calls : Session → Nat → List Call → Prop
  | none (s : Session) : Calls s 0 []
  | unseen {s t : Session} {d : Dispatched} {e : InputError} : s.step = (.ok (some d), t) →
    Calls s 1 [.frame t.machine d (.error e)]
  | seen {s t : Session} {d : Dispatched} {r : Except InputError Bool} {k calls} :
    s.step = (.ok (some d), t) → Calls t k calls → Calls s (k + 1) (.frame t.machine d (.ok ()) :: .poll r :: calls)

theorem shows_cons {frames : List (Machine × Dispatched)} (hs : s.step = (.ok (some d), t)) (h : t.Shows frames) :
    s.Shows ((t.machine, d) :: frames) := by
  intro j hj
  cases j with
  | zero => exact ⟨hs.trans (by rw [after_of_step hs]; rfl), by rw [after_of_step hs]; rfl⟩
  | succ j =>
    rw [after_of_step hs, after_of_step hs]
    exact h j (Nat.lt_of_succ_lt_succ hj)

theorem Calls.shows {calls : List Call} (h : Calls s k calls) :
    (Observer.frames calls).length = k ∧ s.Shows (Observer.frames calls) := by
  induction h with
  | none s => exact ⟨rfl, fun j hj => absurd hj (Nat.not_lt_zero j)⟩
  | unseen hs => exact ⟨rfl, shows_cons hs fun j hj => absurd hj (Nat.not_lt_zero j)⟩
  | seen hs _ ih => exact ⟨congrArg (· + 1) ih.1, shows_cons hs ih.2⟩

theorem Calls.polled {calls : List Call} (h : Calls s k calls) : Polled calls := by
  induction h with
  | none => exact Observer.polled_nil
  | unseen => exact Observer.polled_unseen _ _ _
  | seen _ _ ih => exact ih.cons _ _ _

/-- The calls of one round. -/
def heard (o : Observer μ) (s : Session) (u : μ) : List Call :=
  match s.step with
  | (.ok (some d), t) =>
    match o.frame t.machine d u with
    | (.ok (), v) => [.frame t.machine d (.ok ()), .poll (o.interrupted v).1]
    | (.error e, _) => [.frame t.machine d (.error e)]
  | _ => []

theorem round_noting (o : Observer μ) (s : Session) (u : μ) (notes : List Call) :
    s.round o.noting (u, notes) = ((s.round o u).1, (s.round o u).2.1, (s.round o u).2.2, notes ++ s.heard o u) := by
  rcases hs : s.step with ⟨f | _ | d, t⟩
  · simp [round, heard, hs]
  · simp [round, heard, hs]
  · rcases hf : o.frame t.machine d u with ⟨e | _, v⟩
    · simp [round, heard, Observer.noting, hs, hf]
    · rcases hi : o.interrupted v with ⟨e | _ | _, v'⟩
      · simp [round, heard, Observer.noting, hs, hf, hi]
      · simp only [round, heard, Observer.noting, hs, hf, hi, List.append_assoc, List.cons_append, List.nil_append]
        split <;> rfl
      · simp [round, heard, Observer.noting, hs, hf, hi]

/-- Noting down its calls, an observer sees and answers the same, and these are its calls. -/
theorem run_noting (o : Observer μ) (max : Nat) (s : Session) (u : μ) :
    ∃ k calls, (s.run o max u).2.1 = s.after k ∧ Calls s k calls ∧ ∀ notes,
      s.run o.noting max (u, notes) =
        ((s.run o max u).1, (s.run o max u).2.1, (s.run o max u).2.2, notes ++ calls) := by
  induction max generalizing s u with
  | zero => exact ⟨0, [], rfl, .none s, fun notes => by rw [List.append_nil]; rfl⟩
  | succ max ih =>
    have hround := round_cases o s u
    have hnoting := round_noting o s u
    simp only [run_succ, hnoting]
    generalize s.round o u = r at hround
    obtain ⟨r, t, v⟩ := r
    replace hround : Round o s u r t v := hround
    have hone {d : Dispatched} {t : Session} (hs : s.step = (.ok (some d), t)) : t = s.after 1 :=
      (congrArg Prod.snd hs).symm
    cases hround with
    | failed hs =>
      exact ⟨0, [], rfl, .none _, fun notes => by simp only [heard, hs]⟩
    | ended hs =>
      exact ⟨0, [], rfl, .none _, fun notes => by simp only [heard, hs]⟩
    | unseen hs hf =>
      refine ⟨1, s.heard o u, hone hs, ?_, fun notes => rfl⟩
      simp only [heard, hs, hf]
      exact .unseen hs
    | unasked hs hf hi | interrupted hs hf hi | idle hs hf hi _ =>
      refine ⟨1, s.heard o u, hone hs, ?_, fun notes => rfl⟩
      simp only [heard, hs, hf]
      exact .seen hs (.none _)
    | goesOn hs hf hi _ =>
      obtain ⟨k, calls, hafter, hcalls, hrun⟩ := ih t v
      refine ⟨k + 1, s.heard o u ++ calls, ?_, ?_, fun notes => ?_⟩
      · rwa [after_of_step hs]
      · simp only [heard, hs, hf, List.cons_append, List.nil_append]
        exact .seen hs hcalls
      · simp only [hrun, List.append_assoc]

/-! ### Reasons to stop -/

/-- A reason to end a run with the round at hand, and how it then ends. The number is its rank among the reasons, of
which several may apply at once. -/
inductive Applies (o : Observer μ) (s : Session) (u : μ) : Nat → Except Failure Halt → Prop
  | failed {f : Failure} : s.step.1 = .error f → Applies o s u 0 (.error f)
  | ended : s.step.1 = .ok none → Applies o s u 1 (.ok .endOfProgram)
  | unseen {d : Dispatched} {e : InputError} : s.step.1 = .ok (some d) → (o.frame s.step.2.machine d u).1 = .error e →
    Applies o s u 2 (.error (.input e))
  | unasked {d : Dispatched} {e : InputError} : s.step.1 = .ok (some d) →
    (o.interrupted (o.frame s.step.2.machine d u).2).1 = .error e → Applies o s u 3 (.error (.input e))
  | interrupted {d : Dispatched} : s.step.1 = .ok (some d) →
    (o.interrupted (o.frame s.step.2.machine d u).2).1 = .ok true → Applies o s u 4 (.ok .interrupted)
  | idle {d : Dispatched} : s.step.1 = .ok (some d) → d.step = .jump → s.step.2.machine.pc = s.machine.pc →
    Applies o s u 5 (.ok .idle)

/-- The first reason that applies. -/
def Decides (o : Observer μ) (s : Session) (u : μ) (r : Except Failure Halt) : Prop :=
  ∃ rank, Applies o s u rank r ∧ ∀ lower < rank, ∀ r', ¬Applies o s u lower r'

/-- No reason applies. -/
def GoesOn (o : Observer μ) (s : Session) (u : μ) : Prop := ∀ rank r, ¬Applies o s u rank r

/-- The state of the observer after `j` rounds, in each of which it was shown an instruction and then asked. -/
def watcher (o : Observer μ) (s : Session) (u : μ) : Nat → μ
  | 0 => u
  | j + 1 =>
    match (s.after j).step with
    | (.ok (some d), t) => (o.interrupted (o.frame t.machine d (watcher o s u j)).2).2
    | _ => watcher o s u j

/-- How a run ends: as the first reason of the first round with one, or else at its limit. -/
inductive Outcome (o : Observer μ) (s : Session) (u : μ) (max : Nat) : Except Failure Halt → Prop
  | decided {j r} : j < max → (∀ i < j, GoesOn o (s.after i) (s.watcher o u i)) →
    Decides o (s.after j) (s.watcher o u j) r → Outcome o s u max r
  | limit : (∀ i < max, GoesOn o (s.after i) (s.watcher o u i)) → Outcome o s u max (.ok .stepLimit)

/-- What becomes of a round, told by the reasons. -/
theorem round_reasons (o : Observer μ) (s : Session) (u : μ) :
    match (s.round o u).1 with
    | some r => Decides o s u r
    | none => GoesOn o s u := by
  have hround := round_cases o s u
  generalize s.round o u = r at hround ⊢
  obtain ⟨r, t, v⟩ := r
  replace hround : Round o s u r t v := hround
  cases hround with
  | failed hs =>
    exact ⟨0, .failed (congrArg Prod.fst hs), fun lower hlt => absurd hlt (Nat.not_lt_zero lower)⟩
  | ended hs =>
    refine ⟨1, .ended (congrArg Prod.fst hs), fun lower hlt r' h => ?_⟩
    cases h <;> simp_all
  | unseen hs hf =>
    refine ⟨2, .unseen (congrArg Prod.fst hs) (by rw [hs, hf]), fun lower hlt r' h => ?_⟩
    cases h <;> simp_all
  | unasked hs hf hi =>
    refine ⟨3, .unasked (congrArg Prod.fst hs) (by rw [hs, hf, hi]), fun lower hlt r' h => ?_⟩
    cases h <;> simp_all
  | interrupted hs hf hi =>
    refine ⟨4, .interrupted (congrArg Prod.fst hs) (by rw [hs, hf, hi]), fun lower hlt r' h => ?_⟩
    cases h <;> simp_all
  | idle hs hf hi hidle =>
    refine ⟨5, .idle (congrArg Prod.fst hs) hidle.1 (by rw [hs]; exact hidle.2), fun lower hlt r' h => ?_⟩
    cases h <;> simp_all
  | goesOn hs hf hi hidle =>
    intro rank r h
    cases h <;> simp_all

/-- At most one way to end is that of the first reason. -/
theorem Decides.unique {r r' : Except Failure Halt} (h : Decides o s u r) (h' : Decides o s u r') : r = r' := by
  obtain ⟨rank, ha, hfirst⟩ := h
  obtain ⟨rank', ha', hfirst'⟩ := h'
  obtain hlt | rfl | hlt := Nat.lt_trichotomy rank rank'
  · exact absurd ha (hfirst' rank hlt r)
  · cases ha <;> cases ha' <;> simp_all
  · exact absurd ha' (hfirst rank' hlt r')

theorem Decides.not_goesOn {r : Except Failure Halt} (h : Decides o s u r) : ¬GoesOn o s u := by
  obtain ⟨rank, ha, -⟩ := h
  exact fun hgoes => hgoes rank r ha

theorem Outcome.unique {max : Nat} {r r' : Except Failure Halt} (h : Outcome o s u max r) (h' : Outcome o s u max r') :
    r = r' := by
  cases h with
  | @decided j r hj hbefore hr =>
    cases h' with
    | @decided j' r' hj' hbefore' hr' =>
      obtain hlt | rfl | hlt := Nat.lt_trichotomy j j'
      · exact absurd (hbefore' j hlt) hr.not_goesOn
      · exact hr.unique hr'
      · exact absurd (hbefore j' hlt) hr'.not_goesOn
    | limit hall => exact absurd (hall j hj) hr.not_goesOn
  | limit hall =>
    cases h' with
    | @decided j' r' hj' hbefore' hr' => exact absurd (hall j' hj') hr'.not_goesOn
    | limit => rfl

theorem watcher_succ (o : Observer μ) (s : Session) (u : μ) (j : Nat) :
    s.watcher o u (j + 1) = s.step.2.watcher o (s.watcher o u 1) j := by
  induction j with
  | zero => rfl
  | succ j ih =>
    rw [watcher, ih, after_succ]
    rfl

/-- After a round without a reason to stop, the rest of the run decides. -/
theorem Outcome.succ {max : Nat} {r : Except Failure Halt} (hgoes : GoesOn o s u)
    (h : Outcome o s.step.2 (s.watcher o u 1) max r) : Outcome o s u (max + 1) r := by
  have hshift {n : Nat} (hall : ∀ i < n, GoesOn o (s.step.2.after i) (s.step.2.watcher o (s.watcher o u 1) i)) :
      ∀ i < n + 1, GoesOn o (s.after i) (s.watcher o u i) := by
    intro i hi
    cases i with
    | zero => exact hgoes
    | succ i =>
      rw [after_succ, watcher_succ]
      exact hall i (Nat.lt_of_succ_lt_succ hi)
  cases h with
  | @decided j r hj hbefore hr =>
    rw [← watcher_succ, ← after_succ] at hr
    exact .decided (Nat.succ_lt_succ hj) (hshift hbefore) hr
  | limit hall => exact .limit (hshift hall)

theorem outcome_run (o : Observer μ) (max : Nat) (s : Session) (u : μ) : Outcome o s u max (s.run o max u).1 := by
  induction max generalizing s u with
  | zero => exact .limit fun i hi => absurd hi (Nat.not_lt_zero i)
  | succ max ih =>
    have hreasons := round_reasons o s u
    have hround := round_cases o s u
    rw [run_succ]
    rcases hr : s.round o u with ⟨_ | r, t, v⟩ <;> rw [hr] at hreasons hround
    · cases hround with
      | goesOn hs hf hi =>
        have ht : s.step.2 = t := congrArg Prod.snd hs
        have hv : s.watcher o u 1 = v := by simp only [watcher, after, hs, hf, hi]
        exact .succ hreasons (by rw [ht, hv]; exact ih t v)
    · exact .decided (Nat.succ_pos max) (fun i hi => absurd hi (Nat.not_lt_zero i)) hreasons

/-! ### Counting frames -/

/-- A counter that waits for `n` frames asks to stop once it has as many. -/
theorem counter_answer {c v v' : FrameCounter} {m : Machine} {n : Nat} {b : Bool} (hc : c.limit = some n)
    (hf : FrameCounter.observer.frame m d c = (.ok (), v)) (hi : FrameCounter.observer.interrupted v = (.ok b, v')) :
    v' = c.count d ∧ (b = true ↔ n ≤ c.frames + 1) := by
  obtain rfl : c.count d = v := congrArg Prod.snd hf
  obtain rfl : c.count d = v' := congrArg Prod.snd hi
  have hb : Except.ok (c.count d).wantsStop = Except.ok b := congrArg Prod.fst hi
  refine ⟨rfl, ?_⟩
  rw [← Except.ok.inj hb, FrameCounter.wantsStop, FrameCounter.count, hc]
  exact decide_eq_true_iff

/-- What a counter that waits for `n` frames makes of a run of `k` instructions. -/
structure Counted (n k : Nat) (s : Session) (c : FrameCounter) (r : Except Failure Halt) (t : Session)
    (c' : FrameCounter) : Prop where
  steps : t.steps = s.steps + k
  frames : c'.frames = c.frames + k
  within : k ≤ max 1 (n - c.frames)
  interrupted : r = .ok .interrupted ↔ k = max 1 (n - c.frames)

theorem counted_one {n : Nat} {c : FrameCounter} {r : Except Failure Halt} (hs : s.step = (.ok (some d), t))
    (hr : r = .ok .interrupted ↔ n ≤ c.frames + 1) : Counted n 1 s c r t (c.count d) :=
  ⟨steps_of_step hs, rfl, by omega, hr.trans (by omega)⟩

/-- A frame more is a frame less to wait for. -/
theorem Counted.succ {n : Nat} {c c' : FrameCounter} {r : Except Failure Halt} {t' : Session}
    (h : Counted n k t (c.count d) r t' c') (hs : s.step = (.ok (some d), t)) (hwait : c.frames + 1 < n) :
    Counted n (k + 1) s c r t' c' := by
  have hcount : (c.count d).frames = c.frames + 1 := rfl
  obtain ⟨hsteps, hframes, hwithin, hinterrupted⟩ := h
  rw [hcount] at hframes hwithin hinterrupted
  refine ⟨?_, by omega, by omega, hinterrupted.trans (by omega)⟩
  rw [hsteps, steps_of_step hs]
  omega

theorem exists_counted {n : Nat} (bound : Nat) (s : Session) {c : FrameCounter} (hc : c.limit = some n) :
    ∃ k, Counted n k s c (s.run FrameCounter.observer bound c).1 (s.run FrameCounter.observer bound c).2.1
      (s.run FrameCounter.observer bound c).2.2 := by
  induction bound generalizing s c with
  | zero => exact ⟨0, rfl, rfl, Nat.zero_le _, nofun, fun h => by omega⟩
  | succ bound ih =>
    have hround := round_cases FrameCounter.observer s c
    simp only [run_succ]
    generalize s.round FrameCounter.observer c = r at hround ⊢
    obtain ⟨r, t, c'⟩ := r
    replace hround : Round FrameCounter.observer s c r t c' := hround
    cases hround with
    | failed hs =>
      refine ⟨0, rfl, rfl, Nat.zero_le _, fun h => ?_, fun h => by omega⟩
      rcases error_of_step hs with ⟨word, rfl⟩ | ⟨pc, word, fault, rfl⟩ <;> cases h
    | ended hs => exact ⟨0, rfl, rfl, Nat.zero_le _, nofun, fun h => by omega⟩
    | unseen hs hf => cases hf
    | unasked hs hf hi => cases hi
    | interrupted hs hf hi =>
      obtain ⟨rfl, hstop⟩ := counter_answer hc hf hi
      exact ⟨1, counted_one hs ⟨fun _ => hstop.1 rfl, fun _ => rfl⟩⟩
    | idle hs hf hi _ =>
      obtain ⟨rfl, hstop⟩ := counter_answer hc hf hi
      exact ⟨1, counted_one hs ⟨fun h => (by cases h), fun h => by cases hstop.2 h⟩⟩
    | goesOn hs hf hi _ =>
      obtain ⟨rfl, hstop⟩ := counter_answer hc hf hi
      obtain ⟨k, hk⟩ := ih t (c := c.count _) hc
      have hwait : c.frames + 1 < n := Nat.lt_of_not_le fun h => by cases hstop.2 h
      exact ⟨k + 1, hk.succ hs hwait⟩

/-- What an observer notes down of a run that leaves `t`: a frame for every instruction, and a question after each
frame that was shown. -/
structure Watched (s t : Session) (calls : List Call) : Prop where
  shows : s.Shows (Observer.frames calls)
  left : t = s.after (Observer.frames calls).length
  polled : Polled calls

/-- How runs are watched, and how they end. -/
theorem run_watched (s : Session) (bound : Nat) :
    (∀ (μ : Type) (o : Observer μ) (u : μ),
      (∃ calls, s.run o.noting bound (u, []) =
          ((s.run o bound u).1, (s.run o bound u).2.1, (s.run o bound u).2.2, calls) ∧
        Watched s (s.run o bound u).2.1 calls) ∧
      ∀ r, (s.run o bound u).1 = r ↔ Outcome o s u bound r) ∧
    ∀ (c : FrameCounter) (n : Nat), c.limit = some n → ∃ k, Counted n k s c
      (s.run FrameCounter.observer bound c).1 (s.run FrameCounter.observer bound c).2.1
      (s.run FrameCounter.observer bound c).2.2 := by
  refine ⟨fun μ o u => ⟨?_, fun r => ⟨fun h => h ▸ outcome_run o bound s u, (outcome_run o bound s u).unique⟩⟩,
    fun c n hc => exists_counted bound s hc⟩
  obtain ⟨k, calls, hafter, hcalls, hrun⟩ := run_noting o bound s u
  obtain ⟨hlength, hshows⟩ := hcalls.shows
  exact ⟨calls, hrun [], hshows, by rw [hlength, hafter], hcalls.polled⟩

/-- A counter that waits for two frames interrupts the jump to itself, before the run can be idle. -/
theorem run_watched_interrupted :
    let c : FrameCounter := { limit := some 2 }
    (resting.run FrameCounter.observer 9 c).1 = .ok .interrupted ∧
      (resting.run FrameCounter.observer 9 c).2.2.frames = 2 := by
  intro c
  obtain ⟨k, hk⟩ := (run_watched resting 9).2 c 2 rfl
  have hsteps : (resting.run FrameCounter.observer 9 c).2.1.steps = 2 := rfl
  obtain rfl : k = 2 := (Nat.zero_add k).symm.trans (hk.steps.symm.trans hsteps)
  exact ⟨hk.interrupted.2 rfl, hk.frames⟩

end Session
end Chip8
