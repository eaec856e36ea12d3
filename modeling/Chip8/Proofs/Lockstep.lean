import Chip8.Proofs.Schedule

/-! Sessions in lockstep. What two sessions answer to single steps decides what they answer to runs, as long as nobody
who watches them interferes. -/

namespace Chip8.Session

variable {μ μ' : Type} {o : Observer μ} {o' : Observer μ'} {p : μ → Prop} {p' : μ' → Prop} {u : μ} {u' : μ'}
  {s t : Session} {d : Dispatched}

/-- A jump to itself, of a session that the instruction leaves as `t`. -/
def Idles (s : Session) (d : Dispatched) (t : Session) : Prop := d.step = .jump ∧ t.machine.pc = s.machine.pc

instance (s : Session) (d : Dispatched) (t : Session) : Decidable (s.Idles d t) := inferInstanceAs (Decidable (_ ∧ _))

/-- Under a quiet observer, a round that carries out an instruction ends a run only with a jump to itself. -/
theorem round_of_step (ho : o.Quiet p) (hu : p u) (hs : s.step = (.ok (some d), t)) :
    ∃ v, p v ∧ s.round o u = (if s.Idles d t then some (.ok .idle) else none, t, v) := by
  rcases hf : o.frame t.machine d u with ⟨r, v⟩
  obtain ⟨rfl, hv⟩ := ho.frame hu hf
  rcases hi : o.interrupted v with ⟨r, v'⟩
  obtain ⟨rfl, hv'⟩ := ho.interrupted hv hi
  refine ⟨v', hv', ?_⟩
  simp only [round, hs, hf, hi]
  exact (apply_ite (fun r => (r, t, v')) _ _ _).symm

/-- A relation that steps keep, between sessions whose answers to them are the same up to what they are called. -/
structure Lockstep (name : Dispatched → Dispatched) (call : Failure → Failure) (R : Session → Session → Prop) :
    Prop where
  answer : ∀ {s t}, R s t → t.step.1 = (s.step.1.map (Option.map name)).mapError call
  next : ∀ {s t}, R s t → R s.step.2 t.step.2
  idles : ∀ {s t d}, R s t → s.step.1 = .ok (some d) → (t.Idles (name d) t.step.2 ↔ s.Idles d s.step.2)

variable {name : Dispatched → Dispatched} {call : Failure → Failure} {R : Session → Session → Prop}

theorem Lockstep.after (h : Lockstep name call R) (hR : R s t) (n : Nat) : R (s.after n) (t.after n) := by
  induction n with
  | zero => exact hR
  | succ n ih => exact h.next ih

/-- Runs of sessions in lockstep end alike, and leave them in lockstep. -/
theorem Lockstep.run (h : Lockstep name call R) (hR : R s t) (ho : o.Quiet p) (hu : p u) (ho' : o'.Quiet p')
    (hu' : p' u') (max : Nat) :
    (t.run o' max u').1 = (s.run o max u).1.mapError call ∧ R (s.run o max u).2.1 (t.run o' max u').2.1 := by
  induction max generalizing s t u u' with
  | zero => exact ⟨rfl, hR⟩
  | succ max ih =>
    have hanswer := h.answer hR
    have hnext := h.next hR
    have hidles := @h.idles s t
    rw [run_succ, run_succ]
    rcases hs : s.step with ⟨f | _ | d, s₁⟩ <;> rcases ht : t.step with ⟨r, t₁⟩ <;>
      rw [hs, ht] at hanswer hnext hidles <;> cases hanswer
    · rw [round_of_step_error hs, round_of_step_error ht]
      exact ⟨rfl, hnext⟩
    · rw [round_of_step_none hs, round_of_step_none ht]
      exact ⟨rfl, hnext⟩
    · obtain ⟨v, hv, hround⟩ := round_of_step ho hu hs
      obtain ⟨v', hv', hround'⟩ := round_of_step ho' hu' ht
      by_cases hidle : s.Idles d s₁
      · rw [hround, hround', if_pos hidle, if_pos ((hidles hR rfl).2 hidle)]
        exact ⟨rfl, hnext⟩
      · rw [hround, hround', if_neg hidle, if_neg (mt (hidles hR rfl).1 hidle)]
        exact ih hnext hv hv'

end Chip8.Session
