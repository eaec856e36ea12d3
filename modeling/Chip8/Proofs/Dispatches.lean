import Chip8.Proofs.Atomic
import Chip8.Proofs.Effect

/-! Words dispatched in a row on one world. An answer that is an instruction says what became of the world, and any
other answer says that nothing did. -/

namespace Chip8.Interpreter

/-- The answers to words that are dispatched one after another, whatever becomes of each, and the world that they
leave. -/
def dispatchAll (cpu : Interpreter) : List Word → World → List (Except Failure Dispatched) × World
  | [], w => ([], w)
  | word :: words, w =>
    match cpu.dispatch word w with
    | (r, w) =>
      match dispatchAll cpu words w with
      | (rs, w) => (r :: rs, w)

/-- The world that the first `n` of the words leave. -/
def worldAfter (cpu : Interpreter) (words : List Word) (w : World) (n : Nat) : World :=
  (cpu.dispatchAll (words.take n) w).2

variable {cpu : Interpreter} {words : List Word} {w : World} {n : Nat}

theorem worldAfter_succ (cpu : Interpreter) (words : List Word) (w : World) (n : Nat) :
    cpu.worldAfter words w (n + 1) =
      (words[n]?).elim (cpu.worldAfter words w n) fun word => (cpu.dispatch word (cpu.worldAfter words w n)).2 := by
  induction words generalizing w n with
  | nil => simp [worldAfter]
  | cons word words ih =>
    cases n with
    | zero => rfl
    | succ n => exact ih _ n

/-- The answers are those of dispatching each word in the world that the words before it leave. -/
theorem getElem?_dispatchAll (cpu : Interpreter) (words : List Word) (w : World) (n : Nat) :
    (cpu.dispatchAll words w).1[n]? =
      (words[n]?).map fun word => (cpu.dispatch word (cpu.worldAfter words w n)).1 := by
  induction words generalizing w n with
  | nil => rfl
  | cons word words ih =>
    cases n with
    | zero => rfl
    | succ n => exact ih _ n

theorem dispatch_of_answer {d : Dispatched} (h : (cpu.dispatchAll words w).1[n]? = some (.ok d)) :
    ∃ word, words[n]? = some word ∧
      cpu.dispatch word (cpu.worldAfter words w n) = (.ok d, cpu.worldAfter words w (n + 1)) := by
  rw [getElem?_dispatchAll] at h
  obtain ⟨word, hword, hd⟩ := Option.map_eq_some_iff.1 h
  refine ⟨word, hword, Prod.ext hd ?_⟩
  rw [worldAfter_succ, hword]
  rfl

theorem worldAfter_of_no_answer (h : ∀ d, (cpu.dispatchAll words w).1[n]? ≠ some (.ok d)) :
    cpu.worldAfter words w (n + 1) = cpu.worldAfter words w n := by
  rw [worldAfter_succ]
  cases hword : words[n]? with
  | none => rfl
  | some word =>
    rw [getElem?_dispatchAll, hword] at h
    change (cpu.dispatch word (cpu.worldAfter words w n)).2 = _
    rcases hd : cpu.dispatch word (cpu.worldAfter words w n) with ⟨f | d, w'⟩
    · exact cpu.atomic_dispatch word _ _ _ hd
    · refine absurd ?_ (h d)
      rw [Option.map_some, hd]

end Chip8.Interpreter
