import Chip8.Proofs.Dispatches

/-! Machines that take turns at one interpreter. Random words are all that they share, so a machine that is given again
the words that it drew goes through the same states alone, whatever the others did in between. -/

namespace Chip8

open Function (update update_self update_of_ne)

namespace RandomStream

/-- The next `n` words of a stream. -/
def next (r : RandomStream) (n : Nat) : List UInt32 := (List.range' r.drawn n).map r.word

/-- The stream when `n` more of its words have been drawn. -/
def advance (r : RandomStream) (n : Nat) : RandomStream := { r with drawn := r.drawn + n }

/-- The words that were drawn from a stream until it had become another. -/
def between (r r' : RandomStream) : List UInt32 := r.next (r'.drawn - r.drawn)

variable (r : RandomStream) (m n : Nat)

theorem length_next : (r.next n).length = n := by simp [next]

theorem advance_add : r.advance (m + n) = (r.advance m).advance n := by simp [advance, Nat.add_assoc]

theorem next_add : r.next (m + n) = r.next m ++ (r.advance m).next n := by
  simp only [next, advance, ← List.map_append, List.range'_append_1]

theorem between_advance : r.between (r.advance n) = r.next n := by simp [between, advance]

end RandomStream

/-- How many random words an answer took: one for each random instruction that was carried out. -/
def draws : Except Failure Dispatched → Nat
  | .ok ⟨_, _, .random _ _, _⟩ => 1
  | _ => 0

namespace Interpreter

section Stream

variable (cpu : Interpreter) {i : Instruction}

/-- All but one of the instructions do the same whatever words are to come, and leave them to come. -/
theorem perform_of_not_random (h : ∀ x kk, i ≠ .random x kk) (m : Machine) (r ρ : RandomStream) :
    (cpu.perform i ⟨m, r⟩).2.random = r ∧
      cpu.perform i ⟨m, ρ⟩ = ((cpu.perform i ⟨m, r⟩).1, ⟨(cpu.perform i ⟨m, r⟩).2.machine, ρ⟩) := by
  cases i with
  | random x kk => exact absurd rfl (h x kk)
  | skipEqImm | skipNeImm | skipEqReg | skipNeReg =>
    simp only [perform]
    split <;> exact ⟨rfl, rfl⟩
  | call nnn => rcases hp : m.push m.pc with ⟨_ | _, m'⟩ <;> simp only [perform, hp, and_self]
  | ret => rcases hp : m.pop with ⟨_ | _, m'⟩ <;> simp only [perform, hp, and_self]
  | storeRegs x => rcases hs : m.storeRegisters x.toNat with ⟨_ | _, m'⟩ <;> simp only [perform, hs, and_self]
  | loadRegs x => rcases hl : m.loadRegisters x.toNat with ⟨_ | _, m'⟩ <;> simp only [perform, hl, and_self]
  | _ => exact ⟨rfl, rfl⟩

theorem draws_of_not_random {pc : UInt16} {word : Word} {st : Step} (h : ∀ x kk, i ≠ .random x kk) :
    draws (.ok ⟨pc, word, i, st⟩) = 0 := by
  unfold draws
  split
  · next hok =>
    cases hok
    exact absurd rfl (h _ _)
  · rfl

theorem dispatch_of_not_random {word : Word} (h : ∀ x kk, cpu.decoder.decode word ≠ .ok (.random x kk))
    (m : Machine) (r ρ : RandomStream) :
    draws (cpu.dispatch word ⟨m, r⟩).1 = 0 ∧ (cpu.dispatch word ⟨m, r⟩).2.random = r ∧
      cpu.dispatch word ⟨m, ρ⟩ = ((cpu.dispatch word ⟨m, r⟩).1, ⟨(cpu.dispatch word ⟨m, r⟩).2.machine, ρ⟩) := by
  cases hi : cpu.decoder.decode word with
  | error f => simp only [dispatch_of_decode_error hi, and_self, draws]
  | ok i =>
    have hi' : ∀ x kk, i ≠ .random x kk := fun x kk hx => h x kk (hi.trans (congrArg _ hx))
    obtain ⟨hkept, hsame⟩ := cpu.perform_of_not_random hi' m r ρ
    simp only [dispatch_of_decode hi, apply_eq_perform cpu i _ (Decoder.register_lt_of_decode hi), hsame]
    rcases hp : cpu.perform i ⟨m, r⟩ with ⟨f | st, w⟩ <;> rw [hp] at hkept
    · exact ⟨rfl, hkept, rfl⟩
    · exact ⟨draws_of_not_random hi', hkept, rfl⟩

theorem dispatch_of_random {word : Word} {x kk : UInt8} (h : cpu.decoder.decode word = .ok (.random x kk)) (w : World) :
    cpu.dispatch word w = (.ok ⟨w.machine.pc, word, .random x kk, .next⟩,
      ⟨w.machine.setRegister x ((w.random.word w.random.drawn).toUInt8 &&& kk), w.random.advance 1⟩) := by
  rw [dispatch_of_decode h, apply_eq_perform cpu _ w (Decoder.register_lt_of_decode h)]
  rfl

/-- A dispatch draws what its answer takes, and does the same on any stream with those words to come. -/
theorem dispatch_stream (word : Word) (m : Machine) (r : RandomStream) {answer : Except Failure Dispatched} {w : World}
    (h : cpu.dispatch word ⟨m, r⟩ = (answer, w)) :
    w.random = r.advance (draws answer) ∧ ∀ ρ : RandomStream, ρ.next (draws answer) = r.next (draws answer) →
      cpu.dispatch word ⟨m, ρ⟩ = (answer, ⟨w.machine, ρ.advance (draws answer)⟩) := by
  by_cases hi : ∃ x kk, cpu.decoder.decode word = .ok (.random x kk)
  · obtain ⟨x, kk, hi⟩ := hi
    cases (cpu.dispatch_of_random hi ⟨m, r⟩).symm.trans h
    refine ⟨rfl, fun ρ hρ => ?_⟩
    have hword : ρ.word ρ.drawn = r.word r.drawn := List.head_eq_of_cons_eq hρ
    rw [cpu.dispatch_of_random hi, hword]
    rfl
  · have hi' : ∀ x kk, cpu.decoder.decode word ≠ .ok (.random x kk) := fun x kk hx => hi ⟨x, kk, hx⟩
    have hstays := fun ρ => cpu.dispatch_of_not_random hi' m r ρ
    simp only [h] at hstays
    rw [(hstays r).1]
    exact ⟨(hstays r).2.1, fun ρ _ => (hstays ρ).2.2⟩

end Stream
end Interpreter

/-- Machines with the random words that all of them draw from. -/
structure Shared (ι : Type) where
  machines : ι → Machine
  random : RandomStream

/-- The answer that a machine got in its turn, with the random words that it was handed. -/
structure Turn (ι : Type) where
  machine : ι
  answer : Except Failure Dispatched
  drawn : List UInt32

namespace Interpreter

variable {ι : Type} [DecidableEq ι]

/-- Dispatches words in turn, each on the machine that it is for. -/
def interleave (cpu : Interpreter) : List (ι × Word) → Shared ι → List (Turn ι) × Shared ι
  | [], s => ([], s)
  | (k, word) :: schedule, s =>
    match cpu.dispatch word ⟨s.machines k, s.random⟩ with
    | (answer, w) =>
      match interleave cpu schedule ⟨update s.machines k w.machine, w.random⟩ with
      | (turns, s') => (⟨k, answer, s.random.between w.random⟩ :: turns, s')

/-- The words for one machine. -/
def wordsFor (k : ι) (schedule : List (ι × Word)) : List Word := (schedule.filter (·.1 = k)).map Prod.snd

/-- The answers that one machine got. -/
def answersTo (k : ι) (turns : List (Turn ι)) : List (Except Failure Dispatched) :=
  (turns.filter (·.machine = k)).map Turn.answer

/-- The random words that one machine was handed. -/
def handedTo (k : ι) (turns : List (Turn ι)) : List UInt32 := (turns.filter (·.machine = k)).flatMap Turn.drawn

/-- How many random words were taken in all. -/
def totalDraws : List (Turn ι) → Nat
  | [] => 0
  | t :: turns => draws t.answer + totalDraws turns

/-- Turns that leave `s'` of `s`, of which no machine notices that it shares. -/
structure Isolated (cpu : Interpreter) (schedule : List (ι × Word)) (s : Shared ι) (turns : List (Turn ι))
    (s' : Shared ι) : Prop where
  machines : turns.map Turn.machine = schedule.map Prod.fst
  /-- A machine goes the same way alone, on any stream with the random words to come that it was handed. -/
  alone : ∀ k (ρ : RandomStream), ρ.next (handedTo k turns).length = handedTo k turns →
    cpu.dispatchAll (wordsFor k schedule) ⟨s.machines k, ρ⟩ =
      (answersTo k turns, ⟨s'.machines k, ρ.advance (handedTo k turns).length⟩)
  drawn : ∀ t ∈ turns, t.drawn.length = draws t.answer
  inOrder : turns.flatMap Turn.drawn = s.random.next (totalDraws turns)
  random : s'.random = s.random.advance (totalDraws turns)

variable {cpu : Interpreter} {schedule : List (ι × Word)} {s s' : Shared ι} {turns : List (Turn ι)}

/-- One more turn before others. -/
theorem Isolated.cons {k : ι} {word : Word} {answer : Except Failure Dispatched} {w : World}
    (hd : cpu.dispatch word ⟨s.machines k, s.random⟩ = (answer, w))
    (h : Isolated cpu schedule ⟨update s.machines k w.machine, w.random⟩ turns s') :
    Isolated cpu ((k, word) :: schedule) s (⟨k, answer, s.random.between w.random⟩ :: turns) s' := by
  obtain ⟨hrandom, hdispatch⟩ := cpu.dispatch_stream word (s.machines k) s.random hd
  have hdrawn : s.random.between w.random = s.random.next (draws answer) := by
    rw [hrandom, RandomStream.between_advance]
  have htotal : totalDraws (⟨k, answer, s.random.between w.random⟩ :: turns) = draws answer + totalDraws turns := rfl
  refine ⟨congrArg (k :: ·) h.machines, fun j ρ hρ => ?_, ?_, ?_, ?_⟩
  · by_cases hj : k = j
    · subst hj
      have hhanded : handedTo k (⟨k, answer, s.random.between w.random⟩ :: turns) =
          s.random.next (draws answer) ++ handedTo k turns := by simp [handedTo, hdrawn]
      rw [hhanded, List.length_append, RandomStream.length_next] at hρ ⊢
      rw [RandomStream.next_add] at hρ
      obtain ⟨hnow, hlater⟩ := List.append_inj hρ (by rw [RandomStream.length_next, RandomStream.length_next])
      have halone := h.alone k (ρ.advance (draws answer)) hlater
      simp only [update_self] at halone
      have hwords : wordsFor k ((k, word) :: schedule) = word :: wordsFor k schedule := by simp [wordsFor]
      simp only [hwords, dispatchAll, hdispatch ρ hnow, halone, RandomStream.advance_add]
      simp [answersTo]
    · -- the turn of another machine leaves this one and what is for it as they are
      have hhanded : handedTo j (⟨k, answer, s.random.between w.random⟩ :: turns) = handedTo j turns := by
        simp [handedTo, hj]
      rw [hhanded] at hρ ⊢
      have halone := h.alone j ρ hρ
      simp only [update_of_ne (Ne.symm hj)] at halone
      have hwords : wordsFor j ((k, word) :: schedule) = wordsFor j schedule := by simp [wordsFor, hj]
      rw [hwords, halone]
      simp [answersTo, hj]
  · rw [List.forall_mem_cons]
    exact ⟨by rw [hdrawn, RandomStream.length_next], h.drawn⟩
  · rw [List.flatMap_cons, h.inOrder, htotal, RandomStream.next_add, hdrawn, hrandom]
  · rw [h.random, htotal, hrandom, RandomStream.advance_add]

theorem isolated_interleave (cpu : Interpreter) (schedule : List (ι × Word)) (s : Shared ι) :
    Isolated cpu schedule s (cpu.interleave schedule s).1 (cpu.interleave schedule s).2 := by
  induction schedule generalizing s with
  | nil => exact ⟨rfl, fun k ρ _ => rfl, nofun, rfl, rfl⟩
  | cons p schedule ih => exact .cons rfl (ih _)

theorem draws_of_interleave (h : ∀ p ∈ schedule, ∀ x kk, cpu.decoder.decode p.2 ≠ .ok (.random x kk)) :
    ∀ t ∈ (cpu.interleave schedule s).1, draws t.answer = 0 := by
  induction schedule generalizing s with
  | nil => nofun
  | cons p schedule ih =>
    obtain ⟨hp, hrest⟩ := List.forall_mem_cons.1 h
    exact List.forall_mem_cons.2 ⟨(cpu.dispatch_of_not_random hp _ _ s.random).1, ih hrest⟩

theorem Isolated.alone_of_no_draws (h : Isolated cpu schedule s turns s') (hno : ∀ t ∈ turns, draws t.answer = 0)
    (k : ι) (ρ : RandomStream) :
    cpu.dispatchAll (wordsFor k schedule) ⟨s.machines k, ρ⟩ = (answersTo k turns, ⟨s'.machines k, ρ⟩) := by
  have hnone : handedTo k turns = [] := by
    refine List.flatMap_eq_nil_iff.2 fun t ht => List.eq_nil_of_length_eq_zero ?_
    have hmem := (List.mem_filter.1 ht).1
    rw [h.drawn t hmem, hno t hmem]
  have halone := h.alone k ρ
  rw [hnone] at halone
  exact halone rfl

/-- Machines that share an interpreter do not interfere, and without random words they share nothing. -/
theorem interleave_isolated (cpu : Interpreter) (schedule : List (ι × Word)) (s : Shared ι) :
    Isolated cpu schedule s (cpu.interleave schedule s).1 (cpu.interleave schedule s).2 ∧
      ((∀ p ∈ schedule, ∀ x kk, cpu.decoder.decode p.2 ≠ .ok (.random x kk)) → ∀ k ρ,
        cpu.dispatchAll (wordsFor k schedule) ⟨s.machines k, ρ⟩ =
          (answersTo k (cpu.interleave schedule s).1, ⟨(cpu.interleave schedule s).2.machines k, ρ⟩)) :=
  ⟨cpu.isolated_interleave schedule s,
    fun h => (cpu.isolated_interleave schedule s).alone_of_no_draws (draws_of_interleave h)⟩

/-- An interpreter of random words alone. -/
def dice : Interpreter where
  decoder := ⟨[⟨⟨"Cxkk", [.literal 0xC, .operand .register, .operand .byte], rfl⟩, .random⟩]⟩
  addressing := .words
  shiftFlag := .register
  incrementIndex := false

/-- A machine that draws the words 0 and 2 while another draws 1 and then fails. -/
theorem interleave_isolated_dice :
    let schedule : List (Bool × Word) := [(true, 0xC0FF), (false, 0xC1FF), (false, 0xFFFF), (true, 0xC2FF)]
    let s : Shared Bool := ⟨fun _ => Machine.fresh Memory.blank, ⟨fun n => n.toUInt32, 0⟩⟩
    let (turns, s') := dice.interleave schedule s
    handedTo true turns = [0, 2] ∧ s'.random.drawn = 3 ∧
      dice.dispatchAll [0xC0FF, 0xC2FF] ⟨Machine.fresh Memory.blank, ⟨fun n => 2 * n.toUInt32, 0⟩⟩ =
        (answersTo true turns, ⟨s'.machines true, ⟨fun n => 2 * n.toUInt32, 2⟩⟩) := by
  intro schedule s
  have h := (interleave_isolated dice schedule s).1
  exact ⟨rfl, congrArg RandomStream.drawn h.random, h.alone true _ rfl⟩

end Interpreter
end Chip8
