import Chip8.Proofs.Counter
import Chip8.Proofs.Refusal
import Chip8.Proofs.Schedule
import Chip8.Proofs.Standard
import Chip8.Proofs.Starting

/-! Listings without calls, returns and jumps. Each word leads to one of the two behind it, so that a run
comes to the end of the listing, as long as the counter can hold every position on the way: it has sixteen
bits, and goes around where a listing is longer than that. -/

namespace Chip8

/-- Goes on to the next word, or past it. -/
def Instruction.Straight : Instruction → Prop
  | .call _ | .ret | .jumpOffset _ => False
  | _ => True

theorem Instruction.Straight.flow {i : Instruction} (h : i.Straight) (stride : Nat) (s : View) :
    i.flow stride s = (.next, s.pc + stride) ∨ i.flow stride s = (.skip, s.pc + 2 * stride) := by
  cases i with
  | call | ret | jumpOffset => exact h.elim
  | skipEqImm | skipNeImm | skipEqReg | skipNeReg => exact (ite_eq_or_eq _ _ _).symm
  | _ => exact .inl rfl

/-- Of the straight instructions only the block transfers can fail, and only where the block leaves memory. -/
theorem Interpreter.fault_of_straight {cpu : Interpreter} {i : Instruction} {w w' : World} {f : Fault}
    (hi : i.Straight) (hreg : ∀ r ∈ i.highestRegister?, r < 16) (h : cpu.apply i w = (.error f, w')) :
    ∃ x, (i = .storeRegs x ∨ i = .loadRegs x) ∧ f = .outOfBounds w.machine.i (x.toNat + 1) := by
  obtain ⟨hf, -⟩ := (apply_eq_error_iff hreg).1 h
  have hindex : UInt16.ofNat w.view.i = w.machine.i := UInt16.ofNat_toNat
  cases i with
  | call | ret | jumpOffset => exact hi.elim
  | storeRegs x =>
    obtain ⟨-, rfl⟩ := (Instruction.fault?_transfer (.inl rfl)).1 hf
    exact ⟨x, .inl rfl, by rw [hindex]⟩
  | loadRegs x =>
    obtain ⟨-, rfl⟩ := (Instruction.fault?_transfer (.inr rfl)).1 hf
    exact ⟨x, .inr rfl, by rw [hindex]⟩
  | _ => cases hf

namespace Session

/-- A session of a listing all of whose words are straight instructions. -/
structure Straight (words : Array Word) (s : Session) : Prop where
  program : s.program = .listing words
  addressing : s.interpreter.addressing = .words
  decodes : ∀ word ∈ words, ∃ i, s.interpreter.decoder.decode word = .ok i ∧ i.Straight

variable {words : Array Word} {s : Session} {i j n : Nat}

/-- The next word is a block transfer, and fails because the block would leave memory. -/
def BlockFault (s : Session) (f : Failure) : Prop :=
  ∃ word i x a n, s.fetch = .ok (some word) ∧ s.interpreter.decoder.decode word = .ok i ∧
    (i = .storeRegs x ∨ i = .loadRegs x) ∧ f = .fault s.machine.pc word (.outOfBounds a n)

theorem Straight.mem_of_fetch {word : Word} (h : Straight words s) (hf : s.fetch = .ok (some word)) : word ∈ words :=
  Array.mem_of_getElem? (Except.ok.inj ((fetch_listing h.program).symm.trans hf))

theorem Straight.transfer_mem {f : Failure} (h : Straight words s) (hf : BlockFault s f) :
    ∃ word ∈ words, ∃ x, s.interpreter.decoder.decode word = .ok (.storeRegs x) ∨
      s.interpreter.decoder.decode word = .ok (.loadRegs x) := by
  obtain ⟨word, i, x, a, n, hw, hi, rfl | rfl, -⟩ := hf
  · exact ⟨word, h.mem_of_fetch hw, x, .inl hi⟩
  · exact ⟨word, h.mem_of_fetch hw, x, .inr hi⟩

/-- What a step of a straight listing can be. -/
inductive Onward (words : Array Word) (s : Session) : Except Failure (Option Dispatched) → Session → Prop
  | ended : words.size ≤ s.machine.pc.toNat → Onward words s (.ok none) s
  | next {d : Dispatched} {t : Session} : s.machine.pc.toNat < words.size → d.step = .next →
    t.machine.pc.toNat = (s.machine.pc.toNat + 1) % 65536 → Onward words s (.ok (some d)) t
  | skip {d : Dispatched} {t : Session} : s.machine.pc.toNat < words.size → d.step = .skip →
    t.machine.pc.toNat = (s.machine.pc.toNat + 2) % 65536 → Onward words s (.ok (some d)) t
  | refused {f : Failure} : BlockFault s f → Onward words s (.error f) s

theorem Straight.kept {t : Session} (h : Straight words s) (hkept : Kept s t) : Straight words t := by
  refine ⟨hkept.program.trans h.program, ?_, ?_⟩ <;> rw [hkept.interpreter]
  · exact h.addressing
  · exact h.decodes

theorem Straight.after (h : Straight words s) (n : Nat) : Straight words (s.after n) := h.kept (kept_after s n)

theorem Straight.onward_of_step (h : Straight words s) {d : Dispatched} {t : Session}
    (hpc : s.machine.pc.toNat < words.size) (hr : s.step = (.ok (some d), t)) : Onward words s (.ok (some d)) t := by
  have hagree : s.interpreter.addressing = s.program.addressing := by rw [h.addressing, h.program]; rfl
  have hstride : s.stride = 1 := by rw [stride, h.program]
  obtain ⟨hstep, hcounter⟩ := flow_of_step hagree hr
  obtain ⟨word, w, hf, hd, -⟩ := step_eq_some_iff.1 hr
  obtain ⟨-, -, hi, -⟩ := Interpreter.dispatch_eq_ok_iff.1 hd
  obtain ⟨i, hi', hstraight⟩ := h.decodes word (h.mem_of_fetch hf)
  cases hi.symm.trans hi'
  rw [hstride] at hstep hcounter
  rcases hstraight.flow 1 s.world.view with hnext | hskip
  · rw [hnext] at hstep hcounter
    exact .next hpc hstep hcounter
  · rw [hskip] at hstep hcounter
    exact .skip hpc hstep hcounter

theorem Straight.onward (h : Straight words s) : Onward words s s.step.1 s.step.2 := by
  by_cases hpc : s.machine.pc.toNat < words.size
  · have hf : s.fetch = .ok (some words[s.machine.pc.toNat]) := by
      rw [fetch_listing h.program, Array.getElem?_eq_getElem hpc]
    obtain ⟨i, hi, hstraight⟩ := h.decodes _ (Array.getElem_mem hpc)
    rcases hr : s.step with ⟨f | _ | d, t⟩
    · rw [atomic_step s f t hr]
      rw [step_of_fetch hf, Interpreter.dispatch_of_decode hi] at hr
      rcases ha : s.interpreter.apply i s.world with ⟨fault | _, w⟩ <;> rw [ha] at hr <;> cases hr
      obtain ⟨x, hx, rfl⟩ := Interpreter.fault_of_straight hstraight (Decoder.register_lt_of_decode hi) ha
      exact .refused ⟨_, i, x, _, _, hf, hi, hx, rfl⟩
    · rw [step_of_fetch hf] at hr
      rcases hd : s.interpreter.dispatch _ s.world with ⟨_ | _, w⟩ <;> rw [hd] at hr <;> cases hr
    · exact h.onward_of_step hpc hr
  · have hf : s.fetch = .ok none := by
      rw [fetch_listing h.program, Array.getElem?_eq_none (Nat.le_of_not_lt hpc)]
    rw [step_of_fetch_none hf]
    exact .ended (Nat.le_of_not_lt hpc)

/-- The counter can hold every position that the listing leads to: there are fewer than 65535 words, or just
as many and the last is not a skip that is taken. -/
def Fits (words : Array Word) (s : Session) : Prop :=
  words.size < 65535 ∨ words.size = 65535 ∧ ∀ k d, (s.after k).machine.pc = 65534 →
    (s.after k).step.1 = .ok (some d) → d.step ≠ .skip

theorem Straight.pc_lt_succ (h : Straight words s) (hfit : Fits words s) {d : Dispatched}
    (hd : (s.after n).step.1 = .ok (some d)) : (s.after n).machine.pc < (s.after (n + 1)).machine.pc := by
  have honward := (h.after n).onward
  change Onward words (s.after n) (s.after n).step.1 (s.after (n + 1)) at honward
  rw [hd] at honward
  rw [UInt16.lt_iff_toNat_lt]
  cases honward with
  | next hpc _ hnext =>
    have hsize : words.size ≤ 65535 := by rcases hfit with hsize | hsize <;> omega
    omega
  | skip hpc hskip hnext =>
    rcases hfit with hsize | ⟨hsize, hlast⟩
    · omega
    · -- only a skip from the last position would reach 65536
      have hne : (s.after n).machine.pc.toNat ≠ 65534 := fun hpc' =>
        hlast n d (UInt16.toNat_inj.1 hpc') hd hskip
      omega

theorem Straight.pc_lt (h : Straight words s) (hfit : Fits words s) (hs : s.Succeeds n) (hij : i < j) (hj : j ≤ n) :
    (s.after i).machine.pc < (s.after j).machine.pc := by
  induction hij with
  | refl =>
    obtain ⟨d, hd⟩ := hs i hj
    exact h.pc_lt_succ hfit hd
  | @step j hij ih =>
    obtain ⟨d, hd⟩ := hs j hj
    exact UInt16.lt_trans (ih (Nat.le_of_succ_le hj)) (h.pc_lt_succ hfit hd)

theorem Straight.le_pc (h : Straight words s) (hfit : Fits words s) (hs : s.Succeeds n) (hj : j ≤ n) :
    j ≤ (s.after j).machine.pc.toNat := by
  induction j with
  | zero => exact Nat.zero_le _
  | succ j ih =>
    have hlt := UInt16.lt_iff_toNat_lt.1 (h.pc_lt hfit hs (Nat.lt_succ_self j) hj)
    exact Nat.succ_le_of_lt (Nat.lt_of_le_of_lt (ih (Nat.le_of_succ_le hj)) hlt)

/-- Positions only grow, so there are no more steps than words. -/
theorem Straight.le_size (h : Straight words s) (hfit : Fits words s) (hs : s.Succeeds n) : n ≤ words.size := by
  cases n with
  | zero => exact Nat.zero_le _
  | succ n =>
    have hle := h.le_pc hfit hs (Nat.le_succ n)
    obtain ⟨d, hd⟩ := hs n (Nat.lt_succ_self n)
    have honward := (h.after n).onward
    rw [hd] at honward
    cases honward with
    | next hpc | skip hpc => exact Nat.lt_of_le_of_lt hle hpc

/-- Why a run of a straight listing stops of itself. -/
inductive Stops (t : Session) : Except Failure Halt → Prop
  | walkedOff : t.fetch = .ok none → Stops t (.ok .endOfProgram)
  | refused {f : Failure} : BlockFault t f → Stops t (.error f)

theorem Straight.stops (h : Straight words s) {r : Except Failure Halt} {max k : Nat} (hend : Ending s max k r) :
    Stops (s.after k) r ∨ k = max ∧ r = .ok .stepLimit := by
  cases hend with
  | failed _ hf =>
    have honward := (h.after k).onward
    rw [hf] at honward
    generalize (s.after k).step.2 = t at honward
    cases honward with
    | refused hblock => exact .inl (.refused hblock)
  | ended _ hn =>
    have honward := (h.after k).onward
    rw [hn] at honward
    generalize (s.after k).step.2 = t at honward
    cases honward with
    | ended hpc =>
      refine .inl (.walkedOff ?_)
      rw [fetch_listing (h.after k).program, Array.getElem?_eq_none hpc]
  | @idle k _ _ hd hjump _ =>
    have honward := (h.after k).onward
    rw [hd] at honward
    cases honward with
    | next _ hnext => cases hjump.symm.trans hnext
    | skip _ hskip => cases hjump.symm.trans hskip
  | limit => exact .inr ⟨rfl, rfl⟩

theorem straight_of_new {settings : Settings} {cpu : Interpreter} {random : RandomStream}
    (h : Session.new settings cpu random (.listing words) = .ok s)
    (hwords : ∀ word ∈ words, ∃ i, cpu.decoder.decode word = .ok i ∧ i.Straight) : Straight words s := by
  obtain ⟨rfl, hprogram, haddressing⟩ := addressing_of_new h
  exact ⟨hprogram, haddressing, hwords⟩

/-- A run of a listing from the start: what it carried out, and how it ended. -/
structure RunsOff (words : Array Word) (s t : Session) (r : Except Failure Halt) : Prop where
  state : Continues s t
  steps : t.steps ≤ words.size
  increasing : ∀ i j, i < j → j ≤ t.steps → (s.after i).machine.pc < (s.after j).machine.pc
  stops : Stops t r

section Runs

variable {settings : Settings} {cpu : Interpreter} {random : RandomStream} {μ : Type} {o : Observer μ}
  {p : μ → Prop} {u : μ}

theorem Straight.runsOff (h : Straight words s) (hzero : s.steps = 0) (ho : o.Quiet p) (hu : p u)
    (hfit : Fits words s) {max : Nat} (hmax : words.size < max) :
    RunsOff words s (s.run o max u).2.1 (s.run o max u).1 := by
  obtain ⟨k, hk, hafter, hend⟩ := run_quiet ho hu max s
  have hsize : k ≤ words.size := h.le_size hfit hk
  have hsteps : (s.after k).steps = k := by rw [steps_after hk, hzero, Nat.zero_add]
  rw [hafter]
  refine ⟨continues_iff.2 ⟨k, hk, rfl⟩, by rw [hsteps]; exact hsize, fun i j hij hj => ?_, ?_⟩
  · rw [hsteps] at hj
    exact h.pc_lt hfit hk hij hj
  · rcases h.stops hend with hstops | ⟨rfl, -⟩
    · exact hstops
    · exact absurd hmax (Nat.not_lt_of_le hsize)

/-- With more words than the counter can number, there is always a next one. -/
theorem Straight.repeats (h : Straight words s) (hzero : s.steps = 0) (ho : o.Quiet p) (hu : p u)
    (hsize : 65536 ≤ words.size) (max : Nat) :
    (s.run o max u).1 = .ok .stepLimit ∧ (s.run o max u).2.1.steps = max ∨
      ∃ f, (s.run o max u).1 = .error f ∧ BlockFault (s.run o max u).2.1 f := by
  obtain ⟨k, hk, hafter, hend⟩ := run_quiet ho hu max s
  rw [hafter]
  rcases h.stops hend with hstops | ⟨rfl, hlimit⟩
  · generalize (s.run o max u).1 = r at hstops
    cases hstops with
    | walkedOff hnone =>
      have hpc : (s.after k).machine.pc.toNat < words.size := Nat.lt_of_lt_of_le (UInt16.toNat_lt _) hsize
      rw [fetch_listing (h.after k).program, Array.getElem?_eq_getElem hpc] at hnone
      cases hnone
    | refused hfault => exact .inr ⟨_, rfl, hfault⟩
  · refine .inl ⟨hlimit, ?_⟩
    rw [steps_after hk, hzero, Nat.zero_add]

/-- A listing without transfers of control ends where it ends, if the counter can hold the positions that it
leads to. A longer one is never left, since the counter goes around to its start. -/
theorem straight_listing_ends (hnew : Session.new settings cpu random (.listing words) = .ok s)
    (hwords : ∀ word ∈ words, ∃ i, cpu.decoder.decode word = .ok i ∧ i.Straight) (ho : o.Quiet p) (hu : p u)
    (max : Nat) :
    (Fits words s → words.size < max → RunsOff words s (s.run o max u).2.1 (s.run o max u).1) ∧
      (65536 ≤ words.size → (s.run o max u).1 = .ok .stepLimit ∧ (s.run o max u).2.1.steps = max ∨
        ∃ f, (s.run o max u).1 = .error f ∧ BlockFault (s.run o max u).2.1 f) := by
  have hstraight := straight_of_new hnew hwords
  have hzero := steps_of_new hnew
  exact ⟨fun hfit hmax => hstraight.runsOff hzero ho hu hfit hmax,
    fun hsize => hstraight.repeats hzero ho hu hsize max⟩

end Runs

/-- A new session of a listing of one skip, however often it is repeated. -/
theorem exists_skips (n : Nat) :
    ∃ cpu s, Interpreter.ofSettings {} = .ok cpu ∧
      Session.new {} cpu { word := fun _ => 0 } (.listing (Array.replicate n 0x3000)) = .ok s ∧
      ∀ word ∈ Array.replicate n 0x3000, cpu.decoder.decode word = .ok (.skipEqImm 0 0) := by
  obtain ⟨cpu, hcpu⟩ := Interpreter.exists_ofSettings (s := {}) (by rfl)
  have haddressing : cpu.addressing = .words := (Interpreter.modes_of_ofSettings hcpu).1
  obtain ⟨s, hs⟩ := @exists_new {} cpu (.listing (Array.replicate n 0x3000)) (by rfl) rfl haddressing
    { word := fun _ => 0 }
  refine ⟨cpu, s, hcpu, hs, fun word hword => ?_⟩
  obtain rfl := (Array.mem_replicate.1 hword).2
  exact (Decoder.decode_standard_iff (Interpreter.decoder_of_ofSettings hcpu) _ _).2 rfl

theorem straight_listing_ends_skipping :
    ∃ cpu s, Interpreter.ofSettings {} = .ok cpu ∧
      Session.new {} cpu { word := fun _ => 0 } (.listing (Array.replicate 3 0x3000)) = .ok s ∧
      RunsOff (Array.replicate 3 0x3000) s (s.run FrameCounter.observer 4 {}).2.1
        (s.run FrameCounter.observer 4 {}).1 := by
  obtain ⟨cpu, s, hcpu, hs, hwords⟩ := exists_skips 3
  have hends := straight_listing_ends hs (fun word hword => ⟨_, hwords word hword, trivial⟩) FrameCounter.quiet
    (u := {}) rfl 4
  refine ⟨cpu, s, hcpu, hs, hends.1 (.inl ?_) ?_⟩
  · rw [Array.size_replicate]; decide
  · rw [Array.size_replicate]; decide

/-- A listing of 65536 skips has no end: the run is cut off by its limit, with words carried out twice. -/
theorem long_listing_repeats :
    ∃ cpu s, Interpreter.ofSettings {} = .ok cpu ∧
      Session.new {} cpu { word := fun _ => 0 } (.listing (Array.replicate 65536 0x3000)) = .ok s ∧
      (∀ word ∈ Array.replicate 65536 0x3000, ∃ i, cpu.decoder.decode word = .ok i ∧ i.Straight) ∧
      (s.run FrameCounter.observer 65537 {}).1 = .ok .stepLimit ∧
      (s.run FrameCounter.observer 65537 {}).2.1.steps = 65537 := by
  obtain ⟨cpu, s, hcpu, hs, hwords⟩ := exists_skips 65536
  have hdecodes : ∀ word ∈ Array.replicate 65536 0x3000, ∃ i, cpu.decoder.decode word = .ok i ∧ i.Straight :=
    fun word hword => ⟨_, hwords word hword, trivial⟩
  have hstraight := straight_of_new hs hdecodes
  have hsize : 65536 ≤ (Array.replicate 65536 (0x3000 : Word)).size := Nat.le_of_eq Array.size_replicate.symm
  refine ⟨cpu, s, hcpu, hs, hdecodes, ?_⟩
  rcases hstraight.repeats (steps_of_new hs) FrameCounter.quiet (u := {}) rfl hsize 65537 with
    hlimit | ⟨f, -, hfault⟩
  · exact hlimit
  · have hkept := kept_run FrameCounter.observer 65537 s {}
    obtain ⟨word, hword, x, hx⟩ := (hstraight.kept hkept).transfer_mem hfault
    rw [hkept.interpreter, (addressing_of_new hs).1, hwords word hword] at hx
    rcases hx with hx | hx <;> cases hx

end Session
end Chip8
