import Chip8.Proofs.Atomic
import Chip8.Proofs.Counter

/-! Calls and returns. Until the return that takes the stack back to the depth of a call, the slot of that
call holds its address and the slots below it stay as they were, however deep the calls in between go. -/

namespace Chip8

open Function (update)

namespace View

def depth (s : View) : Nat := (s.sp + 1) % 256

/-- What a step does to the stack, where it leaves out whether there was room. -/
inductive StackStep (stride : Nat) (s t : View) : Option Step → Prop
  | pushed : s.depth < 16 → t.depth = s.depth + 1 → t.stack = update s.stack s.depth s.pc →
    StackStep stride s t (some .call)
  | popped : t.depth + 1 = s.depth → t.stack = s.stack → t.pc = (s.stack t.depth + stride) % 65536 →
    StackStep stride s t (some .ret)
  | kept {st : Option Step} : st ≠ some .call → st ≠ some .ret → t.depth = s.depth → t.stack = s.stack →
    StackStep stride s t st

/-- A call from `p` at depth `d` has not returned yet. -/
structure Open (d p : Nat) (slots : Nat → Nat) (s : View) : Prop where
  deeper : d < s.depth
  slot : s.stack d = p
  below : ∀ a < d, s.stack a = slots a

variable {stride d p : Nat} {slots : Nat → Nat} {s t : View} {st : Option Step}

theorem Open.of_call (h : StackStep stride s t (some .call)) : Open s.depth s.pc s.stack t := by
  cases h with
  | pushed _ hdepth hstack =>
    refine ⟨by omega, ?_, fun a ha => ?_⟩
    · rw [hstack, Function.update_self]
    · rw [hstack, Function.update_of_ne (Nat.ne_of_lt ha)]
  | kept hne => exact absurd rfl hne

theorem Open.step (h : Open d p slots s) (hs : StackStep stride s t st) (hd : st = some .ret → t.depth ≠ d) :
    Open d p slots t := by
  have hdeeper := h.deeper
  cases hs with
  | pushed _ hdepth hstack =>
    -- the new slot is above all that the call needs
    refine ⟨by omega, ?_, fun a ha => ?_⟩
    · rw [hstack, Function.update_of_ne (Nat.ne_of_lt hdeeper), h.slot]
    · rw [hstack, Function.update_of_ne (Nat.ne_of_lt (Nat.lt_trans ha hdeeper)), h.below a ha]
  | popped hdepth hstack =>
    have hne := hd rfl
    refine ⟨by omega, ?_, fun a ha => ?_⟩
    · rw [hstack, h.slot]
    · rw [hstack, h.below a ha]
  | kept _ _ hdepth hstack =>
    refine ⟨by omega, ?_, fun a ha => ?_⟩
    · rw [hstack, h.slot]
    · rw [hstack, h.below a ha]

theorem Open.close (h : Open d p slots s) (hs : StackStep stride s t (some .ret)) (hd : t.depth = d) :
    t.pc = (p + stride) % 65536 ∧ ∀ a < d, t.stack a = slots a := by
  cases hs with
  | popped _ hstack hpc =>
    refine ⟨?_, fun a ha => ?_⟩
    · rw [hpc, hd, h.slot]
    · rw [hstack, h.below a ha]
  | kept _ hne => exact absurd rfl hne

end View

theorem Interpreter.StackEffect.stackStep {stride : Nat} {s t t' : View} {st : Step} (h : StackEffect s t st)
    (ht : t' = { t with pc := (t.pc + stride) % 65536 }) : View.StackStep stride s t' (some st) := by
  subst ht
  cases h with
  | pushed htop hsp hstack =>
    refine .pushed htop ?_ hstack
    simp only [View.depth, hsp]
    omega
  | popped htop hsp hstack hpc =>
    have hdepth : (t.sp + 1) % 256 = s.sp := by rw [hsp]; omega
    refine .popped ?_ hstack ?_
    · simp only [View.depth, hdepth]
      omega
    · simp only [View.depth, hdepth, hpc]
  | kept hcall hret hsp hstack =>
    refine .kept (by simpa using hcall) (by simpa using hret) ?_ hstack
    simp only [View.depth, hsp]

theorem World.depth_view (w : World) : w.view.depth = w.machine.depth := w.toNat_sp_add_one.symm

theorem World.view_stack_inj {w w' : World} {k : Nat} (hk : k < 16) (h : w.view.stack k = w'.view.stack k) :
    w.machine.stack[k]? = w'.machine.stack[k]? := by
  have hw' : w'.machine.stack[k]? = some w'.machine.stack[k] := Vector.getElem?_eq_getElem hk
  rw [hw']
  exact (view_stack_eq_iff hk _).1 (h.trans ((view_stack_eq_iff hk _).2 hw'))

namespace Session

variable {s : Session} {i j k : Nat}

/-- What the next step does to the flow of control, if it carries out an instruction. -/
def next? (s : Session) : Option Step :=
  match s.step.1 with
  | .ok (some d) => some d.step
  | _ => none

theorem step_of_next?_none (h : s.next? = none) : s.step.2 = s := by
  refine step_of_not_some fun d hd => ?_
  rw [next?, hd] at h
  cases h

theorem stackStep_step (s : Session) : View.StackStep s.stride s.world.view s.step.2.world.view s.next? := by
  cases hn : s.next? with
  | none =>
    rw [step_of_next?_none hn]
    exact .kept nofun nofun rfl rfl
  | some st =>
    rcases hr : s.step with ⟨f | _ | d, s'⟩ <;> rw [next?, hr] at hn <;> cases hn
    obtain ⟨t, he, hv⟩ := effect_of_step hr
    exact (Interpreter.stackEffect_of_effect he).stackStep hv

theorem stride_after (s : Session) (n : Nat) : (s.after n).stride = s.stride := by
  unfold stride
  rw [(kept_after s n).program]

theorem stackStep_after (s : Session) (n : Nat) :
    View.StackStep s.stride (s.after n).world.view (s.after (n + 1)).world.view (s.after n).next? := by
  rw [← stride_after s n]
  exact stackStep_step (s.after n)

/-- The `j`th step is the return that matches the call in the `i`th. -/
structure Brackets (s : Session) (i j : Nat) : Prop where
  call : (s.after i).next? = some .call
  later : i < j
  ret : (s.after j).next? = some .ret
  depth : (s.after (j + 1)).machine.depth = (s.after i).machine.depth
  first : ∀ k, i < k → k < j → (s.after k).next? = some .ret →
    (s.after (k + 1)).machine.depth ≠ (s.after i).machine.depth

theorem Brackets.open_after (h : s.Brackets i j) (hik : i < k) (hkj : k ≤ j) :
    View.Open (s.after i).world.view.depth (s.after i).world.view.pc (s.after i).world.view.stack
      (s.after k).world.view := by
  induction hik with
  | refl =>
    have hstep := stackStep_after s i
    rw [h.call] at hstep
    exact .of_call hstep
  | @step k hik ih =>
    refine (ih (Nat.le_of_succ_le hkj)).step (stackStep_after s k) fun hret => ?_
    rw [World.depth_view, World.depth_view]
    exact h.first k hik hkj hret

/-- After the return that matches a call, control goes on behind the call, at the depth that it had, and
what lay below on the stack was never touched. This holds from any stack pointer, since a call that has
no slot fails. -/
theorem call_bracketed (h : s.Brackets i j) :
    (s.after (j + 1)).machine.pc.toNat = ((s.after i).machine.pc.toNat + s.stride) % 65536 ∧
      (s.after (j + 1)).machine.sp = (s.after i).machine.sp ∧
      ∀ k, i ≤ k → k ≤ j + 1 → ∀ a < (s.after i).machine.depth,
        (s.after k).machine.stack[a]? = (s.after i).machine.stack[a]? := by
  have hcall := stackStep_after s i
  have hret := stackStep_after s j
  rw [h.call] at hcall
  rw [h.ret] at hret
  have hdepth : (s.after (j + 1)).world.view.depth = (s.after i).world.view.depth := by
    rw [World.depth_view, World.depth_view]
    exact h.depth
  obtain ⟨hpc, hbelow⟩ := (h.open_after h.later (Nat.le_refl j)).close hret hdepth
  refine ⟨hpc, ?_, fun k hik hkj a ha => ?_⟩
  · exact (UInt8.add_left_inj 1).1 (UInt8.toNat_inj.1 h.depth)
  · have hroom : (s.after i).world.view.depth < 16 := by
      cases hcall with
      | pushed hroom => exact hroom
      | kept hne => exact absurd rfl hne
    have ha' : a < (s.after i).world.view.depth := by
      rw [World.depth_view]
      exact ha
    refine World.view_stack_inj (Nat.lt_trans ha' hroom) ?_
    rcases Nat.eq_or_lt_of_le hik with rfl | hik
    · rfl
    · rcases Nat.eq_or_lt_of_le hkj with rfl | hkj
      · exact hbelow a ha'
      · exact (h.open_after hik (Nat.le_of_lt_succ hkj)).below a ha'

/-- Four calls, each in the subroutine of the one before, and the returns from them. -/
def nested : Session :=
  { bracketed with
    program := .listing #[0x2002, 0xFFFF, 0x2004, 0x00EE, 0x2006, 0x00EE, 0x2008, 0x00EE, 0x00EE] }

/-- The third of the calls returns behind itself, and the second keeps its slot meanwhile. -/
theorem call_bracketed_nested :
    nested.Brackets 2 5 ∧ (nested.after 2).machine.depth = 2 ∧ (nested.after 4).machine.depth = 4 ∧
      (nested.after 2).machine.pc.toNat = 4 ∧ (nested.after 6).machine.pc.toNat = 5 ∧
      (nested.after 6).machine.sp = (nested.after 2).machine.sp ∧
      ∀ k, 2 ≤ k → k ≤ 6 → (nested.after k).machine.stack[1]? = some 2 := by
  have hfirst : ∀ k, 2 < k → k < 5 → (nested.after k).next? = some .ret →
      (nested.after (k + 1)).machine.depth ≠ (nested.after 2).machine.depth := by
    intro k hk hk' hret
    obtain rfl | rfl : k = 3 ∨ k = 4 := by omega
    · have hcall : (nested.after 3).next? = some .call := rfl
      rw [hcall] at hret
      cases hret
    · decide
  have hbrackets : nested.Brackets 2 5 := ⟨rfl, by decide, rfl, rfl, hfirst⟩
  obtain ⟨hpc, hsp, hslots⟩ := call_bracketed hbrackets
  exact ⟨hbrackets, rfl, rfl, rfl, hpc, hsp, fun k hk hk' => hslots k hk hk' 1 (by decide)⟩

end Session
end Chip8
