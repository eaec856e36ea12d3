import Chip8.Decoder
import Chip8.Proofs.Overlap
import Mathlib

/-! Which definitions make an instruction set. Each is held against those before it as it is added; what
comes of that is a condition on pairs, in which the order of the definitions plays no part, and which leaves
every word with one reading at most. -/

namespace Chip8

/-- Templates fill four nibbles and operands fit their slots, so a template yields as many operands as it has
slots. -/
theorem Segment.length_operands (r : List Segment) (ds : List Nibble) :
    (operands r ds).length = (r.filterMap fun | .literal _ => none | .operand s => some s).length := by
  induction r generalizing ds with
  | nil => rfl
  | cons s r ih =>
    cases s with
    | literal d => exact ih _
    | operand s => exact congrArg (· + 1) (ih _)

theorem Template.length_operands (t : Template) (w : Word) : (t.operands w).length = t.slots.length :=
  Segment.length_operands t.segments w.nibbles

/-- Assembling fails only for the wrong number of operands. -/
theorem Opcode.exists_assemble? {op : Opcode} {operands : List Word} (h : operands.length = op.shape.length) :
    ∃ i, op.assemble? operands = some i := by
  cases op with
  | ret =>
    obtain rfl := List.length_eq_zero_iff.1 h
    exact ⟨_, rfl⟩
  | call | loadIndex | jumpOffset | addIndex | storeRegs | loadRegs =>
    obtain ⟨v, rfl⟩ := List.length_eq_one_iff.1 h
    exact ⟨_, rfl⟩
  | _ =>
    obtain ⟨v, v', rfl⟩ := List.length_eq_two.1 h
    exact ⟨_, rfl⟩

namespace Binding

/-- What a definition is compiled to. -/
structure Defines (definition : String × Opcode) (b : Binding) : Prop where
  template : Template.compile definition.1 = .ok b.template
  opcode : b.opcode = definition.2
  shape : b.template.slots = b.opcode.shape

/-- Two bindings that can stand in one instruction set. -/
structure Compatible (a b : Binding) : Prop where
  opcode : a.opcode ≠ b.opcode
  word : ∀ w, ¬(a.template.accepts w = true ∧ b.template.accepts w = true)

theorem Compatible.symm {a b : Binding} (h : Compatible a b) : Compatible b a :=
  ⟨h.opcode.symm, fun w hw => h.word w hw.symm⟩

instance : Std.Symm Compatible := ⟨fun _ _ => Compatible.symm⟩

theorem define_eq_ok_iff {definition : String × Opcode} {b : Binding} :
    define definition.1 definition.2 = .ok b ↔ Defines definition b := by
  obtain ⟨source, op⟩ := definition
  unfold define
  cases ht : Template.compile source with
  | error defect =>
    constructor
    · nofun
    · rintro ⟨htemplate, -, -⟩
      cases ht.symm.trans htemplate
  | ok t =>
    constructor
    · intro h
      simp only at h
      split at h <;> cases h
      exact ⟨ht, rfl, ‹_›⟩
    · obtain ⟨template, opcode⟩ := b
      rintro ⟨htemplate, rfl, hshape⟩
      cases ht.symm.trans htemplate
      exact if_pos hshape

theorem conflict?_eq_none_iff {a b : Binding} : a.conflict? b = none ↔ Compatible a b := by
  unfold conflict?
  split
  · next h =>
    constructor
    · nofun
    · exact fun hc => absurd h hc.opcode
  · next h =>
    rw [Option.map_eq_none_iff, Template.overlap?_eq_none_iff]
    exact ⟨fun hw => ⟨h, hw⟩, fun hc => hc.word⟩

end Binding

namespace Decoder

open Binding

theorem add_of_define {d : Decoder} {definition : String × Opcode} {b : Binding}
    (h : Binding.define definition.1 definition.2 = .ok b) :
    d.add definition = match d.bindings.findSome? (·.conflict? b) with
      | some failure => .error failure
      | none => .ok ⟨d.bindings ++ [b]⟩ := by
  rw [add, h]
  rfl

theorem add_eq_ok_iff {d d' : Decoder} {definition : String × Opcode} :
    d.add definition = .ok d' ↔
      ∃ b, Defines definition b ∧ (∀ a ∈ d.bindings, Compatible a b) ∧ d' = ⟨d.bindings ++ [b]⟩ := by
  cases hb : Binding.define definition.1 definition.2 with
  | error f =>
    constructor
    · intro h
      rw [add, hb] at h
      cases h
    · rintro ⟨b, hdef, -⟩
      cases hb.symm.trans (define_eq_ok_iff.2 hdef)
  | ok b =>
    rw [add_of_define hb]
    constructor
    · intro h
      split at h
      · cases h
      · next hnone =>
        cases h
        have hcompatible : ∀ a ∈ d.bindings, Compatible a b := fun a ha =>
          conflict?_eq_none_iff.1 (List.findSome?_eq_none_iff.1 hnone a ha)
        exact ⟨b, define_eq_ok_iff.1 hb, hcompatible, rfl⟩
    · rintro ⟨b', hdef, hcompatible, rfl⟩
      cases hb.symm.trans (define_eq_ok_iff.2 hdef)
      rw [List.findSome?_eq_none_iff.2 fun a ha => conflict?_eq_none_iff.2 (hcompatible a ha)]

theorem foldlM_add_eq_ok_iff {definitions : List (String × Opcode)} {d d' : Decoder}
    (hd : d.bindings.Pairwise Compatible) :
    definitions.foldlM add d = .ok d' ↔ ∃ bs, List.Forall₂ Defines definitions bs ∧
      (d.bindings ++ bs).Pairwise Compatible ∧ d' = ⟨d.bindings ++ bs⟩ := by
  induction definitions generalizing d with
  | nil =>
    constructor
    · intro h
      cases h
      exact ⟨[], .nil, by rwa [List.append_nil], by rw [List.append_nil]⟩
    · rintro ⟨bs, hbs, -, rfl⟩
      cases hbs
      rw [List.append_nil]
      rfl
  | cons definition definitions ih =>
    rw [List.foldlM_cons]
    constructor
    · intro h
      cases hadd : d.add definition with
      | error f => rw [hadd] at h; cases h
      | ok d₁ =>
        rw [hadd] at h
        obtain ⟨b, hdef, hcompatible, rfl⟩ := add_eq_ok_iff.1 hadd
        have hd₁ : (d.bindings ++ [b]).Pairwise Compatible :=
          List.pairwise_append.2 ⟨hd, List.pairwise_singleton _ _, by simpa using hcompatible⟩
        obtain ⟨bs, hbs, hpairwise, rfl⟩ := (ih hd₁).1 h
        exact ⟨b :: bs, .cons hdef hbs, by simpa using hpairwise, by simp⟩
    · rintro ⟨bs, hbs, hpairwise, rfl⟩
      cases hbs with
      | @cons _ b _ bs hdef hbs =>
        have hsplit : d.bindings ++ b :: bs = (d.bindings ++ [b]) ++ bs := by simp
        rw [hsplit] at hpairwise
        have hd₁ := (List.pairwise_append.1 hpairwise).1
        have hcompatible : ∀ a ∈ d.bindings, Compatible a b := fun a ha =>
          (List.pairwise_append.1 hd₁).2.2 a ha b (List.mem_singleton_self b)
        rw [add_eq_ok_iff.2 ⟨b, hdef, hcompatible, rfl⟩]
        exact (ih hd₁).2 ⟨bs, hbs, hpairwise, congrArg Decoder.mk hsplit⟩

/-- The check against earlier definitions comes to one condition on all pairs. -/
theorem ofDefinitions_eq_ok_iff {definitions : List (String × Opcode)} {d : Decoder} :
    ofDefinitions definitions = .ok d ↔
      List.Forall₂ Defines definitions d.bindings ∧ d.bindings.Pairwise Compatible := by
  rw [ofDefinitions, foldlM_add_eq_ok_iff (show ([] : List Binding).Pairwise Compatible from .nil)]
  constructor
  · rintro ⟨bs, hbs, hpairwise, rfl⟩
    exact ⟨hbs, hpairwise⟩
  · rintro ⟨hbs, hpairwise⟩
    exact ⟨d.bindings, hbs, hpairwise, rfl⟩

/-- Definitions none of which contradicts itself or another one. -/
structure Unambiguous (definitions : List (String × Opcode)) : Prop where
  compiles : ∀ p ∈ definitions, ∃ t, Template.compile p.1 = .ok t ∧
    t.slots.map Slot.width = p.2.shape.map Slot.width
  opcodes : (definitions.map Prod.snd).Nodup
  words : definitions.Pairwise fun p q => ∀ t u, Template.compile p.1 = .ok t → Template.compile q.1 = .ok u →
    ∀ w, ¬(t.accepts w = true ∧ u.accepts w = true)

theorem width_injective : Function.Injective Slot.width := by
  intro s s' h
  cases s <;> cases s' <;> first | rfl | cases h

section Related

variable {α β : Type} {r : α → β → Prop} {xs : List α} {ys : List β}

theorem exists_of_forall₂ {x : α} (h : List.Forall₂ r xs ys) (hx : x ∈ xs) : ∃ y ∈ ys, r x y := by
  induction h with
  | nil => cases hx
  | cons hxy _ ih =>
    rcases List.mem_cons.1 hx with rfl | hx
    · exact ⟨_, List.mem_cons_self, hxy⟩
    · obtain ⟨y, hy, hr⟩ := ih hx
      exact ⟨y, List.mem_cons_of_mem _ hy, hr⟩

theorem exists_forall₂ (h : ∀ x ∈ xs, ∃ y, r x y) : ∃ ys, List.Forall₂ r xs ys := by
  induction xs with
  | nil => exact ⟨[], .nil⟩
  | cons x xs ih =>
    obtain ⟨y, hy⟩ := h x List.mem_cons_self
    obtain ⟨ys, hys⟩ := ih fun x' hx' => h x' (List.mem_cons_of_mem _ hx')
    exact ⟨y :: ys, .cons hy hys⟩

/-- A condition on pairs goes from one list to another that it is related to. -/
theorem pairwise_of_forall₂ {p : α → α → Prop} {q : β → β → Prop} (h : List.Forall₂ r xs ys) (hq : ys.Pairwise q)
    (hpq : ∀ x y x' y', r x y → r x' y' → q y y' → p x x') : xs.Pairwise p := by
  induction h with
  | nil => exact .nil
  | @cons x y xs ys hxy hxys ih =>
    obtain ⟨hy, hys⟩ := List.pairwise_cons.1 hq
    refine List.pairwise_cons.2 ⟨fun x' hx' => ?_, ih hys⟩
    obtain ⟨y', hy', hxy'⟩ := exists_of_forall₂ hxys hx'
    exact hpq x y x' y' hxy hxy' (hy y' hy')

end Related

theorem unambiguous_of_ofDefinitions {definitions : List (String × Opcode)} {d : Decoder}
    (h : ofDefinitions definitions = .ok d) : Unambiguous definitions := by
  obtain ⟨hdef, hpairwise⟩ := ofDefinitions_eq_ok_iff.1 h
  refine ⟨fun p hp => ?_, ?_, ?_⟩
  · obtain ⟨b, -, hb⟩ := exists_of_forall₂ hdef hp
    refine ⟨b.template, hb.template, ?_⟩
    rw [hb.shape, hb.opcode]
  · rw [List.Nodup, List.pairwise_map]
    refine pairwise_of_forall₂ hdef hpairwise fun p b q c hp hq hbc => ?_
    rw [← hp.opcode, ← hq.opcode]
    exact hbc.opcode
  · refine pairwise_of_forall₂ hdef hpairwise fun p b q c hp hq hbc t u ht hu w => ?_
    cases hp.template.symm.trans ht
    cases hq.template.symm.trans hu
    exact hbc.word w

theorem ofDefinitions_of_unambiguous {definitions : List (String × Opcode)} (h : Unambiguous definitions) :
    ∃ d, ofDefinitions definitions = .ok d := by
  have hdefines : ∀ p ∈ definitions, ∃ b, Defines p b := by
    intro p hp
    obtain ⟨t, ht, hwidths⟩ := h.compiles p hp
    exact ⟨⟨t, p.2⟩, ht, rfl, List.map_injective_iff.2 width_injective hwidths⟩
  obtain ⟨bs, hbs⟩ := exists_forall₂ hdefines
  have hpairs := (List.pairwise_map.1 h.opcodes).and h.words
  refine ⟨⟨bs⟩, ofDefinitions_eq_ok_iff.2 ⟨hbs, ?_⟩⟩
  refine pairwise_of_forall₂ hbs.flip hpairs fun b p c q hp hq hpq => ⟨?_, fun w => ?_⟩
  · rw [hp.opcode, hq.opcode]
    exact hpq.1
  · exact hpq.2 _ _ hp.template hq.template w

section Reading

variable {d : Decoder} {w : Word}

theorem accepts_of_lookup? {b : Binding} (h : d.lookup? w = some b) :
    b ∈ d.bindings ∧ b.template.accepts w = true := by
  unfold lookup? at h
  exact ⟨List.mem_of_find?_eq_some h, by simpa using List.find?_some h⟩

/-- What accepts a word is found, wherever it stands. -/
theorem lookup?_eq_some_iff (h : d.bindings.Pairwise Compatible) {b : Binding} :
    d.lookup? w = some b ↔ b ∈ d.bindings ∧ b.template.accepts w = true := by
  refine ⟨accepts_of_lookup?, fun ⟨hb, hw⟩ => ?_⟩
  cases hc : d.lookup? w with
  | none => exact absurd hw (List.find?_eq_none.1 hc b hb)
  | some c =>
    obtain ⟨hcmem, hcw⟩ := accepts_of_lookup? hc
    by_cases hcb : c = b
    · rw [hcb]
    · exact absurd ⟨hcw, hw⟩ ((h.forall hcmem hb hcb).word w)

theorem length_filter_le (h : d.bindings.Pairwise Compatible) (w : Word) :
    (d.bindings.filter fun b => b.template.accepts w).length ≤ 1 := by
  have hpairwise := h.filter fun b => b.template.accepts w
  have haccepts : ∀ b ∈ d.bindings.filter fun b => b.template.accepts w, b.template.accepts w = true :=
    fun b hb => (List.mem_filter.1 hb).2
  generalize d.bindings.filter (fun b => b.template.accepts w) = bs at hpairwise haccepts ⊢
  match bs with
  | [] => exact Nat.zero_le 1
  | [_] => exact Nat.le_refl 1
  | b :: c :: _ =>
    have hbc : Compatible b c := (List.pairwise_cons.1 hpairwise).1 c List.mem_cons_self
    exact absurd ⟨haccepts b (by simp), haccepts c (by simp)⟩ (hbc.word w)

theorem decode_of_accepts (h : d.bindings.Pairwise Compatible) {b : Binding} (hb : b ∈ d.bindings)
    (hshape : b.template.slots = b.opcode.shape) (hw : b.template.accepts w = true) :
    ∃ i, b.opcode.assemble? (b.template.operands w) = some i ∧ d.decode w = .ok i := by
  have hlength : (b.template.operands w).length = b.opcode.shape.length := by
    rw [b.template.length_operands, hshape]
  obtain ⟨i, hi⟩ := Opcode.exists_assemble? hlength
  refine ⟨i, hi, decode_eq_ok_iff.2 ?_⟩
  rw [operands?, (lookup?_eq_some_iff h).2 ⟨hb, hw⟩]
  exact hi

theorem decode_of_not_accepts (h : ∀ b ∈ d.bindings, b.template.accepts w = false) :
    d.decode w = .error (.unknownInstruction w) := by
  have hnone : d.lookup? w = none := List.find?_eq_none.2 fun b hb => by simp [h b hb]
  rw [decode, operands?, hnone]
  rfl

theorem decode_of_perm {d' : Decoder} (h : d.bindings.Pairwise Compatible) (hperm : d'.bindings.Perm d.bindings)
    (w : Word) : d'.decode w = d.decode w := by
  have h' : d'.bindings.Pairwise Compatible := (hperm.pairwise_iff Compatible.symm).2 h
  have hlookup : d'.lookup? w = d.lookup? w := by
    apply Option.ext
    intro b
    rw [lookup?_eq_some_iff h', lookup?_eq_some_iff h, hperm.mem_iff]
  rw [decode, operands?, hlookup]
  rfl

end Reading

/-- What a decoder made from definitions does: each of them has its binding, no word has two, and every word
that has one is read. -/
structure ReadsOnce (definitions : List (String × Opcode)) (d : Decoder) : Prop where
  bindings : List.Forall₂ Defines definitions d.bindings
  once : ∀ w, (d.bindings.filter fun b => b.template.accepts w).length ≤ 1
  unknown : ∀ w, d.decode w = .error (.unknownInstruction w) ↔ ∀ b ∈ d.bindings, b.template.accepts w = false
  known : ∀ b ∈ d.bindings, ∀ w, b.template.accepts w = true →
    ∃ i, b.opcode.assemble? (b.template.operands w) = some i ∧ d.decode w = .ok i

theorem readsOnce_of_ofDefinitions {definitions : List (String × Opcode)} {d : Decoder}
    (h : ofDefinitions definitions = .ok d) : ReadsOnce definitions d := by
  obtain ⟨hdef, hpairwise⟩ := ofDefinitions_eq_ok_iff.1 h
  have hknown : ∀ b ∈ d.bindings, ∀ w, b.template.accepts w = true →
      ∃ i, b.opcode.assemble? (b.template.operands w) = some i ∧ d.decode w = .ok i := by
    intro b hb w hw
    obtain ⟨p, -, hp⟩ := exists_of_forall₂ hdef.flip hb
    exact decode_of_accepts hpairwise hb hp.shape hw
  refine ⟨hdef, length_filter_le hpairwise, fun w => ⟨fun hunknown b hb => ?_, decode_of_not_accepts⟩, hknown⟩
  by_contra hw
  obtain ⟨i, -, hi⟩ := hknown b hb w (by simpa using hw)
  cases hunknown.symm.trans hi

/-- Definitions are accepted just if they are unambiguous. Their order then makes no difference, and each word
has one reading or none. -/
theorem ofDefinitions_unambiguous (definitions : List (String × Opcode)) :
    ((∃ d, ofDefinitions definitions = .ok d) ↔ Unambiguous definitions) ∧
      ∀ d, ofDefinitions definitions = .ok d → ReadsOnce definitions d ∧
        ∀ definitions', definitions'.Perm definitions →
          ∃ d', ofDefinitions definitions' = .ok d' ∧ ∀ w, d'.decode w = d.decode w := by
  refine ⟨⟨fun ⟨d, h⟩ => unambiguous_of_ofDefinitions h, ofDefinitions_of_unambiguous⟩, fun d h => ?_⟩
  refine ⟨readsOnce_of_ofDefinitions h, fun definitions' hperm => ?_⟩
  obtain ⟨hdef, hpairwise⟩ := ofDefinitions_eq_ok_iff.1 h
  obtain ⟨bs, hbs, hperm'⟩ := List.perm_comp_forall₂ hperm hdef
  have hpairwise' : bs.Pairwise Compatible := (hperm'.pairwise_iff Compatible.symm).2 hpairwise
  exact ⟨⟨bs⟩, ofDefinitions_eq_ok_iff.2 ⟨hbs, hpairwise'⟩, decode_of_perm hpairwise hperm'⟩

/-- A set with two operations, of which one is moved from its usual place. -/
theorem ofDefinitions_unambiguous_moved :
    ∃ d d', ofDefinitions [("1nnn", .call), ("00EE", .ret)] = .ok d ∧
      ReadsOnce [("1nnn", .call), ("00EE", .ret)] d ∧
      ofDefinitions [("00EE", .ret), ("1nnn", .call)] = .ok d' ∧ ∀ w, d'.decode w = d.decode w := by
  let d : Decoder := ⟨[⟨⟨"1nnn", [.literal 0x1, .operand .address], rfl⟩, .call⟩,
    ⟨⟨"00EE", [.literal 0x0, .literal 0x0, .literal 0xE, .literal 0xE], rfl⟩, .ret⟩]⟩
  have hd : ofDefinitions [("1nnn", .call), ("00EE", .ret)] = .ok d := by cbv
  obtain ⟨hreads, hperm⟩ := (ofDefinitions_unambiguous _).2 d hd
  obtain ⟨d', hd', hdecode⟩ := hperm [("00EE", .ret), ("1nnn", .call)] (.swap _ _ _)
  exact ⟨d, d', hd, hreads, hd', hdecode⟩

end Decoder
end Chip8
