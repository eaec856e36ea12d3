import Chip8.Proofs.Reassembly
import Mathlib

/-! Where templates meet. The overlap of two templates is the least word that both accept, and the masks tell it by one
comparison. An instruction set is refused for it where a definition first meets a binding before it with which it
cannot stand. -/

namespace Chip8

theorem Nibble.number_le_number {ds es : List Nibble} (h : List.Forall₂ (· ≤ ·) ds es) : number ds ≤ number es := by
  induction h with
  | nil => exact Nat.le_refl _
  | cons hd htail ih =>
    rw [number, number, htail.length_eq]
    exact Nat.add_le_add (Nat.mul_le_mul_left _ hd) ih

namespace Template

/-- The least of the words that both templates accept. -/
structure LeastCommon (t u : Template) (w : Word) : Prop where
  left : t.accepts w = true
  right : u.accepts w = true
  least : ∀ v, t.accepts v = true → u.accepts v = true → w ≤ v

theorem LeastCommon.symm {t u : Template} {w : Word} (h : t.LeastCommon u w) : u.LeastCommon t w :=
  ⟨h.right, h.left, fun v hu ht => h.least v ht hu⟩

theorem LeastCommon.unique {t u : Template} {v w : Word} (hv : t.LeastCommon u v) (hw : t.LeastCommon u w) : v = w :=
  UInt16.le_antisymm (hv.least w hw.left hw.right) (hw.least v hv.left hv.right)

theorem le_of_meet {p q : Option Nibble} {d e : Nibble} (h : meet p q = some d) (hp : Allows p e) (hq : Allows q e) :
    d ≤ e := by
  have hd : p = some d ∨ q = some d ∨ d = 0 := by cases p <;> cases q <;> simp_all [meet]
  obtain rfl | rfl | rfl := hd
  · exact le_of_eq (hp d rfl)
  · exact le_of_eq (hq d rfl)
  · exact Fin.zero_le e

/-- Place by place, what two patterns have in common is no more than any row of nibbles that both allow. -/
theorem forall₂_le_of_mapM_meet {ps qs : List (Option Nibble)} {ds es : List Nibble}
    (h : (ps.zip qs).mapM (fun (p, q) => meet p q) = some ds) (hp : List.Forall₂ Allows ps es)
    (hq : List.Forall₂ Allows qs es) : List.Forall₂ (· ≤ ·) ds es := by
  induction hp generalizing qs ds with
  | nil =>
    cases hq
    cases h
    exact .nil
  | cons hp _ ih =>
    obtain _ | ⟨hq, hqs⟩ := hq
    simp only [List.zip_cons_cons, List.mapM_cons, Option.bind_eq_bind, Option.bind_eq_some_iff, Option.pure_def,
      Option.some.injEq] at h
    obtain ⟨d, hd, ds, hds, rfl⟩ := h
    exact .cons (le_of_meet hd hp hq) (ih hds hqs)

theorem leastCommon_of_overlap? {t u : Template} {w : Word} (h : t.overlap? u = some w) : t.LeastCommon u w := by
  obtain ⟨ht, hu⟩ := accepts_of_overlap? h
  refine ⟨ht, hu, fun v htv huv => ?_⟩
  obtain ⟨ds, hds, rfl⟩ := Option.map_eq_some_iff.1 h
  have hle := forall₂_le_of_mapM_meet hds (accepts_iff.1 htv) (accepts_iff.1 huv)
  have hlength : ds.length ≤ 4 := Nat.le_of_eq (hle.length_eq.trans v.length_nibbles)
  rw [UInt16.le_iff_toNat_le, Word.toNat_ofNibbles hlength, ← v.number_nibbles]
  exact Nibble.number_le_number hle

theorem overlap?_eq_some_iff {t u : Template} {w : Word} : t.overlap? u = some w ↔ t.LeastCommon u w := by
  refine ⟨leastCommon_of_overlap?, fun h => ?_⟩
  cases hw : t.overlap? u with
  | none => exact absurd ⟨h.left, h.right⟩ (overlap?_eq_none_iff.1 hw w)
  | some v => rw [(leastCommon_of_overlap? hw).unique h]

theorem overlap?_comm (t u : Template) : t.overlap? u = u.overlap? t := by
  apply Option.ext
  intro w
  rw [overlap?_eq_some_iff, overlap?_eq_some_iff]
  exact ⟨LeastCommon.symm, LeastCommon.symm⟩

/-! ### Overlaps through masks -/

section Bits

variable {m m' v v' w : Word}

theorem or_and_eq (hv : v &&& m = v) (hv' : v' &&& m' = v') (h : (v ^^^ v') &&& (m &&& m') = 0) :
    (v ||| v') &&& m = v := by
  simp only [← UInt16.toNat_inj, UInt16.toNat_and, UInt16.toNat_or, UInt16.toNat_xor, UInt16.toNat_zero] at *
  apply Nat.eq_of_testBit_eq
  intro j
  have hvj := congrArg (Nat.testBit · j) hv
  have hvj' := congrArg (Nat.testBit · j) hv'
  have hj := congrArg (Nat.testBit · j) h
  simp only [Nat.testBit_and, Nat.testBit_or, Nat.testBit_xor, Nat.zero_testBit] at *
  grind

theorem xor_and_eq_zero (hv : w &&& m = v) (hv' : w &&& m' = v') : (v ^^^ v') &&& (m &&& m') = 0 := by
  subst hv hv'
  simp only [← UInt16.toNat_inj, UInt16.toNat_and, UInt16.toNat_xor, UInt16.toNat_zero]
  apply Nat.eq_of_testBit_eq
  intro j
  simp only [Nat.testBit_and, Nat.testBit_xor, Nat.zero_testBit]
  grind

theorem or_le (hv : w &&& m = v) (hv' : w &&& m' = v') : v ||| v' ≤ w := by
  subst hv hv'
  rw [UInt16.le_iff_toNat_le, UInt16.toNat_or, UInt16.toNat_and, UInt16.toNat_and, ← Nat.and_or_distrib_left]
  exact Nat.and_le_left

end Bits

/-- Templates overlap if their values agree under both masks, and then where either of them has a one. -/
theorem overlap?_eq_masks (t u : Template) :
    t.overlap? u =
      if (t.value ^^^ u.value) &&& (t.mask &&& u.mask) = 0 then some (t.value ||| u.value) else none := by
  split
  · next h =>
    have h' : (u.value ^^^ t.value) &&& (u.mask &&& t.mask) = 0 := by
      rwa [UInt16.xor_comm, UInt16.and_comm u.mask]
    refine overlap?_eq_some_iff.2 ⟨?_, ?_, fun w ht hu => ?_⟩
    · exact accepts_iff_mask.2 (or_and_eq t.value_and_mask u.value_and_mask h)
    · rw [UInt16.or_comm]
      exact accepts_iff_mask.2 (or_and_eq u.value_and_mask t.value_and_mask h')
    · exact or_le (accepts_iff_mask.1 ht) (accepts_iff_mask.1 hu)
  · next h =>
    refine overlap?_eq_none_iff.2 fun w hw => h ?_
    exact xor_and_eq_zero (accepts_iff_mask.1 hw.1) (accepts_iff_mask.1 hw.2)

end Template

namespace Binding

theorem conflict?_eq_templateCollision_iff {a b : Binding} {first second : String} {common : Word} :
    a.conflict? b = some (.templateCollision first second common) ↔
      a.opcode ≠ b.opcode ∧ a.template.source = first ∧ b.template.source = second ∧
        a.template.LeastCommon b.template common := by
  unfold conflict?
  split
  · next h => simp [h]
  · next h =>
    simp only [Option.map_eq_some_iff, Failure.templateCollision.injEq, Template.overlap?_eq_some_iff]
    constructor
    · rintro ⟨w, hw, hfirst, hsecond, rfl⟩
      exact ⟨h, hfirst, hsecond, hw⟩
    · rintro ⟨-, hfirst, hsecond, hw⟩
      exact ⟨common, hw, hfirst, hsecond, rfl⟩

end Binding

namespace Decoder

open Binding

/-- The first of a row of bindings that `b` cannot stand beside is `a`, whose operation is another but whose template
shares words with that of `b`. -/
structure Collides (bindings : List Binding) (a b : Binding) (common : Word) : Prop where
  first : ∃ before after, bindings = before ++ a :: after ∧ ∀ c ∈ before, Compatible c b
  opcode : a.opcode ≠ b.opcode
  common : a.template.LeastCommon b.template common

theorem findSome?_conflict?_eq_templateCollision_iff {bindings : List Binding} {b : Binding} {first second : String}
    {common : Word} :
    bindings.findSome? (·.conflict? b) = some (.templateCollision first second common) ↔
      b.template.source = second ∧ ∃ a, a.template.source = first ∧ Collides bindings a b common := by
  simp only [List.findSome?_eq_some_iff, conflict?_eq_templateCollision_iff, conflict?_eq_none_iff]
  constructor
  · rintro ⟨before, a, after, hsplit, ⟨hopcode, hfirst, hsecond, hcommon⟩, hbefore⟩
    exact ⟨hsecond, a, hfirst, ⟨before, after, hsplit, hbefore⟩, hopcode, hcommon⟩
  · rintro ⟨hsecond, a, hfirst, ⟨before, after, hsplit, hbefore⟩, hopcode, hcommon⟩
    exact ⟨before, a, after, hsplit, ⟨hopcode, hfirst, hsecond, hcommon⟩, hbefore⟩

theorem add_eq_templateCollision_iff {d : Decoder} {definition : String × Opcode} {first second : String}
    {common : Word} :
    d.add definition = .error (.templateCollision first second common) ↔
      definition.1 = second ∧ ∃ a b, Defines definition b ∧ a.template.source = first ∧
        Collides d.bindings a b common := by
  cases hb : Binding.define definition.1 definition.2 with
  | error f =>
    constructor
    · intro h
      rw [add, hb] at h
      cases h
      -- a definition is refused by itself for its text or its operands only
      unfold Binding.define at hb
      split at hb
      · cases hb
      · split at hb <;> cases hb
    · rintro ⟨-, a, b, hdef, -⟩
      cases hb.symm.trans (define_eq_ok_iff.2 hdef)
  | ok b =>
    have hdef := define_eq_ok_iff.1 hb
    have hsource : b.template.source = definition.1 := (Template.compile_eq_ok_iff.1 hdef.template).1
    have hadd : d.add definition = .error (.templateCollision first second common) ↔
        d.bindings.findSome? (·.conflict? b) = some (.templateCollision first second common) := by
      rw [add_of_define hb]
      cases d.bindings.findSome? (·.conflict? b) <;> simp
    rw [hadd, findSome?_conflict?_eq_templateCollision_iff, hsource]
    refine and_congr_right fun _ => ?_
    constructor
    · rintro ⟨a, hfirst, hcollides⟩
      exact ⟨a, b, hdef, hfirst, hcollides⟩
    · rintro ⟨a, b', hdef', hfirst, hcollides⟩
      cases hb.symm.trans (define_eq_ok_iff.2 hdef')
      exact ⟨a, hfirst, hcollides⟩

/-- The first element that is refused is refused by what those before it have come to. -/
theorem foldlM_eq_error_iff {α β ε : Type} {f : β → α → Except ε β} {xs : List α} {b : β} {e : ε} :
    xs.foldlM f b = .error e ↔
      ∃ before x after c, xs = before ++ x :: after ∧ before.foldlM f b = .ok c ∧ f c x = .error e := by
  constructor
  · intro h
    induction xs generalizing b with
    | nil => cases h
    | cons x xs ih =>
      rw [List.foldlM_cons] at h
      cases hx : f b x with
      | error e' =>
        rw [hx] at h
        cases h
        exact ⟨[], x, xs, b, rfl, rfl, hx⟩
      | ok b' =>
        rw [hx] at h
        obtain ⟨before, y, after, c, rfl, hbefore, hy⟩ := ih h
        refine ⟨x :: before, y, after, c, rfl, ?_, hy⟩
        rw [List.foldlM_cons, hx]
        exact hbefore
  · rintro ⟨before, x, after, c, rfl, hbefore, hx⟩
    rw [List.foldlM_append, hbefore]
    change List.foldlM f c (x :: after) = .error e
    rw [List.foldlM_cons, hx]
    rfl

theorem ofDefinitions_eq_error_iff {definitions : List (String × Opcode)} {failure : Failure} :
    ofDefinitions definitions = .error failure ↔
      ∃ before definition after d, definitions = before ++ definition :: after ∧ ofDefinitions before = .ok d ∧
        d.add definition = .error failure :=
  foldlM_eq_error_iff

/-- Two templates overlap in the least word that both accept, if there is one, and either way round. A collision is
reported with that word, for the first definition that the set would not take, and for the first of the bindings before
it that conflicts with it. -/
theorem collision_reported :
    (∀ t u : Template, (t.overlap? u = none ↔ ∀ w, ¬(t.accepts w = true ∧ u.accepts w = true)) ∧
      (∀ w, t.overlap? u = some w ↔ t.LeastCommon u w) ∧ t.overlap? u = u.overlap? t ∧
      t.overlap? u =
        if (t.value ^^^ u.value) &&& (t.mask &&& u.mask) = 0 then some (t.value ||| u.value) else none) ∧
    ∀ definitions first second common,
      ofDefinitions definitions = .error (.templateCollision first second common) ↔
        ∃ before op after d a b, definitions = before ++ (second, op) :: after ∧ ofDefinitions before = .ok d ∧
          Defines (second, op) b ∧ a.template.source = first ∧ Collides d.bindings a b common := by
  refine ⟨fun t u => ⟨t.overlap?_eq_none_iff, fun w => t.overlap?_eq_some_iff, t.overlap?_comm u,
    t.overlap?_eq_masks u⟩, fun definitions first second common => ?_⟩
  simp only [ofDefinitions_eq_error_iff, add_eq_templateCollision_iff]
  constructor
  · rintro ⟨before, ⟨source, op⟩, after, d, hsplit, hbefore, rfl, a, b, hdef, hfirst, hcollides⟩
    exact ⟨before, op, after, d, a, b, hsplit, hbefore, hdef, hfirst, hcollides⟩
  · rintro ⟨before, op, after, d, a, b, hsplit, hbefore, hdef, hfirst, hcollides⟩
    exact ⟨before, (second, op), after, d, hsplit, hbefore, rfl, a, b, hdef, hfirst, hcollides⟩

example : ofDefinitions [("00EE", .ret), ("Fx55", .storeRegs), ("Fnnn", .loadIndex), ("8", .move)] =
    .error (.templateCollision "Fx55" "Fnnn" 0xF055) := by cbv

end Decoder
end Chip8
