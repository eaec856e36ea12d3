import Chip8.Proofs.Overlap
import Mathlib.Algebra.Group.Nat.Defs

/-! Templates as masks. What is gathered from the segments of a template is a row of digits for the mask, another
for the value, and a field for each operand. So a word fits if its bits under the mask have that value, and matching
takes one `and` and one comparison, as reading an operand takes a shift and an `and`. -/

namespace Chip8

/-- The number that a row of nibbles writes. -/
def Nibble.number : List Nibble → Nat
  | [] => 0
  | d :: r => 2 ^ (4 * r.length) * d.val + number r

namespace Nibble

theorem number_lt (ds : List Nibble) : number ds < 2 ^ (4 * ds.length) := by
  induction ds with
  | nil => exact Nat.one_pos
  | cons d r ih =>
    have hd := d.isLt
    have hpow : 2 ^ (4 * (r.length + 1)) = 2 ^ (4 * r.length) * 16 := by rw [Nat.mul_succ, Nat.pow_add]
    rw [List.length_cons, hpow, number]
    have hle : 2 ^ (4 * r.length) * (d.val + 1) ≤ 2 ^ (4 * r.length) * 16 := Nat.mul_le_mul_left _ hd
    rw [Nat.mul_succ] at hle
    omega

theorem number_append (ds es : List Nibble) : number (ds ++ es) = 2 ^ (4 * es.length) * number ds + number es := by
  induction ds with
  | nil => rw [List.nil_append, number, Nat.mul_zero, Nat.zero_add]
  | cons d r ih =>
    rw [List.cons_append, number, ih, List.length_append, Nat.mul_add, Nat.add_comm (4 * r.length), Nat.pow_add,
      number, Nat.mul_add, Nat.mul_assoc, Nat.add_assoc]

theorem foldl_eq (n : Nat) (ds : List Nibble) :
    ds.foldl (fun n d => 16 * n + d.val) n = 2 ^ (4 * ds.length) * n + number ds := by
  induction ds generalizing n with
  | nil => simp [number]
  | cons d r ih =>
    rw [List.foldl_cons, ih, number, List.length_cons, Nat.mul_succ, Nat.pow_add, Nat.mul_add, Nat.mul_assoc,
      Nat.add_assoc]

theorem number_replicate_zero (n : Nat) : number (List.replicate n 0) = 0 := by
  induction n with
  | zero => rfl
  | succ n ih => rw [List.replicate_succ, number, ih]; rfl

end Nibble

theorem Word.toNat_ofNibbles {ds : List Nibble} (h : ds.length ≤ 4) : (ofNibbles ds).toNat = Nibble.number ds := by
  have hlt : Nibble.number ds < 65536 :=
    Nat.lt_of_lt_of_le (Nibble.number_lt ds) (Nat.pow_le_pow_right (by decide) (show 4 * ds.length ≤ 16 by omega))
  rw [ofNibbles, Nibble.foldl_eq, Nat.mul_zero, Nat.zero_add, UInt16.toNat_ofNat', Nat.mod_eq_of_lt hlt]

/-- A digit in front of a row is shifted past it. -/
theorem Word.ofNibbles_cons (d : Nibble) {r : List Nibble} (h : r.length ≤ 3) :
    ofNibbles (d :: r) = UInt16.ofNat d.val <<< UInt16.ofNat (4 * r.length) ||| ofNibbles r := by
  have hd := d.isLt
  have hcons : (d :: r).length ≤ 4 := Nat.succ_le_succ h
  have hshift : (UInt16.ofNat (4 * r.length)).toNat % 16 = 4 * r.length := by
    rw [UInt16.toNat_ofNat']
    omega
  have hfit : d.val <<< (4 * r.length) < 2 ^ 16 := by
    rw [Nat.shiftLeft_eq]
    calc d.val * 2 ^ (4 * r.length) < 16 * 2 ^ (4 * r.length) := Nat.mul_lt_mul_of_pos_right hd (Nat.two_pow_pos _)
      _ ≤ 16 * 2 ^ 12 := Nat.mul_le_mul_left _ (Nat.pow_le_pow_right (by decide) (by omega))
  apply UInt16.toNat_inj.1
  rw [toNat_ofNibbles hcons, UInt16.toNat_or, UInt16.toNat_shiftLeft, hshift, UInt16.toNat_ofNat',
    Nat.mod_eq_of_lt (show d.val < 2 ^ 16 by omega), Nat.mod_eq_of_lt hfit, toNat_ofNibbles (by omega), Nibble.number,
    Nat.two_pow_add_eq_or_of_lt (Nibble.number_lt r), Nat.shiftLeft_eq, Nat.mul_comm]

/-- Zeros in front of a row do not count. -/
theorem Word.ofNibbles_replicate_append (n : Nat) {r : List Nibble} (h : n + r.length ≤ 4) :
    ofNibbles (List.replicate n 0 ++ r) = ofNibbles r := by
  apply UInt16.toNat_inj.1
  rw [toNat_ofNibbles (by simpa using h), toNat_ofNibbles (by omega), Nibble.number_append,
    Nibble.number_replicate_zero, Nat.mul_zero, Nat.zero_add]

theorem Word.number_nibbles (w : Word) : Nibble.number w.nibbles = w.toNat := by
  rw [← toNat_ofNibbles (Nat.le_of_eq w.length_nibbles), ofNibbles_nibbles]

/-- The bits of two numbers that are cut at the same place meet on either side of the cut. -/
theorem and_two_pow_mul_add {k a b c d : Nat} (hb : b < 2 ^ k) (hd : d < 2 ^ k) :
    (2 ^ k * a + b) &&& (2 ^ k * c + d) = 2 ^ k * (a &&& c) + (b &&& d) := by
  apply Nat.eq_of_testBit_eq
  intro j
  rw [Nat.testBit_and, Nat.testBit_two_pow_mul_add _ hb, Nat.testBit_two_pow_mul_add _ hd,
    Nat.testBit_two_pow_mul_add _ (Nat.lt_of_le_of_lt Nat.and_le_left hb)]
  split <;> rw [Nat.testBit_and]

theorem two_pow_mul_add_inj {k a b c d : Nat} (hb : b < 2 ^ k) (hd : d < 2 ^ k) :
    2 ^ k * a + b = 2 ^ k * c + d ↔ a = c ∧ b = d := by
  constructor
  · intro h
    have hmod : b = d := by
      have hm := congrArg (· % 2 ^ k) h
      simpa [Nat.mul_add_mod, Nat.mod_eq_of_lt hb, Nat.mod_eq_of_lt hd] using hm
    subst hmod
    exact ⟨Nat.eq_of_mul_eq_mul_left (Nat.two_pow_pos k) (Nat.add_right_cancel h), rfl⟩
  · rintro ⟨rfl, rfl⟩
    rfl

namespace Template

/-- A row of digits with ones for the literal ones and zeros at the places of operands. -/
def ones (ps : List (Option Nibble)) : List Nibble := ps.map fun p => if p.isSome then 0xF else 0

/-- A row of digits with the literal ones and zeros at the places of operands. -/
def digits (ps : List (Option Nibble)) : List Nibble := ps.map (·.getD 0)

@[simp]
theorem length_ones (ps : List (Option Nibble)) : (ones ps).length = ps.length := List.length_map _

@[simp]
theorem length_digits (ps : List (Option Nibble)) : (digits ps).length = ps.length := List.length_map _

theorem ones_replicate_append (n : Nat) (ps : List (Option Nibble)) :
    ones (List.replicate n none ++ ps) = List.replicate n 0 ++ ones ps := by
  simp [ones]

theorem digits_replicate_append (n : Nat) (ps : List (Option Nibble)) :
    digits (List.replicate n none ++ ps) = List.replicate n 0 ++ digits ps := by
  simp [digits]

/-- The fields of the operands in a row of segments that ends where a word does. -/
def fieldsOf : List Segment → List Field
  | [] => []
  | .literal _ :: r => fieldsOf r
  | .operand s :: r => ⟨4 * Segment.filled r, s.width⟩ :: fieldsOf r

/-- What a row of segments adds to the bits gathered before it. -/
structure Gathers (r : List Segment) (b c : Bits) : Prop where
  mask : c.mask = b.mask ||| Word.ofNibbles (ones (r.flatMap Segment.pattern))
  value : c.value = b.value ||| Word.ofNibbles (digits (r.flatMap Segment.pattern))
  fields : c.spans.map Field.ofSpan = b.spans.map Field.ofSpan ++ fieldsOf r

theorem Gathers.literal {r : List Segment} {b c : Bits} {d : Nibble} (h : Gathers r (b.add (.literal d)) c)
    (hroom : b.nibble + (Segment.filled r + 1) = 4) : Gathers (.literal d :: r) b c := by
  have hlen : (r.flatMap Segment.pattern).length = 3 - b.nibble := by
    rw [Segment.length_flatMap_pattern]
    omega
  refine ⟨?_, ?_, h.fields⟩
  · have hcons := Word.ofNibbles_cons 0xF (r := ones (r.flatMap Segment.pattern)) (by simp [hlen])
    rw [length_ones, hlen] at hcons
    exact h.mask.trans ((UInt16.or_assoc ..).trans (congrArg (b.mask ||| ·) hcons.symm))
  · have hcons := Word.ofNibbles_cons d (r := digits (r.flatMap Segment.pattern)) (by simp [hlen])
    rw [length_digits, hlen] at hcons
    exact h.value.trans ((UInt16.or_assoc ..).trans (congrArg (b.value ||| ·) hcons.symm))

theorem Gathers.operand {r : List Segment} {b c : Bits} {s : Slot} (h : Gathers r (b.add (.operand s)) c)
    (hroom : b.nibble + (s.width + Segment.filled r) = 4) : Gathers (.operand s :: r) b c := by
  have hlen := Segment.length_flatMap_pattern r
  have hpattern : (Segment.operand s :: r).flatMap Segment.pattern =
      List.replicate s.width none ++ r.flatMap Segment.pattern := rfl
  refine ⟨?_, ?_, ?_⟩
  · rw [h.mask, hpattern, ones_replicate_append, Word.ofNibbles_replicate_append _ (by rw [length_ones, hlen]; omega)]
    rfl
  · rw [h.value, hpattern, digits_replicate_append,
      Word.ofNibbles_replicate_append _ (by rw [length_digits, hlen]; omega)]
    rfl
  · have hshift : 4 - b.nibble - s.width = Segment.filled r := by omega
    rw [h.fields, Bits.add, List.map_append, List.append_assoc, List.map_cons, List.map_nil, Field.ofSpan, hshift]
    rfl

theorem gathers_foldl (b : Bits) (r : List Segment) (h : b.nibble + Segment.filled r = 4) :
    Gathers r b (r.foldl Bits.add b) := by
  induction r generalizing b with
  | nil => exact ⟨UInt16.or_zero.symm, UInt16.or_zero.symm, (List.append_nil _).symm⟩
  | cons s r ih =>
    rw [Segment.filled] at h
    cases s with
    | literal d =>
      have hrest : b.nibble + 1 + Segment.filled r = 4 := by rw [Nat.add_assoc]; exact h
      exact (ih (b.add (.literal d)) hrest).literal (by omega)
    | operand s =>
      have hrest : b.nibble + s.width + Segment.filled r = 4 := by rw [Nat.add_assoc]; exact h
      exact (ih (b.add (.operand s)) hrest).operand h

theorem gathers_bits (t : Template) : Gathers t.segments {} t.bits :=
  gathers_foldl {} t.segments ((Nat.zero_add _).trans t.full)

theorem mask_eq (t : Template) : t.mask = Word.ofNibbles (ones t.pattern) :=
  t.gathers_bits.mask.trans UInt16.zero_or

theorem value_eq (t : Template) : t.value = Word.ofNibbles (digits t.pattern) :=
  t.gathers_bits.value.trans UInt16.zero_or

theorem fields_eq (t : Template) : t.fields = fieldsOf t.segments := t.gathers_bits.fields

theorem and_digit_eq_iff (p : Option Nibble) (d : Nibble) :
    d.val &&& (if p.isSome then 0xF else 0 : Nibble).val = (p.getD 0).val ↔ Allows p d := by
  cases p with
  | none => simp [Allows]
  | some e =>
    have hones : ∀ d e : Nibble, d.val &&& 0xF = e.val ↔ e = d := by decide
    exact (hones d e).trans (by simp [Allows])

theorem and_mask_eq_iff {ps : List (Option Nibble)} {ds : List Nibble} (h : ps.length = ds.length) :
    Nibble.number ds &&& Nibble.number (ones ps) = Nibble.number (digits ps) ↔ List.Forall₂ Allows ps ds := by
  induction ps generalizing ds with
  | nil =>
    obtain rfl := List.length_eq_zero_iff.1 h.symm
    simp [Nibble.number, ones, digits]
  | cons p ps ih =>
    cases ds with
    | nil => cases h
    | cons d ds =>
      have hlen : ps.length = ds.length := Nat.succ.inj h
      have hones : (ones ps).length = ds.length := (length_ones ps).trans hlen
      have hdigits : (digits ps).length = ds.length := (length_digits ps).trans hlen
      have hmask := Nibble.number_lt (ones ps)
      have hvalue := Nibble.number_lt (digits ps)
      rw [hones] at hmask
      rw [hdigits] at hvalue
      have hand := Nat.lt_of_le_of_lt (Nat.and_le_left (m := Nibble.number (ones ps))) (Nibble.number_lt ds)
      have hcons : ones (p :: ps) = (if p.isSome then 0xF else 0) :: ones ps := rfl
      have hcons' : digits (p :: ps) = p.getD 0 :: digits ps := rfl
      rw [hcons, hcons', Nibble.number, Nibble.number, Nibble.number, hones, hdigits]
      rw [and_two_pow_mul_add (Nibble.number_lt ds) hmask, two_pow_mul_add_inj hand hvalue, List.forall₂_cons,
        and_digit_eq_iff, ih hlen]

theorem accepts_iff_mask {t : Template} {w : Word} : t.accepts w = true ↔ w &&& t.mask = t.value := by
  have hlen : t.pattern.length = w.nibbles.length := t.length_pattern.trans w.length_nibbles.symm
  have hpattern := t.length_pattern
  rw [accepts_iff, ← and_mask_eq_iff hlen, ← UInt16.toNat_inj, UInt16.toNat_and, mask_eq, value_eq,
    Word.toNat_ofNibbles (by simp [hpattern]), Word.toNat_ofNibbles (by simp [hpattern]),
    Word.number_nibbles]

/-- A field of a number is the row of nibbles that it holds. -/
theorem extract_number (ds es fs : List Nibble) :
    Field.extract ⟨4 * fs.length, es.length⟩ (Nibble.number (ds ++ (es ++ fs))) = Nibble.number es := by
  rw [Field.extract, Nat.one_shiftLeft, Nat.and_two_pow_sub_one_eq_mod, Nat.shiftRight_eq_div_pow, ← List.append_assoc,
    Nibble.number_append, Nat.mul_add_div (Nat.two_pow_pos _), Nat.div_eq_of_lt (Nibble.number_lt fs), Nat.add_zero,
    Nibble.number_append, Nat.mul_add_mod, Nat.mod_eq_of_lt (Nibble.number_lt es)]

theorem operands_eq_extract {r : List Segment} (ds : List Nibble) {es : List Nibble} (hr : Segment.filled r ≤ 4)
    (h : es.length = Segment.filled r) :
    (Segment.operands r es).map UInt16.toNat = (fieldsOf r).map (·.extract (Nibble.number (ds ++ es))) := by
  induction r generalizing ds es with
  | nil => rfl
  | cons s r ih =>
    rw [Segment.filled] at hr h
    have hsplit : es = es.take s.width ++ es.drop s.width := (List.take_append_drop _ _).symm
    have htake : (es.take s.width).length = s.width := by rw [List.length_take]; omega
    have hdrop : (es.drop s.width).length = Segment.filled r := by rw [List.length_drop]; omega
    have hrest := ih (ds ++ es.take s.width) (show Segment.filled r ≤ 4 by omega) hdrop
    rw [List.append_assoc, ← hsplit] at hrest
    cases s with
    | literal d => exact hrest
    | operand s =>
      have hfield : Field.extract ⟨4 * Segment.filled r, s.width⟩ (Nibble.number (ds ++ es)) =
          Nibble.number (es.take s.width) := by
        have hextract := extract_number ds (es.take s.width) (es.drop s.width)
        rw [show es.take s.width ++ es.drop s.width = es from hsplit.symm] at hextract
        rwa [show (es.take s.width).length = s.width from htake,
          show (es.drop s.width).length = Segment.filled r from hdrop] at hextract
      have hword : (Word.ofNibbles (es.take s.width)).toNat = Nibble.number (es.take s.width) :=
        Word.toNat_ofNibbles (by
          rw [show (es.take s.width).length = s.width from htake]
          exact Nat.le_trans (Nat.le_add_right _ _) hr)
      rw [Segment.operands, List.map_cons, hword, fieldsOf, List.map_cons, hfield]
      exact congrArg _ hrest

theorem operands_eq_fields (t : Template) (w : Word) :
    (t.operands w).map UInt16.toNat = t.fields.map (·.extract w.toNat) := by
  have h := operands_eq_extract [] (Nat.le_of_eq t.full) (w.length_nibbles.trans t.full.symm)
  rwa [List.nil_append, Word.number_nibbles, ← fields_eq] at h

end Template
end Chip8
