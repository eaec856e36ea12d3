import Chip8.Proofs.Captures
import Chip8.Proofs.Unambiguous
import Mathlib

/-! What decoding keeps of a word. The masks of a template share out the sixteen bits, and an instruction holds the
operands uncut, so that the word can be put together again from the two. Words that are read as the same
instruction are therefore the same. -/

namespace Chip8

/-- A number that fits in a slot. -/
def Slot.Holds (s : Slot) (n : Nat) : Prop := n < 2 ^ (4 * s.width)

theorem Segment.forall₂_holds_operands (r : List Segment) (ds : List Nibble) :
    List.Forall₂ (fun s (v : Word) => s.Holds v.toNat)
      (r.filterMap fun | .literal _ => none | .operand s => some s) (operands r ds) := by
  induction r generalizing ds with
  | nil => exact .nil
  | cons s r ih =>
    cases s with
    | literal d => exact ih _
    | operand s =>
      refine .cons ?_ (ih _)
      have hlen : (ds.take s.width).length ≤ s.width := List.length_take_le _ _
      have hwidth : s.width ≤ 4 := by cases s <;> decide
      rw [Slot.Holds, Word.toNat_ofNibbles (Nat.le_trans hlen hwidth)]
      exact Nat.lt_of_lt_of_le (Nibble.number_lt _) (Nat.pow_le_pow_right (by decide) (Nat.mul_le_mul_left 4 hlen))

namespace Opcode

theorem toNat_register {v : Word} (h : Slot.register.Holds v.toNat) : (v.toUInt8 % 16).toNat = v.toNat := by
  have hv : v.toNat < 16 := h
  rw [UInt8.toNat_mod, UInt16.toNat_toUInt8]
  simp only [UInt8.reduceToNat]
  omega

theorem toNat_byte {v : Word} (h : Slot.byte.Holds v.toNat) : v.toUInt8.toNat = v.toNat := by
  rw [UInt16.toNat_toUInt8]
  exact Nat.mod_eq_of_lt h

theorem toNat_address {v : Word} (h : Slot.address.Holds v.toNat) : (v % 4096).toNat = v.toNat := by
  rw [UInt16.toNat_mod]
  exact Nat.mod_eq_of_lt h

/-- Operands that fit their slots are not cut. -/
theorem fields_of_assemble? {op : Opcode} {operands : List Word} {i : Instruction}
    (h : op.assemble? operands = some i)
    (hfit : List.Forall₂ (fun s (v : Word) => s.Holds v.toNat) op.shape operands) :
    i.opcode = op ∧ i.fields.map Prod.snd = operands.map UInt16.toNat := by
  cases op with
  | ret =>
    cases hfit
    cases h
    exact ⟨rfl, rfl⟩
  | call | loadIndex | jumpOffset =>
    obtain _ | ⟨hn, _ | _⟩ := hfit
    cases h
    exact ⟨rfl, congrArg (fun n => [n]) (toNat_address hn)⟩
  | addIndex | storeRegs | loadRegs =>
    obtain _ | ⟨hx, _ | _⟩ := hfit
    cases h
    exact ⟨rfl, congrArg (fun n => [n]) (toNat_register hx)⟩
  | skipEqImm | skipNeImm | loadImm | addImm | random =>
    obtain _ | ⟨hx, _ | ⟨hk, _ | _⟩⟩ := hfit
    cases h
    exact ⟨rfl, congrArg₂ (fun m n => [m, n]) (toNat_register hx) (toNat_byte hk)⟩
  | _ =>
    obtain _ | ⟨hx, _ | ⟨hy, _ | _⟩⟩ := hfit
    cases h
    exact ⟨rfl, congrArg₂ (fun m n => [m, n]) (toNat_register hx) (toNat_register hy)⟩

end Opcode

namespace Template

/-- The bits that an operand takes up. -/
def Field.mask (f : Field) : Nat := (2 ^ (4 * f.width) - 1) <<< f.shift

/-- The masks of the literal digits and of each operand. -/
def masks (t : Template) : List Nat := t.mask.toNat :: t.fields.map Field.mask

/-- The literal digits with operands put back where they belong. -/
def fill (t : Template) (operands : List Nat) : Nat :=
  (t.fields.zipWith (fun f n => n <<< f.shift) operands).foldl (· ||| ·) t.value.toNat

theorem Field.testBit_mask (f : Field) (j : Nat) :
    f.mask.testBit j = decide (f.shift ≤ j ∧ j < f.shift + 4 * f.width) := by
  rw [mask, Nat.testBit_shiftLeft, Nat.testBit_two_pow_sub_one, ← Bool.decide_and]
  exact decide_eq_decide.2 (by omega)

theorem Field.extract_shiftLeft (f : Field) (n : Nat) : f.extract n <<< f.shift = n &&& f.mask := by
  apply Nat.eq_of_testBit_eq
  intro j
  rw [extract, mask, Nat.one_shiftLeft, Nat.testBit_and, Nat.testBit_shiftLeft, Nat.testBit_shiftLeft, Nat.testBit_and,
    Nat.testBit_shiftRight]
  by_cases hj : f.shift ≤ j
  · rw [Nat.add_sub_cancel' hj, decide_eq_true hj, Bool.true_and, Bool.true_and]
  · rw [decide_eq_false hj, Bool.false_and, Bool.false_and, Bool.and_false]

/-- Of the masks of a row of segments, each bit that the row fills is in just one. -/
theorem countP_testBit (r : List Segment) (j : Nat) :
    (Nibble.number (ones (r.flatMap Segment.pattern)) :: (fieldsOf r).map Field.mask).countP (·.testBit j) =
      if j < 4 * Segment.filled r then 1 else 0 := by
  induction r with
  | nil => simp [Nibble.number, ones, fieldsOf, Segment.filled]
  | cons s r ih =>
    set rest := ones (r.flatMap Segment.pattern) with hrest
    have hlen : rest.length = Segment.filled r := by rw [hrest, length_ones, Segment.length_flatMap_pattern]
    have hlt : Nibble.number rest < 2 ^ (4 * Segment.filled r) := hlen ▸ Nibble.number_lt rest
    have hcons : ones ((s :: r).flatMap Segment.pattern) = ones s.pattern ++ rest := by
      rw [hrest, List.flatMap_cons, ones, List.map_append]
      rfl
    rw [hcons, Nibble.number_append, hlen, List.countP_cons, Nat.testBit_two_pow_mul_add _ hlt, Segment.filled]
    rw [List.countP_cons] at ih
    -- the bits below the new segment are shared out already, and no mask has a bit above them
    cases s with
    | literal d =>
      have hones : (Nibble.number [0xF]).testBit (j - 4 * Segment.filled r) =
          decide (j - 4 * Segment.filled r < 4) := Nat.testBit_two_pow_sub_one 4 _
      simp only [Segment.pattern, ones, List.map_cons, List.map_nil, Option.isSome_some, if_true, hones, fieldsOf]
      rw [Segment.width]
      by_cases hj : j < 4 * Segment.filled r
      · rw [if_pos hj] at ih ⊢
        rw [ih, if_pos (by omega)]
      · rw [if_neg hj] at ih ⊢
        simp only [decide_eq_true_eq]
        split <;> split <;> omega
    | operand s =>
      simp only [Segment.pattern, ones, List.map_replicate, Option.isSome_none, Bool.false_eq_true, if_false,
        Nibble.number_replicate_zero, Nat.zero_testBit, fieldsOf, List.map_cons, List.countP_cons, Field.testBit_mask,
        decide_eq_true_eq]
      rw [Segment.width]
      by_cases hj : j < 4 * Segment.filled r
      · rw [if_pos hj] at ih ⊢
        have hout : ¬(4 * Segment.filled r ≤ j ∧ j < 4 * Segment.filled r + 4 * s.width) := by omega
        rw [if_neg hout, Nat.add_zero, ih, if_pos (by omega)]
      · rw [if_neg hj] at ih ⊢
        simp only [Bool.false_eq_true, if_false]
        split <;> split <;> omega

/-- The masks of a template share out the bits of a word. -/
theorem countP_masks (t : Template) (j : Nat) :
    t.masks.countP (·.testBit j) = if j < 16 then 1 else 0 := by
  have hmask : t.mask.toNat = Nibble.number (ones t.pattern) := by
    rw [mask_eq, Word.toNat_ofNibbles (by simp [t.length_pattern])]
  have h := countP_testBit t.segments j
  rw [t.full] at h
  rw [masks, hmask, fields_eq]
  exact h

theorem exists_testBit_masks (t : Template) {j : Nat} (hj : j < 16) : ∃ m ∈ t.masks, m.testBit j = true := by
  have hcount := t.countP_masks j
  rw [if_pos hj] at hcount
  exact List.countP_pos_iff.1 (hcount ▸ Nat.one_pos)

theorem value_and_mask (t : Template) : t.value &&& t.mask = t.value := by
  have hnibbles : t.value.nibbles = digits t.pattern := by
    rw [value_eq, Word.nibbles_ofNibbles ((length_digits _).trans t.length_pattern)]
  refine accepts_iff_mask.1 (accepts_iff.2 ?_)
  rw [hnibbles, digits, List.forall₂_map_right_iff, List.forall₂_same]
  rintro p - e rfl
  rfl

theorem testBit_foldl_or (ns : List Nat) (n j : Nat) :
    (ns.foldl (· ||| ·) n).testBit j = (n.testBit j || ns.any (·.testBit j)) := by
  induction ns generalizing n with
  | nil => simp
  | cons m ns ih => rw [List.foldl_cons, ih, Nat.testBit_or, List.any_cons, Bool.or_assoc]

/-- A word that a template accepts is its literal digits with the operands that it reads there. -/
theorem fill_operands {t : Template} {w : Word} (h : t.accepts w = true) :
    t.fill ((t.operands w).map UInt16.toNat) = w.toNat := by
  have hvalue : t.value.toNat = w.toNat &&& t.mask.toNat := by rw [← accepts_iff_mask.1 h, UInt16.toNat_and]
  have hshifted : t.fields.zipWith (fun f n => n <<< f.shift) (t.fields.map (·.extract w.toNat)) =
      t.fields.map fun f => w.toNat &&& f.mask := by
    rw [List.zipWith_map_right, List.zipWith_self]
    exact List.map_congr_left fun f _ => f.extract_shiftLeft w.toNat
  rw [fill, t.operands_eq_fields, hshifted, hvalue]
  apply Nat.eq_of_testBit_eq
  intro j
  rw [testBit_foldl_or]
  by_cases hj : j < 16
  · obtain ⟨m, hm, hbit⟩ := t.exists_testBit_masks hj
    have hany : t.masks.any (·.testBit j) = true := List.any_eq_true.2 ⟨m, hm, hbit⟩
    simp only [masks, List.any_cons, List.any_map, Function.comp_def] at hany
    simp only [Nat.testBit_and, List.any_map, Function.comp_def]
    cases w.toNat.testBit j
    · simp
    · simpa using hany
  · have hlow : w.toNat.testBit j = false := Nat.testBit_lt_two_pow (by
      have := w.toNat_lt
      exact Nat.lt_of_lt_of_le this (Nat.pow_le_pow_right (by decide) (Nat.le_of_not_lt hj)))
    simp [hlow]

end Template

namespace Decoder

/-- What an instruction keeps of the word that it was read from. -/
structure Reads (b : Binding) (w : Word) (i : Instruction) : Prop where
  opcode : i.opcode = b.opcode
  captured : ∃ operands, b.template.captures? w.text = some operands ∧
    i.fields.map Prod.snd = operands.map UInt16.toNat
  fits : List.Forall₂ Slot.Holds b.opcode.shape (i.fields.map Prod.snd)
  word : b.template.fill (i.fields.map Prod.snd) = w.toNat

theorem reads_of_decode {definitions : List (String × Opcode)} {d : Decoder} {w : Word} {i : Instruction}
    (h : ofDefinitions definitions = .ok d) (hi : d.decode w = .ok i) :
    ∃ b, (d.bindings.filter fun b => b.template.accepts w) = [b] ∧ Reads b w i := by
  obtain ⟨hdef, hpairwise⟩ := ofDefinitions_eq_ok_iff.1 h
  obtain ⟨⟨op, operands⟩, hoperands, hassemble⟩ := Option.bind_eq_some_iff.1 (decode_eq_ok_iff.1 hi)
  obtain ⟨b, hlookup, hb⟩ := Option.map_eq_some_iff.1 hoperands
  cases hb
  obtain ⟨hmem, haccepts⟩ := accepts_of_lookup? hlookup
  obtain ⟨p, -, hp⟩ := exists_of_forall₂ hdef.flip hmem
  have hfit : List.Forall₂ (fun s (v : Word) => s.Holds v.toNat) b.opcode.shape (b.template.operands w) :=
    hp.shape ▸ Segment.forall₂_holds_operands b.template.segments w.nibbles
  obtain ⟨hopcode, hfields⟩ := Opcode.fields_of_assemble? hassemble hfit
  have hbmem : b ∈ d.bindings.filter fun b => b.template.accepts w := List.mem_filter.2 ⟨hmem, haccepts⟩
  obtain ⟨c, hc⟩ := List.length_eq_one_iff.1
    (Nat.le_antisymm (length_filter_le hpairwise w) (List.length_pos_of_mem hbmem))
  obtain rfl : b = c := by rw [hc] at hbmem; exact List.mem_singleton.1 hbmem
  refine ⟨b, hc, hopcode, ⟨b.template.operands w, ?_, hfields⟩, ?_, ?_⟩
  · exact Template.captures?_eq_some_iff.2 ⟨w, Word.ofText?_text w, haccepts, rfl⟩
  · rw [hfields, List.forall₂_map_right_iff]
    exact hfit
  · rw [hfields, Template.fill_operands haccepts]

theorem eq_of_decode {definitions : List (String × Opcode)} {d : Decoder} {w w' : Word} {i : Instruction}
    (h : ofDefinitions definitions = .ok d) (hw : d.decode w = .ok i) (hw' : d.decode w' = .ok i) : w = w' := by
  obtain ⟨b, hb, hreads⟩ := reads_of_decode h hw
  obtain ⟨b', hb', hreads'⟩ := reads_of_decode h hw'
  have hmem : b ∈ d.bindings := (List.mem_filter.1 (hb ▸ List.mem_singleton_self b)).1
  have hmem' : b' ∈ d.bindings := (List.mem_filter.1 (hb' ▸ List.mem_singleton_self b')).1
  -- no opcode is bound twice
  have hbb : b = b' := by
    by_contra hne
    exact ((ofDefinitions_eq_ok_iff.1 h).2.forall hmem hmem' hne).opcode (hreads.opcode.symm.trans hreads'.opcode)
  subst hbb
  exact UInt16.toNat_inj.1 (hreads.word.symm.trans hreads'.word)

/-- Decoding loses nothing: the instruction has the opcode of the one binding whose template accepts the word and
all that the template captures, and these two give the word back. A template leaves no bit out and takes none
twice. -/
theorem decode_reassembled :
    (∀ (definitions : List (String × Opcode)) (d : Decoder), ofDefinitions definitions = .ok d →
      (∀ w i, d.decode w = .ok i → ∃ b, (d.bindings.filter fun b => b.template.accepts w) = [b] ∧ Reads b w i) ∧
      ∀ w w' i, d.decode w = .ok i → d.decode w' = .ok i → w = w') ∧
    ∀ t : Template, (∀ j, t.masks.countP (·.testBit j) = if j < 16 then 1 else 0) ∧ t.value &&& t.mask = t.value :=
  ⟨fun _ _ h => ⟨fun _ _ => reads_of_decode h, fun _ _ _ => eq_of_decode h⟩,
    fun t => ⟨t.countP_masks, t.value_and_mask⟩⟩

/-- Two operations whose templates share their first digit. -/
theorem decode_reassembled_shared :
    ∃ d, ofDefinitions [("8xy4", .addReg), ("8xy5", .sub)] = .ok d ∧ d.decode 0x8AF5 = .ok (.sub 10 15) ∧
      ∃ b, (d.bindings.filter fun b => b.template.accepts 0x8AF5) = [b] ∧ Reads b 0x8AF5 (.sub 10 15) := by
  let row (source : String) (last : Nibble) : Template :=
    ⟨source, [.literal 0x8, .operand .register, .operand .register, .literal last], rfl⟩
  let d : Decoder := ⟨[⟨row "8xy4" 0x4, .addReg⟩, ⟨row "8xy5" 0x5, .sub⟩]⟩
  have hd : ofDefinitions [("8xy4", .addReg), ("8xy5", .sub)] = .ok d := by cbv
  have hi : d.decode 0x8AF5 = .ok (.sub 10 15) := by rfl
  exact ⟨d, hd, hi, (decode_reassembled.1 _ d hd).1 _ _ hi⟩

end Decoder
end Chip8
