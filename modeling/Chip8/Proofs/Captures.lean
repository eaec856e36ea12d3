import Chip8.Proofs.Mask
import Chip8.Proofs.Pattern
import Mathlib

/-! What a template reads, told from the text that it was written as. The letters of that text, one for each
run, stand across from pieces of the text that is read. A digit allows only itself, and the pieces across from
the other letters are the operands. -/

namespace Chip8

theorem Hex.number_eq {cs : List Char} {ds : List Nibble} (h : cs.map Hex.digit? = ds.map some) :
    number cs = Nibble.number ds := by
  have hfold (n : Nat) : cs.foldl (fun n c => 16 * n + Hex.digits.idxOf c.toLower) n =
      ds.foldl (fun n d => 16 * n + d.val) n := by
    induction cs generalizing n ds with
    | nil =>
      obtain rfl := List.map_eq_nil_iff.1 h.symm
      rfl
    | cons c cs ih =>
      cases ds with
      | nil => cases h
      | cons d ds =>
        obtain ⟨hd, hds⟩ := List.cons.inj h
        rw [List.foldl_cons, List.foldl_cons, (digit?_eq_some_iff.1 hd).2, ih hds]
  rw [number, hfold, Nibble.foldl_eq, Nat.mul_zero, Nat.zero_add]

namespace Template

/-- The letters of a template, a wide one once for its run. -/
def heads (cs : List Char) : List Char := cs.destutter fun c d => c ≠ d ∨ span c = 1

/-- Letters with the pieces of a text that stand across from them. -/
def across (letters text : List Char) : List (Char × List Char) :=
  letters.zip ((letters.map span).splitLengths text)

/-- Four hexadecimal digits with the literal ones where the template has them. -/
structure Agrees (cs text : List Char) : Prop where
  length : text.length = 4
  digits : ∀ c ∈ text, c.toLower ∈ Hex.digits
  literals : ∀ p ∈ across (heads cs) text, p.1 ∈ Hex.digits → p.2.map Char.toLower = [p.1]

/-- The values across from the letters that are no digits. -/
def captured (cs text : List Char) : List Nat :=
  ((across (heads cs) text).filter fun p => p.1 ∉ Hex.digits).map fun p => Hex.number p.2

theorem heads_cons {c : Char} {cs : List Char} (h : c ∉ cs ∨ span c = 1) : heads (c :: cs) = c :: heads cs := by
  cases cs with
  | nil => rfl
  | cons d cs =>
    have hcd : c ≠ d ∨ span c = 1 := h.imp_left List.ne_of_not_mem_cons
    exact if_pos hcd

theorem heads_run {c : Char} (m : Nat) (cs : List Char) (h : 1 < span c) :
    heads (c :: (List.replicate m c ++ cs)) = heads (c :: cs) := by
  induction m with
  | zero => rfl
  | succ m ih =>
    have hcc : ¬(c ≠ c ∨ span c = 1) := by simp; omega
    rw [← ih, List.replicate_succ, List.cons_append]
    exact if_neg hcc

theorem opens_heads {cs : List Char} {r : List Segment} (h : Spells cs r) : List.Forall₂ Opens (heads cs) r := by
  induction h with
  | nil => exact .nil
  | @single c s cs r hopens hwidth hrest ih =>
    rw [heads_cons (.inr (hopens.width ▸ hwidth))]
    exact .cons hopens ih
  | @group c s m cs r hopens hwidth hm hlast hrest ih =>
    rw [heads_run m cs (hopens.width ▸ hwidth), heads_cons (.inl hlast)]
    exact .cons hopens ih

theorem ofChar?_of_mem_digits {c : Char} (h : c ∈ Hex.digits) :
    Segment.ofChar? c = some (.literal (Fin.ofNat 16 (Hex.digits.idxOf c))) := by
  have hall : ∀ c ∈ Hex.digits, Segment.ofChar? c = some (.literal (Fin.ofNat 16 (Hex.digits.idxOf c))) :=
    List.all_iff_forall_prop.1 (by decide)
  exact hall c h

theorem Opens.digit {c : Char} {d : Nibble} (h : Opens c (.literal d)) :
    c ∈ Hex.digits ∧ Hex.digits.idxOf c = d.val := by
  have hall : ∀ c ∈ letters, ∀ d : Nibble, Segment.ofChar? c = some (.literal d) →
      c ∈ Hex.digits ∧ Hex.digits.idxOf c = d.val := List.all_iff_forall_prop.1 (by decide)
  exact hall c h.letter d h.segment

theorem Opens.notMem_digits {c : Char} {s : Slot} (h : Opens c (.operand s)) : c ∉ Hex.digits := by
  intro hc
  cases (ofChar?_of_mem_digits hc).symm.trans h.segment

section Reading

variable {ls text : List Char} {r : List Segment} {ds : List Nibble}

theorem allows_replicate_append {ps : List (Option Nibble)} {n : Nat} (hn : n ≤ ds.length) :
    List.Forall₂ Allows (List.replicate n none ++ ps) ds ↔ List.Forall₂ Allows ps (ds.drop n) := by
  induction n generalizing ds with
  | zero => rfl
  | succ n ih =>
    cases ds with
    | nil => exact absurd hn (Nat.not_succ_le_zero n)
    | cons d ds =>
      have hd : Allows none d := nofun
      rw [List.replicate_succ, List.cons_append, List.forall₂_cons, and_iff_right hd, ih (Nat.le_of_succ_le_succ hn),
        List.drop_succ_cons]

/-- A piece agrees with a digit just if it is that digit. -/
theorem allows_digit_iff {c d : Char} {e f : Nibble} (hc : Opens c (.literal e)) (hd : Hex.digit? d = some f) :
    Allows (some e) f ↔ d.toLower = c := by
  obtain ⟨hcmem, hce⟩ := hc.digit
  obtain ⟨hdmem, hdf⟩ := Hex.digit?_eq_some_iff.1 hd
  rw [← List.idxOf_inj hdmem, hce, hdf]
  simp [Allows, ← Fin.ext_iff, eq_comm]

theorem across_cons {c : Char} {s : Segment} (h : Opens c s) :
    across (c :: ls) text = (c, text.take s.width) :: across ls (text.drop s.width) := by
  rw [across, List.map_cons, List.splitLengths_cons, List.zip_cons_cons, h.width, across]

theorem map_digit?_drop (n : Nat) (h : text.map Hex.digit? = ds.map some) :
    (text.drop n).map Hex.digit? = (ds.drop n).map some := by
  rw [List.map_drop, h, List.map_drop]

theorem allows_iff_across (h : List.Forall₂ Opens ls r) (htext : text.map Hex.digit? = ds.map some)
    (hfilled : ds.length = Segment.filled r) :
    List.Forall₂ Allows (r.flatMap Segment.pattern) ds ↔
      ∀ p ∈ across ls text, p.1 ∈ Hex.digits → p.2.map Char.toLower = [p.1] := by
  induction h generalizing text ds with
  | nil =>
    obtain rfl := List.length_eq_zero_iff.1 hfilled
    simp [across]
  | @cons c s ls r hopens hls ih =>
    rw [Segment.filled] at hfilled
    have hlength : (ds.drop s.width).length = Segment.filled r := by rw [List.length_drop]; omega
    rw [across_cons hopens, List.forall_mem_cons, ← ih (map_digit?_drop s.width htext) hlength, List.flatMap_cons]
    cases s with
    | operand s =>
      rw [Segment.pattern, allows_replicate_append (show s.width ≤ ds.length from hfilled ▸ Nat.le_add_right _ _)]
      exact (and_iff_right fun hc => absurd hc hopens.notMem_digits).symm
    | literal e =>
      cases ds with
      | nil => simp [Segment.width] at hfilled; omega
      | cons f ds =>
        cases text with
        | nil => cases htext
        | cons d text =>
          have hd := (List.cons.inj htext).1
          rw [Segment.pattern, List.singleton_append, List.forall₂_cons, allows_digit_iff hopens hd]
          simp [Segment.width, hopens.digit.1]

theorem operands_eq_across (h : List.Forall₂ Opens ls r) (htext : text.map Hex.digit? = ds.map some)
    (hfilled : ds.length = Segment.filled r) (hr : Segment.filled r ≤ 4) :
    (Segment.operands r ds).map UInt16.toNat =
      ((across ls text).filter fun p => p.1 ∉ Hex.digits).map fun p => Hex.number p.2 := by
  induction h generalizing text ds with
  | nil => rfl
  | @cons c s ls r hopens hls ih =>
    rw [Segment.filled] at hfilled hr
    have hlength : (ds.drop s.width).length = Segment.filled r := by rw [List.length_drop]; omega
    have hrest := ih (map_digit?_drop s.width htext) hlength (by omega)
    rw [across_cons hopens]
    cases s with
    | literal e =>
      rw [List.filter_cons_of_neg (by simpa using hopens.digit.1), Segment.operands]
      exact hrest
    | operand s =>
      have hword : (Word.ofNibbles (ds.take s.width)).toNat = Hex.number (text.take s.width) := by
        have hwidth : s.width ≤ 4 := Nat.le_trans (Nat.le_add_right _ _) hr
        rw [Word.toNat_ofNibbles (Nat.le_trans (List.length_take_le _ _) hwidth), Hex.number_eq]
        rw [List.map_take, htext, List.map_take]
      rw [List.filter_cons_of_pos (by simpa using hopens.notMem_digits), Segment.operands, List.map_cons, List.map_cons,
        hword]
      exact congrArg _ hrest

end Reading

theorem captures?_eq_some_iff {t : Template} {text : String} {operands : List Word} :
    t.captures? text = some operands ↔
      ∃ w, Word.ofText? text = some w ∧ t.accepts w = true ∧ t.operands w = operands := by
  simp only [captures?, Option.bind_eq_bind, Option.bind_eq_some_iff, Option.ite_none_right_eq_some, Option.some.injEq]

theorem agrees_iff_exists {t : Template} {cs : List Char} (h : List.Forall₂ Opens (heads cs) t.segments)
    {text : String} : Agrees cs text.toList ↔ ∃ w, Word.ofText? text = some w ∧ t.accepts w = true := by
  constructor
  · rintro ⟨hlength, hdigits, hliterals⟩
    let ds := text.toList.map fun c => Fin.ofNat 16 (Hex.digits.idxOf c.toLower)
    have hds : text.toList.map Hex.digit? = ds.map some := Hex.map_digit?_eq hdigits
    have hfour : ds.length = 4 := (List.length_map _).trans hlength
    refine ⟨Word.ofNibbles ds, ?_, ?_⟩
    · rw [Word.ofText?_eq_some_iff, Word.nibbles_ofNibbles hfour, hds]
    · rw [accepts_iff, Word.nibbles_ofNibbles hfour]
      exact (allows_iff_across h hds (hfour.trans t.full.symm)).2 hliterals
  · rintro ⟨w, hw, haccepts⟩
    have hds := Word.ofText?_eq_some_iff.1 hw
    refine ⟨?_, Hex.mem_digits_of_map hds, ?_⟩
    · rw [← List.length_map Hex.digit?, hds, List.length_map, Word.length_nibbles]
    · exact (allows_iff_across h hds t.full.symm).1 (accepts_iff.1 haccepts)

/-- Templates are compiled from just the texts of their language, and what one accepts and reads can be told
from its text. It is also what one mask with a comparison accepts and what one shift with a mask for each
operand reads. -/
theorem compile_written_captures (source : String) :
    ((∃ t, compile source = .ok t) ↔ Written (source.toList.map Char.toLower)) ∧
      ∀ t, compile source = .ok t →
        (∀ text : String,
          ((∃ operands, t.captures? text = some operands) ↔
            Agrees (source.toList.map Char.toLower) text.toList) ∧
          ∀ operands, t.captures? text = some operands →
            operands.map UInt16.toNat = captured (source.toList.map Char.toLower) text.toList) ∧
        ∀ w, (t.accepts w = true ↔ w &&& t.mask = t.value) ∧
          (t.operands w).map UInt16.toNat = t.fields.map (·.extract w.toNat) := by
  refine ⟨compile_iff_written, fun t ht => ⟨fun text => ⟨?_, ?_⟩, fun w => ⟨accepts_iff_mask, t.operands_eq_fields w⟩⟩⟩
  · have hopens := opens_heads (compile_eq_ok_iff.1 ht).2
    rw [agrees_iff_exists hopens]
    simp only [captures?_eq_some_iff]
    exact ⟨fun ⟨_, w, hw, haccepts, _⟩ => ⟨w, hw, haccepts⟩, fun ⟨w, hw, haccepts⟩ => ⟨_, w, hw, haccepts, rfl⟩⟩
  · intro operands hcaptures
    obtain ⟨w, hw, haccepts, rfl⟩ := captures?_eq_some_iff.1 hcaptures
    have hopens := opens_heads (compile_eq_ok_iff.1 ht).2
    exact operands_eq_across hopens (Word.ofText?_eq_some_iff.1 hw) t.full.symm (Nat.le_of_eq t.full)

/-- A template in mixed case with one letter for a byte. -/
theorem compile_written_captures_abbreviated :
    ∃ t, compile "6xK" = .ok t ∧ Written ("6xK".toList.map Char.toLower) ∧
      Agrees ("6xK".toList.map Char.toLower) "6a7F".toList ∧ t.captures? "6a7F" = some [0x0A, 0x7F] ∧
      captured ("6xK".toList.map Char.toLower) "6a7F".toList = [0x0A, 0x7F] := by
  let t : Template := ⟨"6xK", [.literal 0x6, .operand .register, .operand .byte], rfl⟩
  have ht : compile "6xK" = .ok t := by cbv
  have hcaptures : t.captures? "6a7F" = some [0x0A, 0x7F] := by cbv
  obtain ⟨hwritten, hreads⟩ := compile_written_captures "6xK"
  obtain ⟨hagrees, hcaptured⟩ := (hreads t ht).1 "6a7F"
  exact ⟨t, ht, hwritten.1 ⟨t, ht⟩, hagrees.1 ⟨_, hcaptures⟩, hcaptures, (hcaptured _ hcaptures).symm⟩

end Template
end Chip8
