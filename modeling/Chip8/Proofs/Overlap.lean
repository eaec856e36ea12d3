import Chip8.Proofs.Digits
import Chip8.Template
import Mathlib.Data.List.Forall2

/-! Templates against words, nibble by nibble. Two templates overlap just where some word is accepted by
both. -/

namespace Chip8

namespace Template

/-- An entry of a pattern allows a digit that it does not contradict. -/
def Allows (p : Option Nibble) (d : Nibble) : Prop := ∀ e ∈ p, e = d

theorem accepts_iff {t : Template} {w : Word} : t.accepts w = true ↔ List.Forall₂ Allows t.pattern w.nibbles := by
  rw [List.forall₂_iff_zip, accepts, List.all_eq_true]
  constructor
  · intro h
    refine ⟨t.length_pattern, fun {p d} hmem e he => ?_⟩
    have hall := h (p, d) hmem
    rw [Option.mem_def.1 he] at hall
    simpa using hall
  · rintro ⟨-, h⟩ ⟨p, d⟩ hmem
    cases p with
    | none => rfl
    | some e => simpa using h hmem e rfl

theorem allows_of_meet {p q : Option Nibble} {d : Nibble} (h : meet p q = some d) : Allows p d ∧ Allows q d := by
  cases p <;> cases q <;> simp_all [meet, Allows]

theorem exists_meet {p q : Option Nibble} {d : Nibble} (hp : Allows p d) (hq : Allows q d) :
    ∃ e, meet p q = some e := by
  cases p <;> cases q <;> simp_all [meet, Allows]

theorem allows_of_mapM_meet {ps qs : List (Option Nibble)} {ds : List Nibble} (hlen : ps.length = qs.length)
    (h : (ps.zip qs).mapM (fun (p, q) => meet p q) = some ds) :
    List.Forall₂ Allows ps ds ∧ List.Forall₂ Allows qs ds := by
  induction ps generalizing qs ds with
  | nil =>
    cases qs with
    | nil => cases h; exact ⟨.nil, .nil⟩
    | cons q qs => cases hlen
  | cons p ps ih =>
    cases qs with
    | nil => cases hlen
    | cons q qs =>
      simp only [List.zip_cons_cons, List.mapM_cons, Option.bind_eq_bind, Option.bind_eq_some_iff, Option.pure_def,
        Option.some.injEq] at h
      obtain ⟨d, hd, es, hes, rfl⟩ := h
      obtain ⟨hp, hq⟩ := allows_of_meet hd
      obtain ⟨hps, hqs⟩ := ih (Nat.succ.inj hlen) hes
      exact ⟨.cons hp hps, .cons hq hqs⟩

theorem exists_mapM_meet {ps qs : List (Option Nibble)} {ds : List Nibble} (hp : List.Forall₂ Allows ps ds)
    (hq : List.Forall₂ Allows qs ds) : ∃ es, (ps.zip qs).mapM (fun (p, q) => meet p q) = some es := by
  induction hp generalizing qs with
  | nil => exact ⟨[], by simp⟩
  | cons hp _ ih =>
    cases hq with
    | cons hq hqs =>
      obtain ⟨e, he⟩ := exists_meet hp hq
      obtain ⟨es, hes⟩ := ih hqs
      exact ⟨e :: es, by simp [he, hes]⟩

theorem accepts_of_overlap? {t u : Template} {w : Word} (h : t.overlap? u = some w) :
    t.accepts w = true ∧ u.accepts w = true := by
  obtain ⟨ds, hds, rfl⟩ := Option.map_eq_some_iff.1 h
  obtain ⟨ht, hu⟩ := allows_of_mapM_meet (t.length_pattern.trans u.length_pattern.symm) hds
  have hlen : ds.length = 4 := ht.length_eq.symm.trans t.length_pattern
  rw [accepts_iff, accepts_iff, Word.nibbles_ofNibbles hlen]
  exact ⟨ht, hu⟩

theorem overlap?_eq_none_iff {t u : Template} :
    t.overlap? u = none ↔ ∀ w, ¬(t.accepts w = true ∧ u.accepts w = true) := by
  constructor
  · rintro h w ⟨ht, hu⟩
    obtain ⟨es, hes⟩ := exists_mapM_meet (accepts_iff.1 ht) (accepts_iff.1 hu)
    rw [overlap?, hes] at h
    cases h
  · intro h
    cases hw : t.overlap? u with
    | none => rfl
    | some w => exact absurd (accepts_of_overlap? hw) (h w)

end Template
end Chip8
