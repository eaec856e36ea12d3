import Chip8.Proofs.Captures
import Chip8.Proofs.Tokens
import Chip8.Session

/-! The language of listings. A text is a listing just if its tokens are words, of four hexadecimal digits each,
and it is the listing of their values. -/

namespace Chip8.Listing

/-- Four hexadecimal digits of either case. -/
def IsWord (cs : List Char) : Prop := cs.length = 4 ∧ ∀ c ∈ cs, c.toLower ∈ Hex.digits

def Denotes (cs : List Char) (w : Word) : Prop := IsWord cs ∧ w.toNat = Hex.number cs

/-- The texts that write a row of words. -/
def Renders (text : List Char) (ws : List Word) : Prop := ∃ ts, Scans text ts ∧ List.Forall₂ Denotes ts ws

theorem denotes_iff {t : List Char} {w : Word} : Denotes t w ↔ Word.ofText? (String.ofList t) = some w := by
  rw [Word.ofText?_eq_some_iff, String.toList_ofList]
  constructor
  · rintro ⟨⟨hlength, hdigits⟩, hw⟩
    have hds := Hex.map_digit?_eq hdigits
    rw [Hex.number_eq hds, ← Word.toNat_ofNibbles (by simp [hlength])] at hw
    rw [UInt16.toNat_inj.1 hw, Word.nibbles_ofNibbles (by simp [hlength]), hds]
  · intro h
    refine ⟨⟨?_, Hex.mem_digits_of_map h⟩, ?_⟩
    · rw [← List.length_map Hex.digit?, h, List.length_map, Word.length_nibbles]
    · rw [Hex.number_eq h, Word.number_nibbles]

theorem isWord_iff {t : List Char} : IsWord t ↔ ∃ w, Denotes t w := by
  refine ⟨fun h => ?_, ?_⟩
  · let ds := t.map fun c => Fin.ofNat 16 (Hex.digits.idxOf c.toLower)
    have hds : t.map Hex.digit? = ds.map some := Hex.map_digit?_eq h.2
    have hfour : ds.length = 4 := (List.length_map _).trans h.1
    exact ⟨Word.ofNibbles ds, h, by rw [Word.toNat_ofNibbles (Nat.le_of_eq hfour), Hex.number_eq hds]⟩
  · rintro ⟨w, h⟩
    exact h.1

/-- The values of a row of tokens, or the first of them that is no word. -/
def values (ts : List (List Char)) : Except Failure (List Word) := (ts.map String.ofList).mapM word

theorem parseListing_eq (text : String) :
    Program.parseListing text = (values (words text.toList)).map fun ws => .listing ws.toArray := by
  rw [Program.parseListing, parse, tokens_eq, values]

section Values

variable {t : List Char} {ts us : List (List Char)} {w : Word} {ws : List Word} {f : Failure}

theorem values_append : values (ts ++ us) = (values ts).bind fun v => (values us).map (v ++ ·) := by
  rw [values, List.map_append, List.mapM_append, ← values, ← values]
  cases values ts with
  | error f => rfl
  | ok v => cases values us <;> rfl

theorem values_of_denotes (h : List.Forall₂ Denotes ts ws) : values ts = .ok ws := by
  induction h with
  | nil => rfl
  | cons hw _ ih =>
    rw [values] at ih
    rw [values, List.map_cons, List.mapM_cons, word, denotes_iff.1 hw, ih]
    rfl

theorem exists_denotes (h : ∀ t ∈ ts, IsWord t) : ∃ ws, List.Forall₂ Denotes ts ws := by
  induction ts with
  | nil => exact ⟨[], .nil⟩
  | cons t ts ih =>
    rw [List.forall_mem_cons] at h
    obtain ⟨w, hw⟩ := isWord_iff.1 h.1
    obtain ⟨ws, hws⟩ := ih h.2
    exact ⟨w :: ws, .cons hw hws⟩

theorem values_of_first {before : List (List Char)} (hbefore : ∀ u ∈ before, IsWord u) (ht : ¬IsWord t) :
    values (before ++ t :: ts) = .error (.malformedInstruction (String.ofList t)) := by
  obtain ⟨ws, hws⟩ := exists_denotes hbefore
  have hnone : Word.ofText? (String.ofList t) = none :=
    Option.eq_none_iff_forall_not_mem.2 fun w hw => ht (denotes_iff.2 hw).1
  have hfirst : values (t :: ts) = .error (.malformedInstruction (String.ofList t)) := by
    rw [values, List.map_cons, List.mapM_cons, word, hnone]
    rfl
  rw [values_append, values_of_denotes hws, hfirst]
  rfl

/-- The tokens are all words, or there is a first one that is none. -/
theorem denotes_or_first (ts : List (List Char)) :
    (∃ ws, List.Forall₂ Denotes ts ws) ∨
      ∃ before t after, ts = before ++ t :: after ∧ (∀ u ∈ before, IsWord u) ∧ ¬IsWord t := by
  induction ts with
  | nil => exact .inl ⟨[], .nil⟩
  | cons t ts ih =>
    by_cases ht : IsWord t
    · obtain ⟨w, hw⟩ := isWord_iff.1 ht
      rcases ih with ⟨ws, hws⟩ | ⟨before, u, after, rfl, hbefore, hu⟩
      · exact .inl ⟨w :: ws, .cons hw hws⟩
      · exact .inr ⟨t :: before, u, after, rfl, by simpa [ht] using hbefore, hu⟩
    · exact .inr ⟨[], t, ts, rfl, by simp, ht⟩

end Values

section Parse

variable {text : String} {p : Program} {f : Failure}

theorem parseListing_eq_ok_iff : Program.parseListing text = .ok p ↔
    ∃ ws, List.Forall₂ Denotes (words text.toList) ws ∧ p = .listing ws.toArray := by
  rw [parseListing_eq]
  refine ⟨fun h => ?_, ?_⟩
  · rcases denotes_or_first (words text.toList) with ⟨ws, hws⟩ | ⟨before, t, after, htokens, hbefore, ht⟩
    · rw [values_of_denotes hws] at h
      exact ⟨ws, hws, (Except.ok.inj h).symm⟩
    · rw [htokens, values_of_first hbefore ht] at h
      cases h
  · rintro ⟨ws, hws, rfl⟩
    rw [values_of_denotes hws]
    rfl

theorem parseListing_eq_error_iff : Program.parseListing text = .error f ↔
    ∃ before t after, words text.toList = before ++ t :: after ∧ (∀ u ∈ before, IsWord u) ∧ ¬IsWord t ∧
      f = .malformedInstruction (String.ofList t) := by
  rw [parseListing_eq]
  refine ⟨fun h => ?_, ?_⟩
  · rcases denotes_or_first (words text.toList) with ⟨ws, hws⟩ | ⟨before, t, after, htokens, hbefore, ht⟩
    · rw [values_of_denotes hws] at h
      cases h
    · rw [htokens, values_of_first hbefore ht] at h
      exact ⟨before, t, after, htokens, hbefore, ht, (Except.error.inj h).symm⟩
  · rintro ⟨before, t, after, htokens, hbefore, ht, rfl⟩
    rw [htokens, values_of_first hbefore ht]
    rfl

theorem parseListing_renders_iff {ws : List Word} :
    Program.parseListing text = .ok (.listing ws.toArray) ↔ Renders text.toList ws := by
  simp only [parseListing_eq_ok_iff, Renders, scans_iff]
  constructor
  · rintro ⟨vs, hvs, heq⟩
    rw [List.toArray_inj (Program.listing.inj heq)]
    exact ⟨_, rfl, hvs⟩
  · rintro ⟨_, rfl, hws⟩
    exact ⟨ws, hws, rfl⟩

theorem values_words_lines (a b : String) : values (words (a ++ "\n" ++ b).toList) =
    (values (words a.toList)).bind fun v => (values (words b.toList)).map (v ++ ·) := by
  have htext : (a ++ "\n" ++ b).toList = a.toList ++ '\n' :: b.toList := by simp
  rw [htext, words_append, values_append]

end Parse

/-- A text has one row of tokens, and it parses as the listing of their values, or is refused with the first
that is no word. So the texts that parse as a row of words are the ones that write it, and texts that are joined
by a line feed parse as their words together unless one of them is refused. -/
theorem parseListing_grammar (a : String) :
    (∃ ts, Reads a.toList ts ∧ (∀ us, Reads a.toList us → us = ts) ∧
      ((∃ p, Program.parseListing a = .ok p) ↔ ∀ t ∈ ts, IsWord t) ∧
      (∀ p, Program.parseListing a = .ok p ↔ ∃ ws, List.Forall₂ Denotes ts ws ∧ p = .listing ws.toArray) ∧
      ∀ f, Program.parseListing a = .error f ↔
        ∃ before t after, ts = before ++ t :: after ∧ (∀ u ∈ before, IsWord u) ∧ ¬IsWord t ∧
          f = .malformedInstruction (String.ofList t)) ∧
    (∀ ws, Program.parseListing a = .ok (.listing ws.toArray) ↔ Renders a.toList ws) ∧
    ∀ b, (∀ v w, Program.parseListing a = .ok (.listing v) → Program.parseListing b = .ok (.listing w) →
        Program.parseListing (a ++ "\n" ++ b) = .ok (.listing (v ++ w))) ∧
      (∀ f, Program.parseListing a = .error f → Program.parseListing (a ++ "\n" ++ b) = .error f) ∧
      ∀ p f, Program.parseListing a = .ok p → Program.parseListing b = .error f →
        Program.parseListing (a ++ "\n" ++ b) = .error f := by
  refine ⟨⟨words a.toList, reads_iff.2 rfl, fun us hus => (reads_iff.1 hus).symm, ⟨?_, ?_⟩,
    fun p => parseListing_eq_ok_iff, fun f => parseListing_eq_error_iff⟩, fun ws => parseListing_renders_iff,
    fun b => ?_⟩
  · rintro ⟨p, hp⟩ t ht
    obtain ⟨ws, hws, -⟩ := parseListing_eq_ok_iff.1 hp
    exact ((List.forall₂_and_left _ _).1 hws).1 t ht
  · intro h
    obtain ⟨ws, hws⟩ := exists_denotes h
    exact ⟨_, parseListing_eq_ok_iff.2 ⟨ws, hws, rfl⟩⟩
  · simp only [parseListing_eq, values_words_lines]
    cases values (words a.toList) with
    | error f => simp [Except.bind, Except.map]
    | ok v =>
      cases values (words b.toList) with
      | error f => simp [Except.bind, Except.map]
      | ok w => simp [Except.bind, Except.map]

/-- Both cases, a carriage return, a no-break space and a comment that touches a word. -/
example : Program.parseListing "1a2B;12\r\n#\n\u00a000fF" = .ok (.listing #[0x1A2B, 0x00FF]) := by cbv

end Chip8.Listing
