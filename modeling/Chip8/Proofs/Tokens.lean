import Chip8.Listing
import Mathlib.Data.List.Forall2
import Mathlib.Data.List.TakeWhile

/-! The tokens of a text. They are found line by line, each line without its comment and split at white space, or
in one pass with white space and comments between them, and both ways there is one row of them. -/

namespace Chip8

theorem pieces_eq_splitOnP (p : Char → Bool) (text : List Char) : pieces p text = text.splitOnP p := by
  induction text with
  | nil => rfl
  | cons c text ih =>
    rw [pieces_cons, ih, List.splitOnP_cons_eq_if_modifyHead]
    have hne := List.splitOnP_ne_nil p text
    split
    · rfl
    · cases h : text.splitOnP p with
      | nil => exact absurd h hne
      | cons l ls => rfl

namespace Listing

/-! ### What there is to find -/

/-- The lines of a text. A line ends at a line feed and at nothing else, and the last one may go without. -/
inductive Lines : List Char → List (List Char) → Prop
  | last {line} : '\n' ∉ line → Lines line [line]
  | cons {line text lines} : '\n' ∉ line → Lines text lines → Lines (line ++ '\n' :: text) (line :: lines)

def Opener (c : Char) : Prop := c = '#' ∨ c = ';'

/-- A line, and that line up to the first character that opens a comment. -/
inductive Uncommented : List Char → List Char → Prop
  | plain {code} : (∀ c ∈ code, ¬Opener c) → Uncommented code code
  | comment {code c note} : (∀ d ∈ code, ¬Opener d) → Opener c → Uncommented (code ++ c :: note) code

/-- What white space leaves of a text. -/
inductive Split : List Char → List (List Char) → Prop
  | nil : Split [] []
  | blank {c cs ts} : isBlank c → Split cs ts → Split (c :: cs) ts
  | token {t cs ts} : t ≠ [] → (∀ c ∈ t, ¬isBlank c) → (∀ c ∈ cs.head?, isBlank c) → Split cs ts →
      Split (t ++ cs) (t :: ts)

/-- The tokens of a text, found line by line. -/
def Reads (text : List Char) (ts : List (List Char)) : Prop :=
  ∃ lines codes rows, Lines text lines ∧ List.Forall₂ Uncommented lines codes ∧ List.Forall₂ Split codes rows ∧
    ts = rows.flatten

/-- The tokens of a text, found in one pass. White space and comments may stand between tokens, a comment goes on
to the end of its line, and a token up to the next of the two. -/
inductive Scans : List Char → List (List Char) → Prop
  | nil : Scans [] []
  | blank {c cs ts} : isBlank c → Scans cs ts → Scans (c :: cs) ts
  | last {c note} : Opener c → '\n' ∉ note → Scans (c :: note) []
  | comment {c note cs ts} : Opener c → '\n' ∉ note → Scans cs ts → Scans (c :: note ++ '\n' :: cs) ts
  | token {t cs ts} : t ≠ [] → (∀ c ∈ t, ¬isBlank c ∧ ¬Opener c) → (∀ c ∈ cs.head?, isBlank c ∨ Opener c) →
      Scans cs ts → Scans (t ++ cs) (t :: ts)

/-! ### Tokens in one pass -/

instance (c : Char) : Decidable (Opener c) := inferInstanceAs (Decidable (_ ∨ _))

theorem opensComment_eq (c : Char) : opensComment c = decide (Opener c) := by
  rw [Bool.eq_iff_iff, decide_eq_true_iff]
  simp [opensComment, Opener]

theorem not_opener_of_isBlank {c : Char} (h : isBlank c) : ¬Opener c := by
  rintro (rfl | rfl) <;> revert h <;> decide

/-- What white space leaves of a text, as it is cut. -/
def split (cs : List Char) : List (List Char) := (pieces isBlank cs).filter (!·.isEmpty)

/-- The tokens of one line. -/
def row (line : List Char) : List (List Char) := split (code line)

/-- The tokens of a text as rows of characters. -/
def words (text : List Char) : List (List Char) := (pieces (· == '\n') text).flatMap row

theorem tokens_eq (text : String) : tokens text = (words text.toList).map String.ofList := by
  simp only [tokens, words, row, split, List.map_flatMap]

section Row

variable {t cs : List Char} {c : Char}

theorem split_blank (h : isBlank c) : split (c :: cs) = split cs := by
  rw [split, pieces_cons, if_pos h]
  rfl

theorem split_token (ht : t ≠ []) (hplain : ∀ c ∈ t, ¬isBlank c) (hcs : ∀ c ∈ cs.head?, isBlank c) :
    split (t ++ cs) = t :: split cs := by
  have hcut : ∀ c ∈ t, isBlank c = false := by simpa using hplain
  cases cs with
  | nil => simp [split, pieces_eq_splitOnP, List.splitOnP_eq_singleton hcut, ht]
  | cons c cs =>
    have hc := hcs c rfl
    rw [split_blank hc, split, pieces_eq_splitOnP, List.splitOnP_append_cons_of_forall_mem hcut c hc, split,
      pieces_eq_splitOnP, List.filter_cons_of_pos (by simpa using ht)]

theorem code_cons_of_not (h : ¬Opener c) : code (c :: cs) = c :: code cs := by
  simp [code, opensComment_eq, h]

theorem code_append (h : ∀ c ∈ t, ¬Opener c) : code (t ++ cs) = t ++ code cs :=
  List.takeWhile_append_of_pos fun c hc => by simp [opensComment_eq, h c hc]

theorem code_opener (h : Opener c) : code (c :: cs) = [] := by
  simp [code, opensComment_eq, h]

theorem row_blank (h : isBlank c) : row (c :: cs) = row cs := by
  rw [row, code_cons_of_not (not_opener_of_isBlank h), split_blank h, row]

theorem row_opener (h : Opener c) : row (c :: cs) = [] := by
  rw [row, code_opener h]
  rfl

theorem row_token (ht : t ≠ []) (hplain : ∀ c ∈ t, ¬isBlank c ∧ ¬Opener c)
    (hcs : ∀ c ∈ cs.head?, isBlank c ∨ Opener c) : row (t ++ cs) = t :: row cs := by
  have hcode : ∀ c ∈ (code cs).head?, isBlank c := by
    cases cs with
    | nil => nofun
    | cons c cs =>
      rcases hcs c rfl with hc | hc
      · simp [code_cons_of_not (not_opener_of_isBlank hc), hc]
      · simp [code_opener hc]
  rw [row, code_append fun c hc => (hplain c hc).2, split_token ht (fun c hc => (hplain c hc).1) hcode, row]

end Row

theorem words_append (a b : List Char) : words (a ++ '\n' :: b) = words a ++ words b := by
  simp only [words, pieces_eq_splitOnP]
  rw [List.splitOnP_append_cons a b rfl, List.flatMap_append]

theorem uncut_of_not_mem {line : List Char} (h : '\n' ∉ line) : ∀ c ∈ line, (c == '\n') = false := by
  intro c hc
  simpa using ne_of_mem_of_not_mem hc h

theorem words_line {line : List Char} (h : '\n' ∉ line) : words line = row line := by
  rw [words, pieces_eq_splitOnP, List.splitOnP_eq_singleton (uncut_of_not_mem h), List.flatMap_singleton]

/-- What stands before a text on its first line changes only that line. -/
theorem exists_words_append (cs : List Char) :
    ∃ line rest, line <+: cs ∧ ∀ before, '\n' ∉ before → words (before ++ cs) = row (before ++ line) ++ rest := by
  by_cases h : '\n' ∈ cs
  · obtain ⟨line, text, rfl, hline⟩ := List.eq_append_cons_of_mem h
    refine ⟨line, words text, List.prefix_append _ _, fun before hbefore => ?_⟩
    rw [← List.append_assoc, words_append, words_line (by simp [hbefore, hline])]
  · exact ⟨cs, [], List.prefix_rfl, fun before hbefore => by
      rw [words_line (by simp [hbefore, h]), List.append_nil]⟩

section Words

variable {t cs note : List Char} {c : Char}

theorem words_blank (h : isBlank c) : words (c :: cs) = words cs := by
  by_cases hc : c = '\n'
  · subst hc
    exact words_append [] cs
  · obtain ⟨line, rest, -, hwords⟩ := exists_words_append cs
    have hfull := hwords [c] (by simpa using Ne.symm hc)
    rw [List.singleton_append, List.singleton_append, row_blank h] at hfull
    rw [hfull]
    exact (hwords [] (by simp)).symm

theorem not_mem_comment (hc : Opener c) (hnote : '\n' ∉ note) : '\n' ∉ c :: note := by
  rintro (_ | ⟨_, hmem⟩)
  · revert hc
    decide
  · exact hnote hmem

theorem words_last (hc : Opener c) (hnote : '\n' ∉ note) : words (c :: note) = [] := by
  rw [words_line (not_mem_comment hc hnote), row_opener hc]

theorem words_token (ht : t ≠ []) (hplain : ∀ c ∈ t, ¬isBlank c ∧ ¬Opener c)
    (hcs : ∀ c ∈ cs.head?, isBlank c ∨ Opener c) : words (t ++ cs) = t :: words cs := by
  obtain ⟨line, rest, hprefix, hwords⟩ := exists_words_append cs
  have hline : ∀ c ∈ line.head?, isBlank c ∨ Opener c := by
    intro c hc
    obtain ⟨after, rfl⟩ := hprefix
    exact hcs c (by simp [List.head?_append, Option.mem_def.1 hc])
  have hbreak : '\n' ∉ t := fun hmem => (hplain _ hmem).1 (by decide)
  rw [hwords t hbreak, row_token ht hplain hline, List.cons_append]
  exact congrArg _ (hwords [] (by simp)).symm

end Words

theorem Scans.words_eq {text : List Char} {ts : List (List Char)} (h : Scans text ts) : words text = ts := by
  induction h with
  | nil => rfl
  | blank hc _ ih => rw [words_blank hc, ih]
  | last hc hnote => exact words_last hc hnote
  | comment hc hnote _ ih => rw [words_append, words_last hc hnote, ih, List.nil_append]
  | token ht hplain hcs _ ih => rw [words_token ht hplain hcs, ih]

/-- The longest row of characters with a property that a text starts with. -/
theorem exists_longest (p : Char → Prop) [DecidablePred p] {c : Char} (hc : p c) (cs : List Char) :
    ∃ t rest, c :: cs = t ++ rest ∧ t ≠ [] ∧ (∀ d ∈ t, p d) ∧ (∀ d ∈ rest.head?, ¬p d) ∧
      rest.length < (c :: cs).length := by
  refine ⟨(c :: cs).takeWhile (decide <| p ·), (c :: cs).dropWhile (decide <| p ·),
    List.takeWhile_append_dropWhile.symm, by simp [hc], fun d hd => ?_, fun d hd => ?_, ?_⟩
  · simpa using List.mem_takeWhile_imp hd
  · have hnot := List.head?_dropWhile_not (decide <| p ·) (c :: cs)
    rw [Option.mem_def.1 hd] at hnot
    simpa using hnot
  · rw [List.dropWhile_cons_of_pos (by simpa using hc)]
    exact Nat.lt_succ_of_le (List.length_dropWhile_le _ _)

theorem scans_words (text : List Char) : Scans text (words text) := by
  induction hn : text.length using Nat.strong_induction_on generalizing text with
  | _ n ih =>
  subst hn
  cases text with
  | nil => exact .nil
  | cons c cs =>
    by_cases hblank : isBlank c
    · rw [words_blank hblank]
      exact .blank hblank (ih _ (by simp) cs rfl)
    by_cases hopener : Opener c
    · by_cases hbreak : '\n' ∈ cs
      · obtain ⟨note, cs, rfl, hnote⟩ := List.eq_append_cons_of_mem hbreak
        rw [← List.cons_append, words_append, words_last hopener hnote]
        exact .comment hopener hnote (ih _ (by simp; omega) cs rfl)
      · rw [words_last hopener hbreak]
        exact .last hopener hbreak
    · obtain ⟨t, rest, heq, ht, hplain, hstop, hshorter⟩ :=
        exists_longest (fun d => ¬isBlank d ∧ ¬Opener d) ⟨hblank, hopener⟩ cs
      have hbreaks : ∀ d ∈ rest.head?, isBlank d ∨ Opener d := fun d hd => or_iff_not_and_not.2 (hstop d hd)
      rw [heq, words_token ht hplain hbreaks]
      exact .token ht hplain hbreaks (ih _ hshorter rest rfl)

theorem scans_iff {text : List Char} {ts : List (List Char)} : Scans text ts ↔ words text = ts :=
  ⟨Scans.words_eq, fun h => h ▸ scans_words text⟩

/-! ### Tokens by lines -/

theorem lines_iff {text : List Char} {lines : List (List Char)} :
    Lines text lines ↔ pieces (· == '\n') text = lines := by
  rw [pieces_eq_splitOnP]
  refine ⟨fun h => ?_, ?_⟩
  · induction h with
    | last hline => rw [List.splitOnP_eq_singleton (uncut_of_not_mem hline)]
    | cons hline _ ih => rw [List.splitOnP_append_cons_of_forall_mem (uncut_of_not_mem hline) _ rfl, ih]
  · rintro rfl
    induction hn : text.length using Nat.strong_induction_on generalizing text with
    | _ n ih =>
    subst hn
    by_cases hbreak : '\n' ∈ text
    · obtain ⟨line, text, rfl, hline⟩ := List.eq_append_cons_of_mem hbreak
      rw [List.splitOnP_append_cons_of_forall_mem (uncut_of_not_mem hline) _ rfl]
      exact .cons hline (ih _ (by simp; omega) rfl)
    · rw [List.splitOnP_eq_singleton (uncut_of_not_mem hbreak)]
      exact .last hbreak

theorem uncommented_iff {line cs : List Char} : Uncommented line cs ↔ code line = cs := by
  refine ⟨fun h => ?_, ?_⟩
  · cases h with
    | plain hcode =>
      have hline : code (line ++ []) = line ++ code [] := code_append hcode
      simpa [code] using hline
    | comment hcode hc => rw [code_append hcode, code_opener hc, List.append_nil]
  · rintro rfl
    have hcode : ∀ c ∈ code line, ¬Opener c := fun c hc => by
      simpa [opensComment_eq] using List.mem_takeWhile_imp hc
    have hline : code line ++ line.dropWhile (!opensComment ·) = line := List.takeWhile_append_dropWhile
    cases hrest : line.dropWhile (!opensComment ·) with
    | nil =>
      rw [hrest, List.append_nil] at hline
      rw [hline] at hcode ⊢
      exact .plain hcode
    | cons c note =>
      have hc := List.head?_dropWhile_not (!opensComment ·) line
      rw [hrest] at hc hline
      nth_rewrite 1 [← hline]
      exact .comment hcode (by simpa [opensComment_eq] using hc)

theorem split_iff {cs : List Char} {ts : List (List Char)} : Split cs ts ↔ split cs = ts := by
  refine ⟨fun h => ?_, ?_⟩
  · induction h with
    | nil => rfl
    | blank hc _ ih => rw [split_blank hc, ih]
    | token ht hplain hcs _ ih => rw [split_token ht hplain hcs, ih]
  · rintro rfl
    induction hn : cs.length using Nat.strong_induction_on generalizing cs with
    | _ n ih =>
    subst hn
    cases cs with
    | nil => exact .nil
    | cons c cs =>
      by_cases hc : isBlank c
      · rw [split_blank hc]
        exact .blank hc (ih _ (by simp) rfl)
      · obtain ⟨t, rest, heq, ht, hplain, hstop, hshorter⟩ := exists_longest (¬isBlank ·) hc cs
        have hbreaks : ∀ d ∈ rest.head?, isBlank d := fun d hd => not_not.1 (hstop d hd)
        rw [heq, split_token ht hplain hbreaks]
        exact .token ht hplain hbreaks (ih _ hshorter rfl)

theorem forall₂_iff_map_eq {α β : Type} {R : α → β → Prop} {f : α → β} (h : ∀ a b, R a b ↔ f a = b) {as : List α}
    {bs : List β} : List.Forall₂ R as bs ↔ as.map f = bs := by
  have hR : R = fun a b => f a = b := funext₂ fun _ _ => propext (h _ _)
  rw [← List.forall₂_eq_eq_eq, List.forall₂_map_left_iff, hR]

theorem reads_iff {text : List Char} {ts : List (List Char)} : Reads text ts ↔ words text = ts := by
  have hcodes {lines codes} : List.Forall₂ Uncommented lines codes ↔ lines.map code = codes :=
    forall₂_iff_map_eq @uncommented_iff
  have hrows {codes rows} : List.Forall₂ Split codes rows ↔ codes.map split = rows :=
    forall₂_iff_map_eq @split_iff
  simp only [Reads, lines_iff, hcodes, hrows]
  constructor
  · rintro ⟨_, _, _, rfl, rfl, rfl, rfl⟩
    rw [List.map_map]
    exact List.flatMap_def
  · rintro rfl
    refine ⟨_, _, _, rfl, rfl, rfl, ?_⟩
    rw [List.map_map]
    exact List.flatMap_def

end Listing
end Chip8
