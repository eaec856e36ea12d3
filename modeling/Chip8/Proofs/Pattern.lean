import Chip8.Proofs.Digits
import Chip8.Template

/-! Which texts are templates. The compiler goes once from left to right and drops the further letters of a
group as it meets them. What it lets through has a description of its own, which says of the whole text that
each wide letter stands in one run and how many nibbles the letters come to. -/

namespace Chip8.Template

/-- How many nibbles a letter stands for, with its whole run if it is wide. -/
def span (c : Char) : Nat := if c = 'k' then 2 else if c = 'n' then 3 else 1

theorem span_pos (c : Char) : 0 < span c := by
  unfold span
  split
  · decide
  · split <;> decide

def letters : List Char := Hex.digits ++ ['x', 'y', 'k', 'n']

/-- The copies of a letter all stand together and are not more than so many. -/
def OneRun (c : Char) (most : Nat) (cs : List Char) : Prop :=
  ∃ before m after, cs = before ++ List.replicate m c ++ after ∧ c ∉ before ∧ c ∉ after ∧ m ≤ most

/-- How many nibbles the letters of a text come to, a wide letter once for all its copies. -/
def nibbles (cs : List Char) : Nat :=
  cs.countP (fun c => c ∈ Hex.digits ∨ c = 'x' ∨ c = 'y') + (if 'k' ∈ cs then 2 else 0) + (if 'n' ∈ cs then 3 else 0)

/-- A text of lower-case letters that is a template. -/
structure Written (cs : List Char) : Prop where
  letters : ∀ c ∈ cs, c ∈ Hex.digits ∨ c = 'x' ∨ c = 'y' ∨ c = 'k' ∨ c = 'n'
  bytes : OneRun 'k' 2 cs
  addresses : OneRun 'n' 3 cs
  full : nibbles cs = 4

namespace OneRun

variable {c d : Char} {most m : Nat} {cs : List Char}

theorem of_notMem (h : c ∉ cs) : OneRun c most cs := ⟨cs, 0, [], by simp, h, by simp, Nat.zero_le _⟩

theorem cons_self_iff : OneRun c most (c :: cs) ↔ ∃ m rest, cs = List.replicate m c ++ rest ∧ c ∉ rest ∧ m < most := by
  constructor
  · rintro ⟨before, m, after, h, hbefore, hafter, hm⟩
    cases before with
    | cons d before =>
      obtain ⟨rfl, -⟩ := List.cons.inj h
      exact absurd List.mem_cons_self hbefore
    | nil =>
      cases m with
      | zero =>
        have hcs : after = c :: cs := h.symm
        exact absurd (hcs ▸ List.mem_cons_self) hafter
      | succ m => exact ⟨m, after, (List.cons.inj h).2, hafter, hm⟩
  · rintro ⟨m, rest, rfl, hrest, hm⟩
    exact ⟨[], m + 1, rest, rfl, List.not_mem_nil, hrest, hm⟩

theorem cons_iff_of_ne (hne : d ≠ c) : OneRun c most (d :: cs) ↔ OneRun c most cs := by
  constructor
  · rintro ⟨before, m, after, h, hbefore, hafter, hm⟩
    cases before with
    | cons e before =>
      exact ⟨before, m, after, (List.cons.inj h).2, fun hc => hbefore (List.mem_cons_of_mem _ hc), hafter, hm⟩
    | nil =>
      cases m with
      | zero =>
        have hcs : after = d :: cs := h.symm
        exact of_notMem fun hc => hafter (hcs ▸ List.mem_cons_of_mem _ hc)
      | succ m => exact absurd (List.cons.inj h).1 hne
  · rintro ⟨before, m, after, rfl, hbefore, hafter, hm⟩
    exact ⟨d :: before, m, after, rfl, by simp [hne.symm, hbefore], hafter, hm⟩

theorem replicate_append_iff_of_ne (hne : d ≠ c) :
    OneRun c most (List.replicate m d ++ cs) ↔ OneRun c most cs := by
  induction m with
  | zero => rfl
  | succ m ih => rw [List.replicate_succ, List.cons_append, cons_iff_of_ne hne, ih]

end OneRun

/-- A lower-case letter opens a segment. -/
structure Opens (c : Char) (s : Segment) : Prop where
  letter : c ∈ letters
  segment : Segment.ofChar? c = some s

namespace Opens

variable {c d : Char} {s : Segment}

theorem of_ofChar? (hlower : c.toLower = c) (h : Segment.ofChar? c = some s) : Opens c s := by
  refine ⟨?_, h⟩
  unfold Segment.ofChar? at h
  split at h
  · decide
  · decide
  · decide
  · decide
  · have hdigit : c ∈ Hex.digits := by
      by_contra hc
      rw [Hex.digit?_eq, hlower, if_neg hc] at h
      cases h
    exact List.mem_append_left _ hdigit

theorem exists_of_mem (h : c ∈ letters) : ∃ s, Opens c s := by
  have hall : ∀ c ∈ letters, (Segment.ofChar? c).isSome := List.all_iff_forall_prop.1 (by decide)
  obtain ⟨s, hs⟩ := Option.isSome_iff_exists.1 (hall c h)
  exact ⟨s, h, hs⟩

theorem width (h : Opens c s) : s.width = span c := by
  have hall : ∀ c ∈ letters, ∀ s ∈ Segment.ofChar? c, s.width = span c :=
      List.all_iff_forall_prop.1 (by decide)
  exact hall c h.letter s h.segment

theorem width_eq_one (h : Opens c s) (hnarrow : ¬1 < s.width) : s.width = 1 := by
  have hpos : 0 < s.width := h.width ▸ span_pos c
  omega

/-- The segment of a wide letter is not that of another letter. -/
theorem injective (hc : Opens c s) (hd : Opens d s) (hwide : 1 < s.width) : d = c := by
  have hall : ∀ c ∈ letters, ∀ s ∈ Segment.ofChar? c, 1 < s.width →
      c = if s = .operand .byte then 'k' else 'n' := List.all_iff_forall_prop.1 (by decide)
  rw [hall c hc.letter s hc.segment hwide, hall d hd.letter s hd.segment hwide]

end Opens

/-- A text spells a row of segments, a run of its letter for each that is wide. -/
inductive Spells : List Char → List Segment → Prop
  | nil : Spells [] []
  | single {c s cs r} (hopens : Opens c s) (hwidth : s.width = 1) (hrest : Spells cs r) : Spells (c :: cs) (s :: r)
  | group {c s m cs r} (hopens : Opens c s) (hwidth : 1 < s.width) (hm : m < s.width) (hlast : c ∉ cs)
      (hrest : Spells cs r) : Spells (c :: (List.replicate m c ++ cs)) (s :: r)

theorem dropRun_eq (c : Char) (n : Nat) (r : List Char) :
    ∃ m ≤ n, r = List.replicate m c ++ dropRun c n r := by
  induction n generalizing r with
  | zero => exact ⟨0, Nat.le_refl 0, rfl⟩
  | succ n ih =>
    cases r with
    | nil => exact ⟨0, Nat.zero_le _, rfl⟩
    | cons d r =>
      by_cases hd : d = c
      · obtain ⟨m, hm, hr⟩ := ih r
        refine ⟨m + 1, Nat.succ_le_succ hm, ?_⟩
        rw [dropRun, if_pos hd, List.replicate_succ, List.cons_append, ← hr, hd]
      · exact ⟨0, Nat.zero_le _, by rw [dropRun, if_neg hd]; rfl⟩

theorem dropRun_replicate_append {c : Char} {m n : Nat} {r : List Char} (hm : m ≤ n) (hr : c ∉ r) :
    dropRun c n (List.replicate m c ++ r) = r := by
  induction m generalizing n with
  | zero =>
    match n, r with
    | 0, _ => rfl
    | _ + 1, [] => rfl
    | n + 1, d :: r =>
      have hd : d ≠ c := fun h => hr (h ▸ List.mem_cons_self)
      exact if_neg hd
  | succ m ih =>
    obtain ⟨n, rfl⟩ := Nat.exists_eq_succ_of_ne_zero (Nat.ne_of_gt (Nat.lt_of_lt_of_le (Nat.succ_pos m) hm))
    rw [List.replicate_succ, List.cons_append, dropRun, if_pos rfl]
    exact ih (Nat.le_of_succ_le_succ hm)

theorem eq_or_mem_of_mem_run {c d : Char} {m : Nat} {cs : List Char} (h : d ∈ c :: (List.replicate m c ++ cs)) :
    d = c ∨ d ∈ cs := by
  simp only [List.mem_cons, List.mem_append, List.mem_replicate] at h
  obtain rfl | ⟨-, rfl⟩ | h := h
  · exact .inl rfl
  · exact .inl rfl
  · exact .inr h

theorem length_lt_run (c : Char) (m : Nat) (cs : List Char) : cs.length < (c :: (List.replicate m c ++ cs)).length := by
  rw [List.length_cons, List.length_append]
  omega

/-- No letter of a text opens one of these segments. -/
def Closed (opened : List Segment) (cs : List Char) : Prop := ∀ c ∈ cs, ∀ s, Opens c s → s ∉ opened

theorem tile_nil_eq_ok_iff {opened : List Segment} {room : Nat} {t : Tiling room} :
    tile opened room [] = .ok t ↔ t.1 = [] := by
  rw [tile]
  constructor
  · intro h
    split at h <;> cases h
    rfl
  · intro h
    have hroom : room = 0 := by rw [← t.2, h, Segment.filled]
    rw [dif_pos hroom]
    exact congrArg Except.ok (Subtype.ext h.symm)

theorem tile_cons_eq_ok_iff {opened : List Segment} {room : Nat} {c : Char} {cs : List Char} {t : Tiling room} :
    tile opened room (c :: cs) = .ok t ↔
      ∃ s, Segment.ofChar? c = some s ∧ s ∉ opened ∧ ∃ (h : s.width ≤ room) (rest : Tiling (room - s.width)),
        tile (if 1 < s.width then s :: opened else opened) (room - s.width) (dropRun c (s.width - 1) cs) = .ok rest ∧
          Tiling.cons s h rest = t := by
  rw [tile]
  cases Segment.ofChar? c with
  | none => simp
  | some s =>
    by_cases hopened : s ∈ opened
    · simp [hopened]
    · by_cases hroom : s.width ≤ room
      · simp only [hopened, hroom, if_false, dite_true, Option.some.injEq, exists_eq_left', not_false_iff, true_and,
          exists_true_left]
        cases tile (if 1 < s.width then s :: opened else opened) (room - s.width) (dropRun c (s.width - 1) cs) <;>
          simp [Except.map]
      · simp [hopened, hroom]

theorem spells_of_tile {opened : List Segment} {room : Nat} {cs : List Char} {t : Tiling room}
    (hlower : ∀ c ∈ cs, c.toLower = c) (h : tile opened room cs = .ok t) : Spells cs t.1 ∧ Closed opened cs := by
  -- on the length, since what is read next is behind the copies that are dropped
  induction hn : cs.length using Nat.strongRecOn generalizing opened room cs with
  | ind n ih =>
  subst hn
  cases cs with
  | nil =>
    rw [tile_nil_eq_ok_iff.1 h]
    exact ⟨.nil, fun c hc => absurd hc List.not_mem_nil⟩
  | cons c cs =>
    obtain ⟨s, hs, hopened, hroom, rest, hrest, rfl⟩ := tile_cons_eq_ok_iff.1 h
    have hopens := Opens.of_ofChar? (hlower c List.mem_cons_self) hs
    obtain ⟨m, hm, hcs⟩ := dropRun_eq c (s.width - 1) cs
    generalize dropRun c (s.width - 1) cs = ds at hrest hcs
    subst hcs
    obtain ⟨hspells, hclosed⟩ := ih ds.length (length_lt_run c m ds) (fun d hd => hlower d (by simp [hd])) hrest rfl
    have hc : ∀ s', Opens c s' → s' ∉ opened := by
      intro s' hs'
      cases hopens.segment.symm.trans hs'.segment
      exact hopened
    by_cases hwide : 1 < s.width
    · rw [if_pos hwide] at hclosed
      -- the segment counts as opened from here on, so no more of its letter follows
      have hlast : c ∉ ds := fun hmem => hclosed c hmem s hopens List.mem_cons_self
      refine ⟨.group hopens hwide (by omega) hlast hspells, fun d hd s' hs' => ?_⟩
      obtain rfl | hd := eq_or_mem_of_mem_run hd
      · exact hc s' hs'
      · exact fun hmem => hclosed d hd s' hs' (List.mem_cons_of_mem _ hmem)
    · rw [if_neg hwide] at hclosed
      obtain rfl : m = 0 := by omega
      refine ⟨.single hopens (hopens.width_eq_one hwide) hspells, fun d hd s' hs' => ?_⟩
      obtain rfl | hd := List.mem_cons.1 hd
      · exact hc s' hs'
      · exact hclosed d hd s' hs'

theorem tile_of_rest {opened : List Segment} {room : Nat} {c : Char} {cs : List Char} {s : Segment} {r : List Segment}
    (hopens : Opens c s) (hs : s ∉ opened) (hroom : Segment.filled (s :: r) = room)
    (hrest : ∀ h, tile (if 1 < s.width then s :: opened else opened) (room - s.width) (dropRun c (s.width - 1) cs) =
      .ok ⟨r, h⟩) : tile opened room (c :: cs) = .ok ⟨s :: r, hroom⟩ := by
  rw [Segment.filled] at hroom
  have hle : s.width ≤ room := by omega
  have hfilled : Segment.filled r = room - s.width := by omega
  exact tile_cons_eq_ok_iff.2 ⟨s, hopens.segment, hs, hle, ⟨r, hfilled⟩, hrest hfilled, rfl⟩

theorem tile_of_spells {cs : List Char} {r : List Segment} (h : Spells cs r) {opened : List Segment}
    (hclosed : Closed opened cs) {room : Nat} (hroom : Segment.filled r = room) :
    tile opened room cs = .ok ⟨r, hroom⟩ := by
  induction h generalizing opened room with
  | nil => exact tile_nil_eq_ok_iff.2 rfl
  | @single c s cs r hopens hwidth hrest ih =>
    refine tile_of_rest hopens (hclosed c List.mem_cons_self s hopens) hroom fun hfilled => ?_
    rw [if_neg (by omega), show s.width - 1 = 0 by omega, show dropRun c 0 cs = cs from rfl]
    exact ih (fun d hd => hclosed d (List.mem_cons_of_mem _ hd)) hfilled
  | @group c s m cs r hopens hwidth hm hlast hrest ih =>
    refine tile_of_rest hopens (hclosed c List.mem_cons_self s hopens) hroom fun hfilled => ?_
    rw [if_pos hwidth, dropRun_replicate_append (by omega) hlast]
    refine ih (fun d hd s' hs' => ?_) hfilled
    have hne : s' ≠ s := by
      rintro rfl
      exact hlast (hopens.injective hs' hwidth ▸ hd)
    exact List.not_mem_cons_of_ne_of_not_mem hne (hclosed d (by simp [hd]) s' hs')

theorem compile_eq_ok_iff {source : String} {t : Template} :
    compile source = .ok t ↔ t.source = source ∧ Spells (source.toList.map Char.toLower) t.segments := by
  have hlower : ∀ c ∈ source.toList.map Char.toLower, c.toLower = c := by
    intro c hc
    obtain ⟨d, -, rfl⟩ := List.mem_map.1 hc
    exact Hex.toLower_toLower d
  obtain ⟨source', r, hr⟩ := t
  unfold compile
  constructor
  · intro h
    cases htile : tile [] 4 (source.toList.map Char.toLower) with
    | error defect => rw [htile] at h; cases h
    | ok t =>
      rw [htile] at h
      cases h
      exact ⟨rfl, (spells_of_tile hlower htile).1⟩
  · rintro ⟨rfl, h⟩
    rw [tile_of_spells h (fun _ _ _ _ => List.not_mem_nil) hr]
    rfl

theorem runs_of_spells {cs : List Char} {r : List Segment} (h : Spells cs r) :
    (∀ c ∈ cs, c ∈ letters) ∧ ∀ c, 1 < span c → OneRun c (span c) cs := by
  induction h with
  | nil => exact ⟨fun c hc => absurd hc List.not_mem_nil, fun c _ => .of_notMem List.not_mem_nil⟩
  | @single c s cs r hopens hwidth hrest ih =>
    refine ⟨List.forall_mem_cons.2 ⟨hopens.letter, ih.1⟩, fun d hd => ?_⟩
    have hne : c ≠ d := by
      rintro rfl
      rw [← hopens.width, hwidth] at hd
      exact Nat.lt_irrefl 1 hd
    exact (OneRun.cons_iff_of_ne hne).2 (ih.2 d hd)
  | @group c s m cs r hopens hwidth hm hlast hrest ih =>
    constructor
    · intro d hd
      obtain rfl | hd := eq_or_mem_of_mem_run hd
      · exact hopens.letter
      · exact ih.1 d hd
    · intro d hd
      by_cases hne : c = d
      · subst hne
        exact OneRun.cons_self_iff.2 ⟨m, cs, rfl, hlast, hopens.width ▸ hm⟩
      · rw [OneRun.cons_iff_of_ne hne, OneRun.replicate_append_iff_of_ne hne]
        exact ih.2 d hd

/-- A text is spelled from the left, a run at a time, and what remains still has its letters in runs. -/
theorem exists_spells {cs : List Char} (hletters : ∀ c ∈ cs, c ∈ letters)
    (hruns : ∀ c, 1 < span c → OneRun c (span c) cs) : ∃ r, Spells cs r := by
  induction hn : cs.length using Nat.strongRecOn generalizing cs with
  | ind n ih =>
  subst hn
  cases cs with
  | nil => exact ⟨[], .nil⟩
  | cons c cs =>
    obtain ⟨s, hopens⟩ := Opens.exists_of_mem (hletters c List.mem_cons_self)
    by_cases hwide : 1 < span c
    · obtain ⟨m, rest, rfl, hlast, hm⟩ := OneRun.cons_self_iff.1 (hruns c hwide)
      have hrest : ∀ d, 1 < span d → OneRun d (span d) rest := by
        intro d hd
        by_cases hne : c = d
        · exact .of_notMem (hne ▸ hlast)
        · have hd := hruns d hd
          rwa [OneRun.cons_iff_of_ne hne, OneRun.replicate_append_iff_of_ne hne] at hd
      obtain ⟨r, hr⟩ := ih rest.length (length_lt_run c m rest) (fun d hd => hletters d (by simp [hd])) hrest rfl
      rw [← hopens.width] at hwide hm
      exact ⟨s :: r, .group hopens hwide hm hlast hr⟩
    · have hrest : ∀ d, 1 < span d → OneRun d (span d) cs := by
        intro d hd
        have hne : c ≠ d := by
          rintro rfl
          exact hwide hd
        exact (OneRun.cons_iff_of_ne hne).1 (hruns d hd)
      obtain ⟨r, hr⟩ := ih cs.length (by simp) (fun d hd => hletters d (List.mem_cons_of_mem _ hd)) hrest rfl
      rw [← hopens.width] at hwide
      exact ⟨s :: r, .single hopens (hopens.width_eq_one hwide) hr⟩

theorem filled_eq_nibbles {cs : List Char} {r : List Segment} (h : Spells cs r) : Segment.filled r = nibbles cs := by
  induction h with
  | nil => rfl
  | @single c s cs r hopens hwidth hrest ih =>
    have hall : ∀ c ∈ letters, span c = 1 → (c ∈ Hex.digits ∨ c = 'x' ∨ c = 'y') ∧ c ≠ 'k' ∧ c ≠ 'n' :=
      List.all_iff_forall_prop.1 (by decide)
    obtain ⟨hnarrow, hk, hn⟩ := hall c hopens.letter (hopens.width ▸ hwidth)
    rw [Segment.filled, hwidth, ih, nibbles, nibbles, List.countP_cons_of_pos (by simpa using hnarrow)]
    simp only [List.mem_cons, hk.symm, hn.symm, false_or]
    omega
  | @group c s m cs r hopens hwidth hm hlast hrest ih =>
    have hall : ∀ c ∈ letters, 1 < span c → c = 'k' ∨ c = 'n' :=
      List.all_iff_forall_prop.1 (by decide)
    rw [Segment.filled, hopens.width, ih, nibbles, nibbles]
    obtain rfl | rfl := hall c hopens.letter (hopens.width ▸ hwidth)
    · simp [List.countP_append, List.countP_replicate, hlast, List.mem_replicate, span, Hex.digits]
      omega
    · simp [List.countP_append, List.countP_replicate, hlast, List.mem_replicate, span, Hex.digits]
      omega

theorem compile_iff_written {source : String} :
    (∃ t, compile source = .ok t) ↔ Written (source.toList.map Char.toLower) := by
  constructor
  · rintro ⟨t, ht⟩
    have hspells := (compile_eq_ok_iff.1 ht).2
    obtain ⟨hletters, hruns⟩ := runs_of_spells hspells
    have hall : ∀ c ∈ letters, c ∈ Hex.digits ∨ c = 'x' ∨ c = 'y' ∨ c = 'k' ∨ c = 'n' :=
      List.all_iff_forall_prop.1 (by decide)
    exact ⟨fun c hc => hall c (hletters c hc), hruns 'k' (by decide), hruns 'n' (by decide),
      (filled_eq_nibbles hspells).symm.trans t.full⟩
  · rintro ⟨hletters, hbytes, haddresses, hfull⟩
    have hruns : ∀ c, 1 < span c → OneRun c (span c) (source.toList.map Char.toLower) := by
      intro c hc
      by_cases hk : c = 'k'
      · exact hk ▸ hbytes
      · by_cases hn : c = 'n'
        · exact hn ▸ haddresses
        · rw [span, if_neg hk, if_neg hn] at hc
          exact absurd hc (Nat.lt_irrefl 1)
    obtain ⟨r, hr⟩ := exists_spells (fun c hc => by simpa [letters] using hletters c hc) hruns
    exact ⟨⟨source, r, (filled_eq_nibbles hr).trans hfull⟩, compile_eq_ok_iff.2 ⟨rfl, hr⟩⟩

end Chip8.Template
