import Chip8.Proofs.Digits
import Mathlib.Algebra.Group.Nat.Defs

/-! Hexadecimal numerals are read back as the numbers that they write, in either case and however far they
are padded. So no two numbers are written alike in the same way. -/

namespace Chip8.Hex

theorem number_concat (cs : List Char) (c : Char) : number (cs ++ [c]) = 16 * number cs + digits.idxOf c.toLower := by
  unfold number
  rw [List.foldl_append, List.foldl_cons, List.foldl_nil]

theorem number_leftpad (w : Nat) (cs : List Char) : number (cs.leftpad w '0') = number cs := by
  have hzero : ∀ k, number (List.replicate k '0') = 0 := by
    intro k
    induction k with
    | zero => rfl
    | succ k ih => rw [List.replicate_succ', number_concat, ih]; rfl
  unfold number at hzero ⊢
  rw [List.leftpad, List.foldl_append, hzero]

/-- Every digit of a number is worth its place among the sixteen, so that the whole is worth the number. -/
theorem number_toDigits {f : Char → Char} (hf : ∀ k < 16, digits.idxOf (f (Nat.digitChar k)).toLower = k) (n : Nat) :
    number ((Nat.toDigits 16 n).map f) = n := by
  induction n using Nat.strongRecOn with
  | ind n ih =>
    by_cases hn : n < 16
    · rw [Nat.toDigits_of_lt_base hn, List.map_singleton, ← List.nil_append [_], number_concat, hf n hn]
      exact Nat.zero_add n
    · have hdiv : n / 16 < n := by omega
      rw [Nat.toDigits_of_base_le (by decide) (Nat.le_of_not_lt hn), List.map_append, List.map_singleton, number_concat,
        ih _ hdiv, hf _ (Nat.mod_lt n (by decide))]
      exact Nat.div_add_mod n 16

theorem number_lower (w n : Nat) : number (lower w n).toList = n := by
  have hf : ∀ k < 16, digits.idxOf (id (Nat.digitChar k)).toLower = k := by decide
  rw [lower, String.toList_ofList, number_leftpad, ← List.map_id (Nat.toDigits 16 n)]
  exact number_toDigits hf n

theorem lower_injective (w : Nat) : Function.Injective (lower w) := by
  intro n k h
  rw [← number_lower w n, h, number_lower]

/-- A number that fits a width fills it. -/
theorem length_lower {w n : Nat} (hw : 0 < w) (h : n < 16 ^ w) : (lower w n).length = w := by
  have hle := (Nat.length_toDigits_le_iff (by decide) hw).2 h
  rw [lower, String.length_ofList, List.length_leftpad, Nat.max_eq_left hle]

theorem number_upper (w n : Nat) : number (upper w n).toList = n := by
  have hf : ∀ k < 16, digits.idxOf (Nat.digitChar k).toUpper.toLower = k := by decide
  rw [upper, String.toList_ofList, number_leftpad]
  exact number_toDigits hf n

theorem length_upper {w n : Nat} (hw : 0 < w) (h : n < 16 ^ w) : (upper w n).length = w := by
  have hle := (Nat.length_toDigits_le_iff (by decide) hw).2 h
  rw [upper, String.length_ofList, List.length_leftpad, List.length_map, Nat.max_eq_left hle]

theorem le_length_upper (w n : Nat) : w ≤ (upper w n).length := by
  rw [upper, String.length_ofList, List.length_leftpad]
  exact Nat.le_max_left _ _

theorem forall_mem_toDigits {p : Char → Prop} (h : ∀ k < 16, p (Nat.digitChar k)) (n : Nat) :
    ∀ c ∈ Nat.toDigits 16 n, p c := by
  induction n using Nat.strongRecOn with
  | ind n ih =>
    by_cases hn : n < 16
    · rw [Nat.toDigits_of_lt_base hn]
      exact List.forall_mem_singleton.2 (h n hn)
    · have hdiv : n / 16 < n := by omega
      rw [Nat.toDigits_of_base_le (by decide) (Nat.le_of_not_lt hn)]
      exact List.forall_mem_append.2 ⟨ih _ hdiv, List.forall_mem_singleton.2 (h _ (Nat.mod_lt n (by decide)))⟩

theorem forall_mem_upper {p : Char → Prop} (h : ∀ k < 16, p (Nat.digitChar k).toUpper) (w n : Nat) :
    ∀ c ∈ (upper w n).toList, p c := by
  rw [upper, String.toList_ofList]
  refine List.forall_mem_append.2 ⟨fun c hc => ?_, List.forall_mem_map.2 ?_⟩
  · rw [List.eq_of_mem_replicate hc]
    exact h 0 (by decide)
  · exact forall_mem_toDigits (p := fun c => p c.toUpper) h n

end Chip8.Hex
