import GradingScript.Proofs.Similarity.Blocks
import Mathlib.Algebra.Order.Field.Basic
import Mathlib.Algebra.Order.Field.Rat
import Mathlib.Data.Nat.Cast.Order.Field

/-!
# Scores of similarity

A score is a share of the characters of two texts, so it is a fraction from 0 to 1.  Only equal
texts have all their characters in common, so only they score 1, however long they are and whatever
characters the search leaves out.
-/

namespace GradingScript.Similarity

/-- Blocks of two texts from left to right.  Each is not empty, begins behind the one before it in
either text, and holds the same characters in both, which together are a common subsequence. -/
structure IsMatching (first second : List Char) (found : List Block) : Prop where
  increasing : found.Pairwise fun x y => x.left < y.left ∧ x.right < y.right
  separate : found.Pairwise fun x y =>
    x.left + x.size ≤ y.left ∧ x.right + x.size ≤ y.right
  pos : ∀ block ∈ found, 0 < block.size
  inside : ∀ block ∈ found,
    block.left + block.size ≤ first.length ∧ block.right + block.size ≤ second.length
  alike : ∀ block ∈ found, ∀ k < block.size, first[block.left + k]? = second[block.right + k]?
  subsequence : ∃ common : List Char, common.Sublist first ∧ common.Sublist second ∧
    common.length = (found.map Block.size).sum

theorem Aligned.isMatching {first second : List Char} {found : List Block}
    (h : Aligned 0 0 first second found) : IsMatching first second found := by
  have hshared : ∀ block ∈ found, 0 < block.size ∧ block.IsShared first second := by
    intro block hblock
    obtain ⟨hpos, l, r, hleft, hright, hshared⟩ := h.isShared block hblock
    rw [Nat.zero_add] at hleft hright
    subst hleft hright
    exact ⟨hpos, hshared⟩
  refine ⟨?_, h.pairwise, fun block hblock => (hshared block hblock).1,
    fun block hblock => (hshared block hblock).2.end_le,
    fun block hblock k hk => (hshared block hblock).2.getElem?_eq hk, h.exists_common⟩
  refine h.pairwise.imp_of_mem fun {x y} hx _ hxy => ?_
  have hpos := (hshared x hx).1
  omega

/-- A common subsequence as long as both texts is all of them. -/
theorem IsMatching.eq_of_sum {first second : List Char} {found : List Block}
    (h : IsMatching first second found)
    (hsum : 2 * (found.map Block.size).sum = first.length + second.length) : first = second := by
  obtain ⟨common, hfirst, hsecond, hlength⟩ := h.subsequence
  have hle := hfirst.length_le
  have hle' := hsecond.length_le
  have hall : common = first := hfirst.eq_of_length (by omega)
  have hall' : common = second := hsecond.eq_of_length (by omega)
  rw [← hall, hall']

theorem IsMatching.sum_le {first second : List Char} {found : List Block}
    (h : IsMatching first second found) :
    2 * (found.map Block.size).sum ≤ first.length + second.length := by
  obtain ⟨common, hfirst, hsecond, hlength⟩ := h.subsequence
  have hle := hfirst.length_le
  have hle' := hsecond.length_le
  omega

/-- The blocks that two texts have in common. -/
def blocksOf (a b : String) : List Block :=
  blocks (isCommon b.toList) 0 0 a.toList b.toList

theorem matched_eq_sum (a b : String) : matched a b = ((blocksOf a b).map Block.size).sum := by
  rw [matched, ← blocksOf]
  generalize blocksOf a b = found
  induction found with
  | nil => rfl
  | cons block behind ih => rw [List.foldr_cons, ih, List.map_cons, List.sum_cons]

/-- A score as a fraction. -/
def Score.value (s : Score) : ℚ :=
  s.num / s.den

/-- Texts that are not equal are not both empty. -/
theorem length_pos_of_ne {a b : String} (h : a ≠ b) : 0 < a.toList.length + b.toList.length := by
  rw [Nat.pos_iff_ne_zero]
  intro hzero
  have ha : a.toList = [] := List.length_eq_zero_iff.1 (by omega)
  have hb : b.toList = [] := List.length_eq_zero_iff.1 (by omega)
  exact h (String.toList_injective (ha.trans hb.symm))

/-- The score of other texts is the share of the characters that their blocks hold. -/
theorem value_score_of_ne {a b : String} (h : a ≠ b) :
    (score a b).value =
      ((2 * matched a b : ℕ) : ℚ) / ((a.toList.length + b.toList.length : ℕ) : ℚ) := by
  rw [score, if_neg h, Score.value]

theorem value_score_self (a : String) : (score a a).value = 1 := by
  rw [score, if_pos rfl, Score.value, Nat.cast_one, div_one]

/-- Some character of different texts lies in no common block. -/
theorem value_score_lt_one {a b : String} (h : a ≠ b) : (score a b).value < 1 := by
  have hfound : IsMatching a.toList b.toList (blocksOf a b) :=
    (aligned_blocks _ 0 0 _ _).isMatching
  have hne : 2 * matched a b ≠ a.toList.length + b.toList.length := by
    rw [matched_eq_sum]
    exact fun hall => h (String.toList_injective (hfound.eq_of_sum hall))
  have hle : 2 * matched a b ≤ a.toList.length + b.toList.length := by
    rw [matched_eq_sum]
    exact hfound.sum_le
  rw [value_score_of_ne h, div_lt_one (Nat.cast_pos.2 (length_pos_of_ne h)), Nat.cast_lt]
  exact Nat.lt_of_le_of_ne hle hne

/-- The blocks of two texts are a matching, and the score is the share of the characters that they
hold.  It lies from 0 to 1, and is 1 for equal texts and no others. -/
theorem score_normalised (a b : String) :
    IsMatching a.toList b.toList (blocksOf a b) ∧
      IsMatching a.toList b.toList (joined (blocksOf a b)) ∧
      (score a b).value = (if a = b then 1 else
        (2 * ((joined (blocksOf a b)).map Block.size).sum : ℚ) / (a.length + b.length)) ∧
      0 ≤ (score a b).value ∧ (score a b).value ≤ 1 ∧ ((score a b).value = 1 ↔ a = b) := by
  have haligned : Aligned 0 0 a.toList b.toList (blocksOf a b) := aligned_blocks _ 0 0 _ _
  have hfound := haligned.isMatching
  have htotal : ((joined (blocksOf a b)).map Block.size).sum = matched a b :=
    (sum_size_joined (blocksOf a b)).trans (matched_eq_sum a b).symm
  refine ⟨hfound, haligned.joined.isMatching, ?_⟩
  by_cases heq : a = b
  · subst heq
    rw [value_score_self]
    exact ⟨(if_pos rfl).symm, zero_le_one, le_refl 1, fun _ => rfl, fun _ => rfl⟩
  · have hvalue := value_score_of_ne heq
    have hpos : (0 : ℚ) < ((a.toList.length + b.toList.length : ℕ) : ℚ) :=
      Nat.cast_pos.2 (length_pos_of_ne heq)
    have hle : 2 * matched a b ≤ a.toList.length + b.toList.length := by
      rw [matched_eq_sum]
      exact hfound.sum_le
    refine ⟨?_, ?_, ?_, ?_⟩
    · rw [if_neg heq, hvalue, htotal, String.length_toList, String.length_toList]
      push_cast
      rfl
    · rw [hvalue]
      exact div_nonneg (Nat.cast_nonneg _) hpos.le
    · rw [hvalue, div_le_one hpos]
      exact Nat.cast_le.2 hle
    · rw [hvalue, div_eq_one_iff_eq hpos.ne', Nat.cast_inj, matched_eq_sum]
      constructor
      · exact fun hall => String.toList_injective (hfound.eq_of_sum hall)
      · exact fun h => absurd h heq

/-- The block `bcd` is found, and nothing beside it. -/
example : score "abcd" "bcde" = ⟨6, 8⟩ := by cbv

end GradingScript.Similarity
