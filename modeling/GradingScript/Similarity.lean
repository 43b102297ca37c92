import GradingScript.Number.Double
import GradingScript.Term.Render

/-!
# Similarity of texts

Two texts are as similar as the blocks that they have in common are long.  The longest common block
is found first, and then, in the same way, the blocks to its left and to its right.

In a second text of 200 characters or more, a character that takes up more than one in a hundred
places is too common to tell anything: no block is found by it, but a block that was found is
extended by it.
-/

namespace GradingScript.Similarity

/-- A block of equal characters: where it starts in either text, and its length. -/
structure Block where
  left : Nat
  right : Nat
  size : Nat
  deriving DecidableEq, Repr

/-- Whether a character is too common in the second text to find a block by. -/
def isCommon (text : List Char) (c : Char) : Bool :=
  200 ≤ text.length && text.length / 100 + 1 < text.count c

/-- How far two texts begin with the same characters. -/
def commonStart : List Char → List Char → Nat
  | a :: as, b :: bs => if a = b then commonStart as bs + 1 else 0
  | _, _ => 0

/-- The lengths of the common blocks that end with `c` and with each character of the second text,
from the lengths for the character before `c`, of which `diagonal` precedes the first. -/
def nextRow (c : Char) (diagonal : Nat) : List Char → List Nat → List Nat
  | b :: bs, length :: row => (if b = c then diagonal + 1 else 0) :: nextRow c length bs row
  | _, _ => []

/-- The first block of a row that is longer than the best so far; the row belongs to the character
at `left`, and `right` is the place of its first entry. -/
def improve (left : Nat) (best : Block) (right : Nat) : List Nat → Block
  | [] => best
  | length :: row =>
    let best :=
      if best.size < length then ⟨left + 1 - length, right + 1 - length, length⟩ else best
    improve left best (right + 1) row

/-- The best block after all rows. -/
def search (common : Char → Bool) (second : List Char) (left : Nat) (row : List Nat)
    (best : Block) : List Char → Block
  | [] => best
  | c :: first =>
    let row := if common c then second.map fun _ => 0 else nextRow c 0 second row
    search common second (left + 1) row (improve left best 0 row) first

/-- The longest common block; of several the one that ends first in the first text, and of these
the one that ends first in the second.  It is extended to both sides as far as the texts agree. -/
def longest (common : Char → Bool) (first second : List Char) : Block :=
  let found := search common second 0 (second.map fun _ => 0) ⟨0, 0, 0⟩ first
  -- Characters that are too common to find a block by still extend it.
  let before := commonStart (first.take found.left).reverse (second.take found.right).reverse
  let behind :=
    commonStart (first.drop (found.left + found.size)) (second.drop (found.right + found.size))
  ⟨found.left - before, found.right - before, before + found.size + behind⟩

theorem commonStart_le_left (as bs : List Char) : commonStart as bs ≤ as.length := by
  induction as generalizing bs with
  | nil => simp [commonStart]
  | cons a as ih =>
    cases bs with
    | nil => simp [commonStart]
    | cons b bs =>
      simp only [commonStart, List.length_cons]
      split
      · exact Nat.succ_le_succ (ih bs)
      · exact Nat.zero_le _

/-- A row grows by at most one. -/
theorem le_of_mem_nextRow {c : Char} {bound diagonal : Nat} {bs : List Char} {row : List Nat}
    (hd : diagonal ≤ bound) (hrow : ∀ n ∈ row, n ≤ bound) :
    ∀ n ∈ nextRow c diagonal bs row, n ≤ bound + 1 := by
  induction bs generalizing diagonal row with
  | nil => simp [nextRow]
  | cons b bs ih =>
    cases row with
    | nil => simp [nextRow]
    | cons length row =>
      simp only [nextRow, List.mem_cons, forall_eq_or_imp]
      simp only [List.mem_cons, forall_eq_or_imp] at hrow
      refine ⟨?_, ih hrow.1 hrow.2⟩
      split <;> omega

/-- The best block of a row ends where the earlier ones do, or at the row. -/
theorem improve_end_le {left right limit : Nat} {best : Block} {row : List Nat}
    (hbest : best.left + best.size ≤ limit) (hleft : left + 1 ≤ limit)
    (hrow : ∀ n ∈ row, n ≤ left + 1) :
    (improve left best right row).left + (improve left best right row).size ≤ limit := by
  induction row generalizing best right with
  | nil => exact hbest
  | cons length row ih =>
    simp only [List.mem_cons, forall_eq_or_imp] at hrow
    simp only [improve]
    refine ih ?_ hrow.2
    split
    · simp only
      omega
    · exact hbest

/-- The block that is found ends within the first text. -/
theorem search_end_le {common : Char → Bool} {second first : List Char} {left : Nat}
    {row : List Nat} {best : Block} (hbest : best.left + best.size ≤ left)
    (hrow : ∀ n ∈ row, n ≤ left) :
    (search common second left row best first).left
      + (search common second left row best first).size ≤ left + first.length := by
  induction first generalizing left row best with
  | nil => simpa [search] using hbest
  | cons c first ih =>
    simp only [search, List.length_cons]
    have hnext : ∀ n ∈ (if common c = true then second.map fun _ => 0
        else nextRow c 0 second row), n ≤ left + 1 := by
      split
      · simp
      · exact le_of_mem_nextRow (Nat.zero_le _) hrow
    have hend := @improve_end_le left 0 (left + 1) best _ (Nat.le_succ_of_le hbest)
      (Nat.le_refl _) hnext
    have := ih hend hnext
    omega

/-- The longest common block ends within the first text. -/
theorem longest_end_le (common : Char → Bool) (first second : List Char) :
    (longest common first second).left + (longest common first second).size ≤ first.length := by
  simp only [longest]
  have hfound := @search_end_le common second first 0 (second.map fun _ => 0) ⟨0, 0, 0⟩
    (by simp) (by simp)
  generalize search common second 0 (second.map fun _ => 0) ⟨0, 0, 0⟩ first = found at *
  have hbefore := commonStart_le_left (first.take found.left).reverse
    (second.take found.right).reverse
  have hbehind := commonStart_le_left (first.drop (found.left + found.size))
    (second.drop (found.right + found.size))
  simp only [List.length_reverse, List.length_take, List.length_drop] at hbefore hbehind
  omega

/-- The common blocks of two texts from left to right; the texts begin at the places `left` and
`right` of the whole. -/
def blocks (common : Char → Bool) (left right : Nat) (first second : List Char) : List Block :=
  let block := longest common first second
  if block.size = 0 then []
  else
    blocks common left right (first.take block.left) (second.take block.right)
      ++ ⟨left + block.left, right + block.right, block.size⟩
      :: blocks common (left + block.left + block.size) (right + block.right + block.size)
          (first.drop (block.left + block.size)) (second.drop (block.right + block.size))
termination_by first.length
decreasing_by
  all_goals
    have := longest_end_le common first second
    simp only [List.length_take, List.length_drop]
    grind

/-- The number of characters of either text that lie in common blocks. -/
def matched (a b : String) : Nat :=
  (blocks (isCommon b.toList) 0 0 a.toList b.toList).foldr (fun block total => block.size + total) 0

/-- A score is a fraction from 0 to 1.  It is kept exact: no score is rounded to a binary number
before it is compared. -/
structure Score where
  num : Nat
  den : Nat
  deriving DecidableEq, Repr

namespace Score

/-- Whether a score is less than another, both read as exact fractions.  Their nearest binary
numbers may be equal all the same, but only for fractions as close as those of texts of some
`10 ^ 8` characters. -/
def lt (s t : Score) : Bool :=
  s.num * t.den < t.num * s.den

/-- The nearest binary number. -/
def toDouble (s : Score) : Double :=
  .ofRatio false s.num s.den

end Score

/-- The similarity of two texts: the share of their characters that lie in common blocks, and 1 for
equal texts. -/
def score (a b : String) : Score :=
  if a = b then ⟨1, 1⟩
  else ⟨2 * matched a b, a.toList.length + b.toList.length⟩

end GradingScript.Similarity

/-!
## Suggestions

A name that is not known is answered with the known name that is most similar to it, if one is
similar enough.
-/

namespace GradingScript

namespace Suggestion

open Similarity

/-- A candidate has to score more than this. -/
def threshold : Score :=
  ⟨4, 5⟩

/-- The candidate with the best score above a bound, the first of several; a bound that a candidate
has set stands with it.  Scores are compared as exact fractions, so of two candidates whose scores
differ by less than binary numbers can tell, the better one is taken. -/
def best (text : String) (bound : Score) (found : Option String) : List String → Option String
  | [] => found
  | candidate :: candidates =>
    let score := Similarity.score text candidate
    if bound.lt score then best text score (some candidate) candidates
    else best text bound found candidates

/-- The candidate most similar to a text. -/
def nearest? (text : String) (candidates : List String) : Option String :=
  best text threshold none candidates

/-- The question that offers a candidate, and nothing if none is near. -/
def question : Option String → String
  | some candidate => "Did you mean " ++ candidate ++ "?"
  | none => ""

end Suggestion

/-- Offers the candidate most similar to the text of a term. -/
def suggest (token : Term) (candidates : List String) : Written String := do
  pure (Suggestion.question (Suggestion.nearest? (← token.text) candidates))

end GradingScript
