import GradingScript.Similarity
import Mathlib.Algebra.Ring.Nat

/-!
# Blocks that two texts have in common

The blocks that are found stand one behind the other in either text, and each holds the same
characters in both.

* `IsRow` is what a row of lengths says, and `isRow_nextRow` is one step of the search.
* `isShared_search` and `isShared_longest` are about the block that is found, and `aligned_blocks`
  about all of them.
-/

namespace GradingScript.Similarity

/-! ## One block -/

/-- Both texts end with the same `n` characters. -/
def EndAlike (n : Nat) (xs ys : List Char) : Prop :=
  ∃ as bs common, xs = as ++ common ∧ ys = bs ++ common ∧ common.length = n

/-- A block holds the same characters in both texts. -/
def Block.IsShared (first second : List Char) (block : Block) : Prop :=
  ∃ as bs common as' bs', first = as ++ (common ++ as') ∧ second = bs ++ (common ++ bs') ∧
    block = ⟨as.length, bs.length, common.length⟩

theorem endAlike_zero (xs ys : List Char) : EndAlike 0 xs ys :=
  ⟨xs, ys, [], by simp, by simp, rfl⟩

theorem EndAlike.concat {n : Nat} {xs ys : List Char} (h : EndAlike n xs ys) (c : Char) :
    EndAlike (n + 1) (xs ++ [c]) (ys ++ [c]) := by
  obtain ⟨as, bs, common, rfl, rfl, rfl⟩ := h
  exact ⟨as, bs, common ++ [c], by simp, by simp, by simp⟩

/-- What the texts end with up to some place is a block. -/
theorem EndAlike.isShared {n : Nat} {xs ys : List Char} (h : EndAlike n xs ys)
    (as bs : List Char) :
    Block.IsShared (xs ++ as) (ys ++ bs) ⟨xs.length - n, ys.length - n, n⟩ := by
  obtain ⟨as', bs', common, rfl, rfl, rfl⟩ := h
  exact ⟨as', bs', common, as, bs, by simp, by simp, by simp⟩

theorem isShared_empty (first second : List Char) : Block.IsShared first second ⟨0, 0, 0⟩ :=
  ⟨[], [], [], first, second, rfl, rfl, rfl⟩

/-- A block stands further to the right behind other texts. -/
theorem Block.IsShared.behind {first second : List Char} {left right size : Nat}
    (h : Block.IsShared first second ⟨left, right, size⟩) (as bs : List Char) :
    Block.IsShared (as ++ first) (bs ++ second) ⟨as.length + left, bs.length + right, size⟩ := by
  obtain ⟨front, front', common, rest, rest', rfl, rfl, hblock⟩ := h
  cases hblock
  exact ⟨as ++ front, bs ++ front', common, rest, rest', by simp, by simp, by simp⟩

/-- A block ends within either text. -/
theorem Block.IsShared.end_le {first second : List Char} {block : Block}
    (h : block.IsShared first second) :
    block.left + block.size ≤ first.length ∧ block.right + block.size ≤ second.length := by
  obtain ⟨as, bs, common, as', bs', rfl, rfl, rfl⟩ := h
  simp only [List.length_append]
  omega

/-- The characters of a block are the same one by one. -/
theorem Block.IsShared.getElem?_eq {first second : List Char} {block : Block}
    (h : block.IsShared first second) {k : Nat} (hk : k < block.size) :
    first[block.left + k]? = second[block.right + k]? := by
  obtain ⟨as, bs, common, as', bs', rfl, rfl, rfl⟩ := h
  have hinside : ∀ front behind : List Char,
      (front ++ (common ++ behind))[front.length + k]? = common[k]? := by
    intro front behind
    rw [List.getElem?_append_right (Nat.le_add_right _ _), Nat.add_sub_cancel_left,
      List.getElem?_append_left hk]
  rw [hinside, hinside]

/-! ## The search -/

/-- What a row of lengths says, with the characters `ys` of the second text in front of its first
entry: up to each character of the rest, so many are those that `xs` ends with. -/
inductive IsRow (xs : List Char) : List Char → List Char → List Nat → Prop
  | nil (ys : List Char) : IsRow xs ys [] []
  | cons {ys bs : List Char} {b : Char} {length : Nat} {row : List Nat}
      (hlength : EndAlike length xs (ys ++ [b])) (h : IsRow xs (ys ++ [b]) bs row) :
      IsRow xs ys (b :: bs) (length :: row)

theorem isRow_zero (xs ys bs : List Char) : IsRow xs ys bs (bs.map fun _ => 0) := by
  induction bs generalizing ys with
  | nil => exact .nil ys
  | cons b bs ih => exact .cons (endAlike_zero _ _) (ih _)

/-- One more character of the first text makes a row of the row before it. -/
theorem isRow_nextRow {xs ys bs : List Char} {c : Char} {diagonal : Nat} {row : List Nat}
    (h : IsRow xs ys bs row) (hdiagonal : EndAlike diagonal xs ys) :
    IsRow (xs ++ [c]) ys bs (nextRow c diagonal bs row) := by
  induction h generalizing diagonal with
  | nil ys => exact .nil ys
  | @cons ys bs b length row hlength _ ih =>
      refine .cons ?_ (ih hlength)
      by_cases hb : b = c
      · rw [if_pos hb, hb]
        exact hdiagonal.concat c
      · rw [if_neg hb]
        exact endAlike_zero _ _

/-- The better blocks of a row are common to both texts. -/
theorem isShared_improve {xs ys as bs : List Char} {left : Nat} {best : Block} {row : List Nat}
    (h : IsRow xs ys bs row) (hleft : xs.length = left + 1)
    (hbest : best.IsShared (xs ++ as) (ys ++ bs)) :
    (improve left best ys.length row).IsShared (xs ++ as) (ys ++ bs) := by
  induction h generalizing best with
  | nil => exact hbest
  | @cons ys bs b length row hlength _ ih =>
      have happend : ys ++ b :: bs = ys ++ [b] ++ bs := by simp
      have hend : (ys ++ [b]).length = ys.length + 1 := by simp
      rw [happend] at hbest ⊢
      rw [improve, ← hend]
      refine ih ?_
      split
      · have hfound := hlength.isShared as bs
        rwa [hleft] at hfound
      · exact hbest

theorem isShared_search {common : Char → Bool} {second xs first : List Char} {row : List Nat}
    {best : Block} (hrow : IsRow xs [] second row) (hbest : best.IsShared (xs ++ first) second) :
    (search common second xs.length row best first).IsShared (xs ++ first) second := by
  induction first generalizing xs row best with
  | nil => exact hbest
  | cons c first ih =>
      have happend : xs ++ c :: first = xs ++ [c] ++ first := by simp
      have hend : (xs ++ [c]).length = xs.length + 1 := by simp
      have hnext : IsRow (xs ++ [c]) [] second
          (if common c then second.map fun _ => 0 else nextRow c 0 second row) := by
        split
        · exact isRow_zero _ _ _
        · exact isRow_nextRow hrow (endAlike_zero _ _)
      rw [happend] at hbest ⊢
      rw [search, ← hend]
      exact ih hnext (isShared_improve hnext hend hbest)

/-! ## The extension -/

/-- What two texts begin with in common. -/
theorem exists_of_commonStart (as bs : List Char) :
    ∃ common as' bs', as = common ++ as' ∧ bs = common ++ bs' ∧
      common.length = commonStart as bs := by
  induction as generalizing bs with
  | nil => exact ⟨[], [], bs, rfl, rfl, rfl⟩
  | cons a as ih =>
      cases bs with
      | nil => exact ⟨[], a :: as, [], rfl, rfl, rfl⟩
      | cons b bs =>
          by_cases hab : a = b
          · obtain ⟨common, as', bs', has, hbs, hlength⟩ := ih bs
            refine ⟨a :: common, as', bs', ?_, ?_, ?_⟩
            · rw [has, List.cons_append]
            · rw [← hab, hbs, List.cons_append]
            · rw [commonStart, if_pos hab, List.length_cons, hlength]
          · exact ⟨[], a :: as, b :: bs, rfl, rfl, by rw [commonStart, if_neg hab]; rfl⟩

/-- What two texts end with in common is what they begin with from behind. -/
theorem endAlike_commonStart (xs ys : List Char) :
    EndAlike (commonStart xs.reverse ys.reverse) xs ys := by
  obtain ⟨common, as, bs, hxs, hys, hlength⟩ := exists_of_commonStart xs.reverse ys.reverse
  refine ⟨as.reverse, bs.reverse, common.reverse, ?_, ?_, ?_⟩
  · rw [← List.reverse_append, ← hxs, List.reverse_reverse]
  · rw [← List.reverse_append, ← hys, List.reverse_reverse]
  · rw [List.length_reverse, hlength]

theorem isShared_longest (common : Char → Bool) (first second : List Char) :
    (longest common first second).IsShared first second := by
  have hfound := @isShared_search common second [] first _ _ (isRow_zero [] [] second)
    (isShared_empty first second)
  rw [List.nil_append, List.length_nil] at hfound
  unfold longest
  simp only
  generalize search common second 0 (second.map fun _ => 0) ⟨0, 0, 0⟩ first = found at hfound
  -- The block with what stands in front of it and behind it in either text.
  obtain ⟨as, bs, block, as', bs', rfl, rfl, rfl⟩ := hfound
  obtain ⟨front, front', before, hfront, hfront', hbefore⟩ := endAlike_commonStart as bs
  obtain ⟨behind, rest, rest', hrest, hrest', hbehind⟩ := exists_of_commonStart as' bs'
  have hdrop : ∀ xs ys : List Char, (xs ++ (block ++ ys)).drop (xs.length + block.length) = ys := by
    intro xs ys
    rw [← List.append_assoc, List.drop_left' (by simp)]
  simp only [List.take_left, hdrop, ← hbefore, ← hbehind]
  refine ⟨front, front', before ++ (block ++ behind), rest, rest', ?_, ?_, ?_⟩
  · rw [hfront, hrest]
    simp
  · rw [hfront', hrest']
    simp
  · rw [hfront, hfront']
    simp [Nat.add_assoc]

/-! ## All blocks -/

/-- Blocks of two texts that begin at the places `left` and `right` of the whole: one behind the
other in either text, none empty, and each with the same characters in both. -/
inductive Aligned : Nat → Nat → List Char → List Char → List Block → Prop
  | nil (left right : Nat) (first second : List Char) : Aligned left right first second []
  | cons {left right : Nat} {as bs common first second : List Char} {behind : List Block}
      (hne : common ≠ [])
      (h : Aligned (left + as.length + common.length) (right + bs.length + common.length)
        first second behind) :
      Aligned left right (as ++ (common ++ first)) (bs ++ (common ++ second))
        (⟨left + as.length, right + bs.length, common.length⟩ :: behind)

variable {left right : Nat} {first second : List Char} {found : List Block}

/-- A block may stand between blocks of what is in front of it and blocks of what is behind it. -/
theorem Aligned.append {as bs common : List Char} {before behind : List Block}
    (hbefore : Aligned left right as bs before) (hne : common ≠ [])
    (hbehind : Aligned (left + as.length + common.length) (right + bs.length + common.length)
      first second behind) :
    Aligned left right (as ++ (common ++ first)) (bs ++ (common ++ second))
      (before ++ ⟨left + as.length, right + bs.length, common.length⟩ :: behind) := by
  induction hbefore with
  | nil => exact .cons hne hbehind
  | @cons left right as bs block as' bs' before' hblock _ ih =>
      simp only [List.length_append, ← Nat.add_assoc] at hbehind ⊢
      simp only [List.append_assoc, List.cons_append]
      exact .cons hblock (ih hbehind)

theorem aligned_blocks (common : Char → Bool) (left right : Nat) (first second : List Char) :
    Aligned left right first second (blocks common left right first second) := by
  induction left, right, first, second using blocks.induct common with
  | case1 left right first second block hsize =>
      rw [blocks, if_pos hsize]
      exact .nil _ _ _ _
  | case2 left right first second block hsize ihbefore ihbehind =>
      have hlongest : longest common first second = block := rfl
      rw [blocks, if_neg hsize, hlongest]
      have hshared : block.IsShared first second := isShared_longest common first second
      clear_value block
      obtain ⟨as, bs, same, as', bs', rfl, rfl, rfl⟩ := hshared
      have hdrop : ∀ xs ys : List Char,
          (xs ++ (same ++ ys)).drop (xs.length + same.length) = ys := by
        intro xs ys
        rw [← List.append_assoc, List.drop_left' (by simp)]
      simp only [List.take_left, hdrop] at ihbefore ihbehind ⊢
      have hne : same ≠ [] := fun hnil => hsize (congrArg List.length hnil)
      exact ihbefore.append hne ihbehind

theorem Aligned.start_le (h : Aligned left right first second found) :
    ∀ block ∈ found, left ≤ block.left ∧ right ≤ block.right := by
  induction h with
  | nil => simp
  | cons _ _ ih =>
      refine List.forall_mem_cons.2 ⟨⟨Nat.le_add_right _ _, Nat.le_add_right _ _⟩, ?_⟩
      intro block hblock
      have hbehind := ih block hblock
      omega

/-- Every block ends before the next one begins. -/
theorem Aligned.pairwise (h : Aligned left right first second found) :
    found.Pairwise fun x y => x.left + x.size ≤ y.left ∧ x.right + x.size ≤ y.right := by
  induction h with
  | nil => exact .nil
  | cons _ hbehind ih => exact .cons hbehind.start_le ih

theorem Aligned.isShared (h : Aligned left right first second found) :
    ∀ block ∈ found, 0 < block.size ∧ ∃ l r, block.left = left + l ∧ block.right = right + r ∧
      Block.IsShared first second ⟨l, r, block.size⟩ := by
  induction h with
  | nil => simp
  | @cons left right as bs common first second behind hne _ ih =>
      refine List.forall_mem_cons.2
        ⟨⟨List.length_pos_iff.2 hne, as.length, bs.length, rfl, rfl, ?_⟩,
        fun block hblock => ?_⟩
      · exact ⟨as, bs, common, first, second, rfl, rfl, rfl⟩
      · obtain ⟨hpos, l, r, hleft, hright, hshared⟩ := ih block hblock
        have hbehind := (hshared.behind common common).behind as bs
        exact ⟨hpos, _, _, by rw [hleft, Nat.add_assoc, Nat.add_assoc],
          by rw [hright, Nat.add_assoc, Nat.add_assoc], hbehind⟩

/-- The characters of the blocks are a common subsequence. -/
theorem Aligned.exists_common (h : Aligned left right first second found) :
    ∃ common : List Char, common.Sublist first ∧ common.Sublist second ∧
      common.length = (found.map Block.size).sum := by
  induction h with
  | nil left right first second => exact ⟨[], List.nil_sublist _, List.nil_sublist _, rfl⟩
  | @cons left right as bs block first second behind hne _ ih =>
      obtain ⟨common, hfirst, hsecond, hlength⟩ := ih
      refine ⟨block ++ common, ?_, ?_, ?_⟩
      · exact ((List.Sublist.refl block).append hfirst).trans (List.sublist_append_right as _)
      · exact ((List.Sublist.refl block).append hsecond).trans (List.sublist_append_right bs _)
      · rw [List.length_append, hlength, List.map_cons, List.sum_cons]

/-! ## Blocks that touch -/

/-- Blocks that touch in both texts as one block. -/
def joined : List Block → List Block
  | [] => []
  | block :: behind =>
    match joined behind with
    | [] => [block]
    | next :: rest =>
      if block.left + block.size = next.left ∧ block.right + block.size = next.right then
        ⟨block.left, block.right, block.size + next.size⟩ :: rest
      else block :: next :: rest

theorem sum_size_joined (found : List Block) :
    ((joined found).map Block.size).sum = (found.map Block.size).sum := by
  induction found with
  | nil => rfl
  | cons block behind ih =>
      rw [List.map_cons, List.sum_cons, ← ih, joined]
      split
      · next hbehind => simp [hbehind]
      · next next rest hbehind =>
          rw [hbehind]
          split
          · simp [Nat.add_assoc]
          · simp

theorem Aligned.joined (h : Aligned left right first second found) :
    Aligned left right first second (joined found) := by
  induction h with
  | nil left right first second => exact .nil _ _ _ _
  | @cons left right as bs common first second behind hne _ ih =>
      rw [Similarity.joined]
      split
      · exact .cons hne (.nil _ _ _ _)
      · next next rest hbehind =>
          rw [hbehind] at ih
          split
          · next htouch =>
              -- Nothing stands between the two, so the characters of both are one block.
              cases ih with
              | @cons _ _ as' bs' common' first second _ _ hrest =>
                  simp only at htouch
                  obtain rfl : as' = [] := List.length_eq_zero_iff.1 (by omega)
                  obtain rfl : bs' = [] := List.length_eq_zero_iff.1 (by omega)
                  have hboth : common ++ common' ≠ [] :=
                    fun hnil => hne (List.append_eq_nil_iff.1 hnil).1
                  have haligned := @Aligned.cons left right as bs (common ++ common') first second
                    rest hboth (by simpa [Nat.add_assoc] using hrest)
                  simpa using haligned
          · exact .cons hne ih

end GradingScript.Similarity
