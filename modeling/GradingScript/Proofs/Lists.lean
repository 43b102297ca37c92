import GradingScript.Text.Lines
import Mathlib.Data.List.Induction

/-!
# Lists

What is said of lists and texts by themselves: a text is cut at a character and put together again,
and of the elements of a list that are equal the first is kept.
-/

/-!
## Texts cut at a character

A text is cut at each place where a character stands, and put together again from its parts.
-/

namespace GradingScript

namespace Text

/-- The parts of a text, with the separator in front of each but the first, are the text. -/
theorem eq_append_of_split {separator : Char} {cs part : List Char} {parts : List (List Char)}
    (h : split separator cs = part :: parts) : cs = part ++ parts.flatMap (separator :: ·) := by
  induction cs generalizing part parts with
  | nil =>
      obtain ⟨rfl, rfl⟩ : [] = part ∧ [] = parts := by simpa [split] using h
      rfl
  | cons c cs ih =>
      by_cases hc : c = separator
      · obtain ⟨rfl, rfl⟩ : [] = part ∧ split separator cs = parts := by simpa [split, hc] using h
        cases hsplit : split separator cs with
        | nil => exact absurd hsplit (split_ne_nil separator cs)
        | cons first rest =>
            rw [hc, ih hsplit]
            rfl
      · cases hsplit : split separator cs with
        | nil => exact absurd hsplit (split_ne_nil separator cs)
        | cons first rest =>
            obtain ⟨rfl, rfl⟩ : c :: first = part ∧ rest = parts := by
              simpa [split, hc, hsplit] using h
            rw [ih hsplit]
            rfl

theorem split_of_not_mem {separator : Char} {part : List Char} (h : separator ∉ part) :
    split separator part = [part] := by
  induction part with
  | nil => rfl
  | cons c part ih =>
      obtain ⟨hc, hpart⟩ : separator ≠ c ∧ separator ∉ part := by simpa using h
      simp [split, Ne.symm hc, ih hpart]

/-- No part of a text has the separator in it. -/
theorem not_mem_of_mem_split (separator : Char) (cs : List Char) :
    ∀ part ∈ split separator cs, separator ∉ part := by
  induction cs with
  | nil => simp [split]
  | cons c cs ih =>
      by_cases hc : c = separator
      · simpa [split, hc] using ih
      · cases hsplit : split separator cs with
        | nil => exact absurd hsplit (split_ne_nil separator cs)
        | cons first rest =>
            rw [hsplit, List.forall_mem_cons] at ih
            simp only [split, if_neg hc, hsplit]
            exact List.forall_mem_cons.2
              ⟨List.not_mem_cons_of_ne_of_not_mem (Ne.symm hc) ih.1, ih.2⟩

/-- A text that is put together at a separator has the parts of both sides. -/
theorem split_append_separator {separator : Char} (cs ds : List Char) :
    split separator (cs ++ separator :: ds) = split separator cs ++ split separator ds := by
  induction cs with
  | nil => simp [split]
  | cons c cs ih =>
      by_cases hc : c = separator
      · simp [split, hc, ih]
      · cases hsplit : split separator cs with
        | nil => exact absurd hsplit (split_ne_nil separator cs)
        | cons first rest => simp [split, hc, ih, hsplit]

/-- The parts of what stands behind a separator come behind the first part of the whole. -/
theorem mem_of_split_append {separator : Char} {cs ds first : List Char} {parts : List (List Char)}
    (h : split separator (cs ++ separator :: ds) = first :: parts) :
    ∀ part ∈ split separator ds, part ∈ parts := by
  obtain ⟨first', rest, hcs⟩ := List.exists_cons_of_ne_nil (split_ne_nil separator cs)
  rw [split_append_separator, hcs, List.cons_append] at h
  obtain ⟨-, rfl⟩ := List.cons.inj h
  exact fun part hpart => List.mem_append_right rest hpart

theorem split_append_cons {separator : Char} {part : List Char} (h : separator ∉ part)
    (cs : List Char) : split separator (part ++ separator :: cs) = part :: split separator cs := by
  rw [split_append_separator, split_of_not_mem h, List.singleton_append]

/-- Parts without the separator are found again when they are put together with it. -/
theorem split_append_flatMap {separator : Char} {part : List Char} {parts : List (List Char)}
    (hpart : separator ∉ part) (hparts : ∀ p ∈ parts, separator ∉ p) :
    split separator (part ++ parts.flatMap (separator :: ·)) = part :: parts := by
  induction parts generalizing part with
  | nil => simpa using split_of_not_mem hpart
  | cons first rest ih =>
      have hrest : ∀ p ∈ rest, separator ∉ p := fun p hp => hparts p (List.mem_cons_of_mem _ hp)
      rw [List.flatMap_cons, List.cons_append, split_append_cons hpart,
        ih (hparts first List.mem_cons_self) hrest]

/-- Parts that end in the separator are found again in front of those of the rest. -/
theorem split_flatMap_append {separator : Char} {parts : List (List Char)}
    (h : ∀ part ∈ parts, separator ∉ part) (cs : List Char) :
    split separator (parts.flatMap (fun part => part ++ [separator]) ++ cs) =
      parts ++ split separator cs := by
  induction parts with
  | nil => rfl
  | cons part parts ih =>
      rw [List.forall_mem_cons] at h
      simp only [List.flatMap_cons, List.append_assoc, List.cons_append, List.nil_append]
      rw [split_append_cons h.1, ih h.2]

end Text

/-!
## Lists without repetitions

Of the elements of a list that are equal the first is kept, and the others are dropped.
-/

/-- A new last element comes last, and one that is there already is dropped. -/
theorem eraseDups_concat {α : Type} [DecidableEq α] (l : List α) (a : α) :
    (l ++ [a]).eraseDups = if a ∈ l then l.eraseDups else l.eraseDups ++ [a] := by
  rw [List.eraseDups_append]
  by_cases ha : a ∈ l
  · simp [List.removeAll, ha]
  · simp [List.removeAll, ha, List.eraseDups_cons]

/-- What is left when repetitions are dropped has none. -/
theorem nodup_eraseDups {α : Type} [DecidableEq α] (l : List α) : l.eraseDups.Nodup := by
  induction l using List.reverseRecOn with
  | nil => exact List.nodup_nil
  | append_singleton l a ih =>
      rw [eraseDups_concat]
      split
      · exact ih
      · next hnew =>
          refine List.nodup_append.2 ⟨ih, List.pairwise_singleton _ a, ?_⟩
          rintro b hb _ ha rfl
          obtain rfl := List.mem_singleton.1 ha
          exact hnew (List.mem_eraseDups.1 hb)

end GradingScript
