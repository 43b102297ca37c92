import GradingScript.Compile.Directive
import GradingScript.Proofs.Lists

/-!
# File extensions

A file extension is made of one or more groups, each a dot with a word behind it.  It can also be
told from its characters, without putting them into groups.
-/

namespace GradingScript

namespace Compile

/-- A text made of one or more groups, each a dot with one or more word characters behind it. -/
def IsDottedWords (text : String) : Prop :=
  ∃ groups : List (List Char), groups ≠ [] ∧
    (∀ group ∈ groups, group ≠ [] ∧ ∀ c ∈ group, Text.isWord c = true) ∧
    text.toList = groups.flatMap ('.' :: ·)

/-- The groups are found again when the text is cut at its dots. -/
theorem split_of_dottedWords {groups : List (List Char)} {cs : List Char}
    (hgroups : ∀ group ∈ groups, group ≠ [] ∧ ∀ c ∈ group, Text.isWord c = true)
    (hcs : cs = groups.flatMap ('.' :: ·)) : Text.split '.' cs = [] :: groups := by
  have hdots : ∀ group ∈ groups, '.' ∉ group := by
    intro group hgroup hdot
    have hword := (hgroups group hgroup).2 '.' hdot
    revert hword
    decide
  rw [hcs]
  exact Text.split_append_flatMap List.not_mem_nil hdots

/-- The file extensions are the texts made of dotted words. -/
theorem isFileExtension_iff {text : String} : isFileExtension text = true ↔ IsDottedWords text := by
  unfold isFileExtension
  constructor
  · intro h
    split at h
    · next group groups hsplit =>
        have htext := Text.eq_append_of_split hsplit
        exact ⟨group :: groups, List.cons_ne_nil _ _, by simpa using h, htext⟩
    · cases h
  · rintro ⟨groups, hne, hgroups, htext⟩
    obtain ⟨group, rest, rfl⟩ := List.exists_cons_of_ne_nil hne
    rw [split_of_dottedWords hgroups htext]
    simpa using hgroups

/-- Of the data only strings are file extensions. -/
theorem validExtension?_eq_some_iff {t : Term} {text : String} :
    State.extensions.validExtension? t = some text ↔ t = .string text ∧ IsDottedWords text := by
  unfold State.extensions.validExtension?
  split
  · next text' =>
      rw [← isFileExtension_iff, Option.ite_none_right_eq_some, Option.some.injEq, Term.string.injEq]
      constructor
      · rintro ⟨hextension, rfl⟩
        exact ⟨rfl, hextension⟩
      · rintro ⟨rfl, hextension⟩
        exact ⟨hextension, rfl⟩
  · next hstring =>
      constructor
      · rintro ⟨⟩
      · rintro ⟨rfl, -⟩
        exact (hstring text rfl).elim

/-! ## Characters of file extensions -/

/-- No group is empty, so a dot has no dot behind it and is not the last character. -/
theorem not_mem_split_of_dottedWords {groups : List (List Char)} {before behind : List Char}
    (hgroups : ∀ group ∈ groups, group ≠ [] ∧ ∀ c ∈ group, Text.isWord c = true)
    (h : before ++ '.' :: behind = groups.flatMap ('.' :: ·)) : [] ∉ Text.split '.' behind :=
  fun hmem => (hgroups [] (Text.mem_of_split_append (split_of_dottedWords hgroups h) [] hmem)).1 rfl

/-- A group that is empty has a dot behind its own, unless it is the last one. -/
theorem ne_nil_of_mem_groups {groups : List (List Char)}
    (hlast : (groups.flatMap ('.' :: ·)).getLast? ≠ some '.')
    (hpair : ¬ ['.', '.'] <:+: groups.flatMap ('.' :: ·)) : ∀ group ∈ groups, group ≠ [] := by
  rintro _ hgroup rfl
  obtain ⟨before, behind, rfl⟩ := List.append_of_mem hgroup
  cases behind with
  | nil => simp at hlast
  | cons next behind =>
      refine hpair ⟨before.flatMap ('.' :: ·), next ++ behind.flatMap ('.' :: ·), ?_⟩
      simp

/-- The groups of a text that begins with a dot are the parts of what stands behind it. -/
theorem isDottedWords_of_forall_mem {text : String} (hhead : text.toList.head? = some '.')
    (hlast : text.toList.getLast? ≠ some '.') (hpair : ¬ ['.', '.'] <:+: text.toList)
    (hall : ∀ c ∈ text.toList, c = '.' ∨ Text.isWord c = true) : IsDottedWords text := by
  obtain ⟨cs, hcs⟩ := List.head?_eq_some_iff.1 hhead
  have hsplit : Text.split '.' text.toList = [] :: Text.split '.' cs := by simp [hcs, Text.split]
  have htext : text.toList = (Text.split '.' cs).flatMap ('.' :: ·) :=
    Text.eq_append_of_split hsplit
  rw [htext] at hlast hpair hall
  refine ⟨Text.split '.' cs, Text.split_ne_nil '.' cs, fun group hgroup =>
    ⟨ne_nil_of_mem_groups hlast hpair group hgroup, fun c hc => ?_⟩, htext⟩
  have hmem := List.mem_flatMap.2 ⟨group, hgroup, List.mem_cons_of_mem '.' hc⟩
  refine (hall c hmem).resolve_left ?_
  rintro rfl
  exact Text.not_mem_of_mem_split '.' cs group hgroup hc

/-- A file extension begins with a dot, does not end with one, and has no two dots side by side; all
its other characters are word characters. -/
theorem isDottedWords_iff_forall_mem {text : String} :
    IsDottedWords text ↔ text ≠ "" ∧ text.toList.head? = some '.' ∧
      text.toList.getLast? ≠ some '.' ∧ ¬ ['.', '.'] <:+: text.toList ∧
      ∀ c ∈ text.toList, c = '.' ∨ Text.isWord c = true := by
  constructor
  · rintro ⟨groups, hne, hgroups, htext⟩
    rw [htext]
    refine ⟨?_, ?_, ?_, ?_, ?_⟩
    · rintro rfl
      obtain ⟨group, rest, rfl⟩ := List.exists_cons_of_ne_nil hne
      cases htext
    · obtain ⟨group, rest, rfl⟩ := List.exists_cons_of_ne_nil hne
      rfl
    · intro hlast
      obtain ⟨before, hbefore⟩ := List.getLast?_eq_some_iff.1 hlast
      exact not_mem_split_of_dottedWords hgroups hbefore.symm (by simp [Text.split])
    · rintro ⟨before, behind, hpair⟩
      have hbefore : before ++ '.' :: '.' :: behind = groups.flatMap ('.' :: ·) := by
        simpa using hpair
      exact not_mem_split_of_dottedWords hgroups hbefore (by simp [Text.split])
    · intro c hc
      obtain ⟨group, hgroup, hmem⟩ := List.mem_flatMap.1 hc
      rcases List.mem_cons.1 hmem with hdot | hmem
      · exact .inl hdot
      · exact .inr ((hgroups group hgroup).2 c hmem)
  · rintro ⟨-, hhead, hlast, hpair, hall⟩
    exact isDottedWords_of_forall_mem hhead hlast hpair hall

end Compile

end GradingScript
