import GradingScript.Proofs.Grammar.Values
import GradingScript.Proofs.Term.Writable

/-!
# Integers of terms

A term has a text if every integer in it can be written.  The lines of its nodes count among these
integers, because a statement shows the lines that it stands on.

* `exists_dump` goes by the kinds of terms, with the lists of terms beside it.
* `HasShortIntegers.hasText` is what the compilation asks for.  A node has a line of its own, so
  that its integers are short is not inherited; that it has a text is.
-/

namespace GradingScript.Term

mutual

/-- The integers in a term, at any depth, with the lines of its nodes. -/
def integers : Term → List Int
  | .number (.int i) => [i]
  | .nil | .bool _ | .number (.real _) | .string _ => []
  | .identifier _ line | .atom _ line => [line]
  | .literal value line | .keyword _ value line | .assignment _ value line =>
      line :: value.integers
  | .list ts => integersOfAll ts
  | .listNode ts line | .directive _ line ts | .call _ line ts | .block _ line ts _ =>
      line :: integersOfAll ts

/-- The integers in the terms of a list. -/
def integersOfAll : List Term → List Int
  | [] => []
  | t :: ts => t.integers ++ integersOfAll ts

end

/-- All integers in a term can be written. -/
def HasShortIntegers (t : Term) : Prop :=
  ∀ i ∈ t.integers, Number.isShort i = true

theorem forall_mem_integersOfAll {ts : List Term} :
    (∀ i ∈ integersOfAll ts, Number.isShort i = true) ↔ ∀ t ∈ ts, t.HasShortIntegers := by
  induction ts with
  | nil => simp [integersOfAll]
  | cons t ts ih =>
      rw [integersOfAll, List.forall_mem_append, List.forall_mem_cons, ih, HasShortIntegers]

/-- What holds of the integers of a node with one term in it. -/
theorem forall_mem_cons_integers {line : Int} {t : Term}
    (h : ∀ i ∈ line :: t.integers, Number.isShort i = true) :
    (∃ text, Number.intText line = .ok text) ∧ t.HasShortIntegers := by
  rw [List.forall_mem_cons] at h
  exact ⟨Number.exists_intText h.1, h.2⟩

/-- What holds of the integers of a node with a list of terms in it. -/
theorem forall_mem_cons_integersOfAll {line : Int} {ts : List Term}
    (h : ∀ i ∈ line :: integersOfAll ts, Number.isShort i = true) :
    (∃ text, Number.intText line = .ok text) ∧ ∀ t ∈ ts, t.HasShortIntegers := by
  rw [List.forall_mem_cons] at h
  exact ⟨Number.exists_intText h.1, forall_mem_integersOfAll.1 h.2⟩

mutual

/-- A term with integers that can be written has a dump. -/
theorem exists_dump {t : Term} (h : t.HasShortIntegers) : ∃ text, t.dump = .ok text := by
  unfold HasShortIntegers at h
  cases t with
  | nil | bool value | string value => exact ⟨_, rfl⟩
  | number value =>
      rw [dump]
      refine Number.exists_text ?_
      cases value with
      | int i => exact h i (by simp [integers])
      | real x => trivial
  | list ts =>
      rw [integers, forall_mem_integersOfAll] at h
      rw [dump]
      exact Written.exists_bind (exists_dumpAll h) fun _ _ => ⟨_, rfl⟩
  | identifier name line | atom name line =>
      have hline := Number.exists_intText (h line (by simp [integers]))
      rw [dump]
      exact Written.exists_bind hline fun _ _ => ⟨_, rfl⟩
  | literal value line | keyword key value line | assignment name value line =>
      rw [integers] at h
      obtain ⟨hline, hvalue⟩ := forall_mem_cons_integers h
      rw [dump]
      exact Written.exists_bind (exists_dump hvalue) fun _ _ =>
        Written.exists_bind hline fun _ _ => ⟨_, rfl⟩
  | listNode ts line =>
      rw [integers] at h
      obtain ⟨hline, hts⟩ := forall_mem_cons_integersOfAll h
      rw [dump]
      exact Written.exists_bind (exists_dumpAll hts) fun _ _ =>
        Written.exists_bind hline fun _ _ => ⟨_, rfl⟩
  | directive name line ts | call name line ts | block name line ts kind =>
      rw [integers] at h
      obtain ⟨hline, hts⟩ := forall_mem_cons_integersOfAll h
      rw [dump]
      exact Written.exists_bind hline fun _ _ =>
        Written.exists_bind (exists_dumpAll hts) fun _ _ => ⟨_, rfl⟩

theorem exists_dumpAll {ts : List Term} (h : ∀ t ∈ ts, t.HasShortIntegers) :
    ∃ texts, dumpAll ts = .ok texts := by
  cases ts with
  | nil => exact ⟨[], rfl⟩
  | cons t ts =>
      rw [List.forall_mem_cons] at h
      rw [dumpAll]
      exact Written.exists_bind (exists_dump h.1) fun _ _ =>
        Written.exists_bind (exists_dumpAll h.2) fun _ _ => ⟨_, rfl⟩

end

mutual

/-- It has a text too: a value has one if what stands in it has, and a statement shows as its
dump. -/
theorem HasShortIntegers.hasText {t : Term} (h : t.HasShortIntegers) : t.HasText := by
  cases t with
  | nil => exact inherited_hasText.nil
  | string text => exact inherited_hasText.string text
  | identifier name line => exact inherited_hasText.identifier name line
  | atom name line => exact inherited_hasText.atom name line
  | bool value => exact ⟨_, rfl⟩
  | list ts =>
      rw [HasShortIntegers, integers, forall_mem_integersOfAll] at h
      exact inherited_hasText.list.2 (hasText_of_hasShortIntegers h)
  | listNode ts line =>
      rw [HasShortIntegers, integers] at h
      have hts := (forall_mem_cons_integersOfAll h).2
      exact inherited_hasText.listNode.2 (hasText_of_hasShortIntegers hts)
  | literal value line =>
      rw [HasShortIntegers, integers] at h
      exact inherited_hasText.literal.2 (forall_mem_cons_integers h).2.hasText
  | keyword key value line =>
      rw [HasShortIntegers, integers] at h
      exact inherited_hasText.keyword.2 (forall_mem_cons_integers h).2.hasText
  -- A number and a statement are rendered as they are dumped.
  | number | directive | assignment | call | block => exact exists_dump h

theorem hasText_of_hasShortIntegers {ts : List Term} (h : ∀ t ∈ ts, t.HasShortIntegers) :
    ∀ t ∈ ts, t.HasText := by
  cases ts with
  | nil => simp
  | cons t ts =>
      rw [List.forall_mem_cons] at h ⊢
      exact ⟨h.1.hasText, hasText_of_hasShortIntegers h.2⟩

end

/-- What stands in such a statement has a text. -/
theorem HasShortIntegers.operands {t : Term} (h : t.HasShortIntegers) :
    ∀ v ∈ t.operands, v.HasText := by
  unfold HasShortIntegers at h
  cases t with
  | directive name line args | call name line args =>
      rw [integers] at h
      exact hasText_of_hasShortIntegers (forall_mem_cons_integersOfAll h).2
  | assignment name value line =>
      rw [integers] at h
      exact List.forall_mem_singleton.2 (forall_mem_cons_integers h).2.hasText
  | _ => simp [Term.operands]

end GradingScript.Term
