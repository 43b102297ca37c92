import GradingScript.Bindings
import Mathlib.Data.List.TakeWhile

/-!
# Placeholders and mentioned names

Substitution changes nothing but the placeholders of bound names, so a text without any is its own
value.  The value of a term depends on the names that the term mentions and on no others: on the
names that stand in it, and on those of the placeholders in its strings.  The terms that these names
are bound to are taken as they are, so what they mention themselves does not count.
-/

namespace GradingScript

/-! ## Placeholders -/

/-- A placeholder of a name stands somewhere in a text: a percent sign with the name behind it, and
no further word character behind the name. -/
def Text.HasPlaceholder (name cs : List Char) : Prop :=
  ∃ before behind, cs = before ++ '%' :: (name ++ behind) ∧ name ≠ [] ∧
    (∀ c ∈ name, Text.isWord c = true) ∧ ∀ c, behind.head? = some c → Text.isWord c = false

namespace Text

theorem HasPlaceholder.append_left {name cs : List Char} (h : HasPlaceholder name cs)
    (front : List Char) : HasPlaceholder name (front ++ cs) := by
  obtain ⟨before, behind, rfl, hname⟩ := h
  exact ⟨front ++ before, behind, (List.append_assoc _ _ _).symm, hname⟩

theorem HasPlaceholder.percent_mem {name cs : List Char} (h : HasPlaceholder name cs) :
    '%' ∈ cs := by
  obtain ⟨before, behind, rfl, -⟩ := h
  exact List.mem_append_right before List.mem_cons_self

/-- A percent sign begins a placeholder of the longest word behind it. -/
theorem hasPlaceholder_percent {cs : List Char} (hword : cs.takeWhile isWord ≠ []) :
    HasPlaceholder (cs.takeWhile isWord) ('%' :: cs) := by
  refine ⟨[], cs.dropWhile isWord, ?_, hword, fun c => List.mem_takeWhile_imp, fun c hc => ?_⟩
  · rw [List.takeWhile_append_dropWhile, List.nil_append]
  · have hstop := List.head?_dropWhile_not isWord cs
    rw [hc] at hstop
    simpa using hstop

/-- The placeholders of a text are the words behind its percent signs, each as long as it
reaches. -/
theorem hasPlaceholder_iff {name cs : List Char} :
    HasPlaceholder name cs ↔
      ∃ rest, '%' :: rest <:+ cs ∧ rest.takeWhile isWord = name ∧ name ≠ [] := by
  constructor
  · rintro ⟨before, behind, rfl, hne, hword, hbehind⟩
    exact ⟨name ++ behind, List.suffix_append before _, takeWhile_run hword hbehind, hne⟩
  · rintro ⟨rest, ⟨before, rfl⟩, rfl, hne⟩
    exact (hasPlaceholder_percent hne).append_left before

end Text

namespace Bindings

variable {b b' : Bindings}

/-- Substitution asks for what stands in the place of placeholders alone. -/
theorem substituteChars_congr {cs : List Char}
    (h : ∀ name, Text.HasPlaceholder name cs → b.replacement name = b'.replacement name) :
    b.substituteChars cs = b'.substituteChars cs := by
  induction cs using substituteChars.induct with
  | case1 => rw [substituteChars_nil, substituteChars_nil]
  | case2 c cs hplaceholder ih =>
      obtain ⟨rfl, hword⟩ := hplaceholder
      have hsplit : '%' :: cs.takeWhile Text.isWord ++ cs.dropWhile Text.isWord = '%' :: cs := by
        rw [List.cons_append, List.takeWhile_append_dropWhile]
      -- The placeholder at hand, and those behind its word.
      have hname := h _ (Text.hasPlaceholder_percent hword)
      have hrest := ih fun name hlater => h name (hsplit ▸ hlater.append_left _)
      rw [substituteChars, substituteChars, if_pos ⟨rfl, hword⟩, if_pos ⟨rfl, hword⟩, hname, hrest]
  | case3 c cs hplain ih =>
      have hrest := ih fun name hlater => h name (hlater.append_left [c])
      rw [substituteChars_cons b hplain, substituteChars_cons b' hplain, hrest]

/-- Without variables nothing is replaced. -/
theorem substituteChars_empty (cs : List Char) : empty.substituteChars cs = .ok cs := by
  induction cs using substituteChars.induct with
  | case1 => exact substituteChars_nil empty
  | case2 c cs hplaceholder ih =>
      obtain ⟨rfl, hword⟩ := hplaceholder
      have hsplit : '%' :: cs.takeWhile Text.isWord ++ cs.dropWhile Text.isWord = '%' :: cs := by
        rw [List.cons_append, List.takeWhile_append_dropWhile]
      rw [substituteChars, if_pos ⟨rfl, hword⟩, ih]
      exact congrArg Except.ok hsplit
  | case3 c cs hplain ih =>
      rw [substituteChars_cons empty hplain, ih]
      rfl

/-- A text without placeholders of bound names stays as it is. -/
theorem substituteChars_of_unbound {cs : List Char}
    (h : ∀ name, Text.HasPlaceholder name cs → b.get? (String.ofList name) = none) :
    b.substituteChars cs = .ok cs := by
  have hsame : ∀ name, Text.HasPlaceholder name cs →
      b.replacement name = empty.replacement name := by
    intro name hname
    rw [replacement, h name hname]
    rfl
  rw [substituteChars_congr hsame, substituteChars_empty]

/-- A string without placeholders of bound names is its own value. -/
theorem resolve_string_of_unbound {text : String}
    (h : ∀ name, Text.HasPlaceholder name text.toList → b.get? (String.ofList name) = none) :
    b.resolve (.string text) = .ok (.string text) := by
  rw [resolve, substitute, substituteChars_of_unbound h]
  exact congrArg (fun value => Except.ok (Term.string value)) String.ofList_toList

end Bindings

/-! ## Mentioned names -/

namespace Term

mutual

/-- A name is mentioned in a term, at any depth: it stands there, or in a placeholder of a
string. -/
def Mentions (name : String) : Term → Prop
  | .nil | .bool _ | .number _ | .atom _ _ => False
  | .identifier other _ => other = name
  | .string text => Text.HasPlaceholder name.toList text.toList
  | .literal value _ | .keyword _ value _ | .assignment _ value _ => value.Mentions name
  | .list items | .listNode items _ => AnyMentions name items
  | .directive _ _ args | .call _ _ args => AnyMentions name args
  | .block _ _ children _ => AnyMentions name children

/-- A name is mentioned in one of several terms. -/
def AnyMentions (name : String) : List Term → Prop
  | [] => False
  | t :: ts => t.Mentions name ∨ AnyMentions name ts

end

@[simp] theorem anyMentions_iff {name : String} {ts : List Term} :
    AnyMentions name ts ↔ ∃ t ∈ ts, t.Mentions name := by
  induction ts with
  | nil => simp [AnyMentions]
  | cons t ts ih => simp [AnyMentions, ih]

/-- The datum that a term stands for mentions nothing that the term does not. -/
theorem Mentions.of_plain {name : String} (t : Term) (h : t.plain.Mentions name) :
    t.Mentions name := by
  match t, h with
  | .literal value line, h => rwa [plain_literal] at h
  | .listNode items line, h =>
      simp only [plain_listNode, Mentions, anyMentions_iff, List.mem_map] at h ⊢
      obtain ⟨_, ⟨item, hitem, rfl⟩, hname⟩ := h
      exact ⟨item, hitem, of_plain item hname⟩
  | .nil, h | .bool _, h | .number _, h | .string _, h | .list _, h | .identifier _ _, h
  | .atom _ _, h | .keyword _ _ _, h | .directive _ _ _, h | .assignment _ _ _, h
  | .call _ _ _, h | .block _ _ _ _, h => exact h

end Term

namespace Bindings

variable {b b' : Bindings}

/-- Two sets of variables agree on the names that a term mentions. -/
def AgreeOn (b b' : Bindings) (t : Term) : Prop :=
  ∀ name, t.Mentions name → b.get? name = b'.get? name

theorem AgreeOn.refl (b : Bindings) (t : Term) : b.AgreeOn b t :=
  fun _ _ => rfl

theorem AgreeOn.plain {t : Term} (h : b.AgreeOn b' t) : b.AgreeOn b' t.plain :=
  fun name hname => h name (.of_plain t hname)

theorem agreeOn_of_mem {ts : List Term}
    (h : ∀ name, Term.AnyMentions name ts → b.get? name = b'.get? name) :
    ∀ t ∈ ts, b.AgreeOn b' t :=
  fun t ht name hname => h name (Term.anyMentions_iff.2 ⟨t, ht, hname⟩)

mutual

/-- Variables that agree on what a term mentions give it the same value. -/
theorem resolve_congr {t : Term} (h : b.AgreeOn b' t) : b.resolve t = b'.resolve t := by
  cases t with
  | identifier name line => rw [resolve, resolve, h name rfl]
  | string text =>
      have htext : b.substituteChars text.toList = b'.substituteChars text.toList := by
        refine substituteChars_congr fun name hname => ?_
        have hmentions : (Term.string text).Mentions (String.ofList name) := by
          rwa [Term.Mentions, String.toList_ofList]
        rw [replacement, replacement, h _ hmentions]
      rw [resolve, resolve, substitute, substitute, htext]
  | list items =>
      rw [resolve, resolve, resolveAll_congr (agreeOn_of_mem h)]
  | _ => rfl

theorem resolveAll_congr {ts : List Term} (h : ∀ t ∈ ts, b.AgreeOn b' t) :
    b.resolveAll ts = b'.resolveAll ts := by
  cases ts with
  | nil => rfl
  | cons t ts =>
      rw [resolveAll, resolveAll, resolve_congr (h t (by simp)),
        resolveAll_congr fun u hu => h u (by simp [hu])]

end

end Bindings

end GradingScript
