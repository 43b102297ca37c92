import GradingScript.Proofs.Bindings.Held
import GradingScript.Proofs.Bindings.Placeholder
import GradingScript.Proofs.Term.Integers
import Mathlib

/-!
# Texts as templates

A text is cut at its placeholders into a template: what stands in front of the first one, and each
of them with what stands behind it.  Substitution fills the template and does not look at what it
fills in.

* `Template.IsProper` says where the cuts are, without a scan.  `Template.ofText` makes the cuts
  from left to right; `isProper_ofText` and `ofText_text` say that there is no other way.
* `substituteChars_append` is substitution in two parts of a text, if no placeholder goes on from the
  first into the second.  `substituteChars_text` follows from it, placeholder by placeholder.
-/

namespace GradingScript

namespace Text

/-- No percent sign in a text has a word character behind it. -/
def IsInert (cs : List Char) : Prop :=
  ∀ before c behind, cs = before ++ '%' :: c :: behind → isWord c = false

/-- A text is empty or begins with a character that is in no word. -/
def BeginsOutside (cs : List Char) : Prop :=
  ∀ c ∈ cs.head?, isWord c = false

/-- A percent sign stands in front of the word characters that a text ends with. -/
def EndsOpen (cs : List Char) : Prop :=
  ∃ before word, cs = before ++ '%' :: word ∧ ∀ c ∈ word, isWord c = true

theorem isWord_percent : isWord '%' = false := by
  decide

theorem beginsOutside_nil : BeginsOutside [] := by
  simp [BeginsOutside]

theorem beginsOutside_percent (cs : List Char) : BeginsOutside ('%' :: cs) := by
  simp [BeginsOutside, isWord_percent]

theorem beginsOutside_dropWhile (cs : List Char) : BeginsOutside (cs.dropWhile isWord) := by
  intro c hc
  have hstop := List.head?_dropWhile_not isWord cs
  rw [Option.mem_def.1 hc] at hstop
  simpa using hstop

theorem beginsOutside_iff {cs : List Char} : BeginsOutside cs ↔ cs.takeWhile isWord = [] := by
  cases cs with
  | nil => simp [BeginsOutside]
  | cons c cs => simp [BeginsOutside, List.takeWhile_cons]

theorem isInert_nil : IsInert [] := by
  simp [IsInert]

/-- A percent sign in front of a text without one that begins outside of words begins nothing. -/
theorem isInert_cons {c : Char} {cs : List Char} :
    IsInert (c :: cs) ↔ (c = '%' → BeginsOutside cs) ∧ IsInert cs := by
  constructor
  · intro h
    constructor
    · rintro rfl d hd
      obtain ⟨ds, rfl⟩ := List.head?_eq_some_iff.1 (Option.mem_def.1 hd)
      exact h [] d ds rfl
    · rintro before d behind rfl
      exact h (c :: before) d behind rfl
  · rintro ⟨hc, hcs⟩ before d behind heq
    cases before with
    | nil =>
        cases heq
        exact hc rfl d rfl
    | cons b before =>
        cases heq
        exact hcs before d behind rfl

theorem endsOpen_append {cs : List Char} (h : EndsOpen cs) (front : List Char) :
    EndsOpen (front ++ cs) := by
  obtain ⟨before, word, rfl, hword⟩ := h
  exact ⟨front ++ before, word, (List.append_assoc _ _ _).symm, hword⟩

/-- Two texts meet outside of placeholders. -/
def Parts (u v : List Char) : Prop :=
  BeginsOutside v ∨ ¬EndsOpen u

namespace Parts

variable {u v : List Char}

theorem behind (front : List Char) (h : Parts (front ++ u) v) : Parts u v :=
  h.imp_right fun hopen hu => hopen (endsOpen_append hu front)

/-- What stands behind a percent sign and a word begins outside of words, also in the longer
text. -/
theorem beginsOutside {word rest : List Char} (hword : ∀ c ∈ word, isWord c = true)
    (hrest : BeginsOutside rest) (h : Parts ('%' :: (word ++ rest)) v) :
    BeginsOutside (rest ++ v) := by
  cases rest with
  | cons c rest => exact hrest
  | nil =>
      refine h.resolve_right fun hopen => hopen ⟨[], word, ?_, hword⟩
      rw [List.append_nil, List.nil_append]

end Parts

end Text

open Text

/-- A text that is cut at its placeholders. -/
structure Template where
  /-- What stands in front of the first placeholder. -/
  front : List Char
  /-- The word of each placeholder with what stands behind it. -/
  holes : List (List Char × List Char)

namespace Template

/-- The text that is cut. -/
def text (t : Template) : List Char :=
  t.front ++ t.holes.flatMap fun (word, behind) => '%' :: (word ++ behind)

/-- The cuts are at the placeholders: each has a word, which is as long as it can be, and there are
no placeholders but those. -/
structure IsProper (t : Template) : Prop where
  front : IsInert t.front
  word : ∀ hole ∈ t.holes, hole.1 ≠ [] ∧ ∀ c ∈ hole.1, isWord c = true
  maximal : ∀ hole ∈ t.holes, BeginsOutside hole.2
  behind : ∀ hole ∈ t.holes, IsInert hole.2

/-- A placeholder with what stands behind it, filled: the text of what its word is bound to comes in
its place.  It stays as it is if its word is not bound. -/
def fillHole (b : Bindings) (word behind : List Char) : Written (List Char) :=
  match b.get? (String.ofList word) with
  | some value => do pure ((← value.text).toList ++ behind)
  | none => pure ('%' :: (word ++ behind))

/-- The text with every placeholder filled. -/
def fill (b : Bindings) (t : Template) : Written (List Char) := do
  let parts ← t.holes.mapM fun (word, behind) => fillHole b word behind
  pure (t.front ++ parts.flatten)

/-- The template of a text. -/
def ofText : List Char → Template
  | [] => ⟨[], []⟩
  | c :: cs =>
    if c = '%' ∧ cs.takeWhile isWord ≠ [] then
      let t := ofText (cs.dropWhile isWord)
      ⟨[], (cs.takeWhile isWord, t.front) :: t.holes⟩
    else
      let t := ofText cs
      ⟨c :: t.front, t.holes⟩
termination_by cs => cs.length
decreasing_by
  · have := (List.dropWhile_suffix (p := isWord) (l := cs)).length_le
    simp only [List.length_cons]
    omega
  · simp

variable {front word behind : List Char} {holes : List (List Char × List Char)}

theorem text_nil : text ⟨front, []⟩ = front := by
  simp [text]

theorem text_cons :
    text ⟨front, (word, behind) :: holes⟩ = front ++ '%' :: (word ++ text ⟨behind, holes⟩) := by
  simp [text]

/-- A template without its front is one of the rest of the text. -/
theorem isProper_cons :
    IsProper ⟨front, (word, behind) :: holes⟩ ↔
      IsInert front ∧ (word ≠ [] ∧ ∀ c ∈ word, isWord c = true) ∧ BeginsOutside behind ∧
        IsProper ⟨behind, holes⟩ := by
  constructor
  · rintro ⟨hfront, hword, hmaximal, hbehind⟩
    rw [List.forall_mem_cons] at hword hmaximal hbehind
    exact ⟨hfront, hword.1, hmaximal.1, hbehind.1, hword.2, hmaximal.2, hbehind.2⟩
  · rintro ⟨hfront, hword, hmaximal, hinert, hwords, hmaximals, hbehinds⟩
    exact ⟨hfront, List.forall_mem_cons.2 ⟨hword, hwords⟩,
      List.forall_mem_cons.2 ⟨hmaximal, hmaximals⟩, List.forall_mem_cons.2 ⟨hinert, hbehinds⟩⟩

theorem beginsOutside_text (h : BeginsOutside behind) : BeginsOutside (text ⟨behind, holes⟩) := by
  cases behind with
  | cons c behind => exact h
  | nil =>
      cases holes with
      | nil => exact beginsOutside_nil
      | cons hole holes =>
          rw [text_cons]
          exact beginsOutside_percent _

/-! ## The template of a text -/

theorem text_ofText (cs : List Char) : (ofText cs).text = cs := by
  induction cs using ofText.induct with
  | case1 => rw [ofText, text_nil]
  | case2 c cs hplaceholder ih =>
      rw [ofText, if_pos hplaceholder, text_cons, ih, List.takeWhile_append_dropWhile,
        hplaceholder.1]
      rfl
  | case3 c cs hplain ih =>
      rw [ofText, if_neg hplain]
      exact congrArg (c :: ·) ih

theorem ofText_inert {rest : List Char} (hfront : IsInert front) (hrest : BeginsOutside rest) :
    ofText (front ++ rest) = ⟨front ++ (ofText rest).front, (ofText rest).holes⟩ := by
  induction front with
  | nil => rfl
  | cons c front ih =>
      obtain ⟨hc, hfront⟩ := isInert_cons.1 hfront
      have hplain : ¬(c = '%' ∧ (front ++ rest).takeWhile isWord ≠ []) := by
        rintro ⟨rfl, hword⟩
        rw [takeWhile_append_of_head hrest, beginsOutside_iff.1 (hc rfl)] at hword
        exact hword rfl
      rw [List.cons_append, ofText, if_neg hplain, ih hfront]
      rfl

theorem ofText_placeholder {rest : List Char} (hne : word ≠ [])
    (hword : ∀ c ∈ word, isWord c = true) (hrest : BeginsOutside rest) :
    ofText ('%' :: (word ++ rest)) = ⟨[], (word, (ofText rest).front) :: (ofText rest).holes⟩ := by
  rw [ofText, takeWhile_run hword hrest, dropWhile_run hword hrest, if_pos ⟨rfl, hne⟩]

/-- The cuts of a proper template are where the scan makes them. -/
theorem ofText_text {t : Template} (h : t.IsProper) : ofText t.text = t := by
  obtain ⟨front, holes⟩ := t
  induction holes generalizing front with
  | nil =>
      have hinert : ofText (front ++ []) = ⟨front ++ [], []⟩ := by
        rw [ofText_inert h.front beginsOutside_nil, ofText]
      rw [text_nil]
      simpa using hinert
  | cons hole holes ih =>
      obtain ⟨word, behind⟩ := hole
      obtain ⟨hfront, ⟨hne, hword⟩, hmaximal, hrest⟩ := isProper_cons.1 h
      rw [text_cons, ofText_inert hfront (beginsOutside_percent _),
        ofText_placeholder hne hword (beginsOutside_text hmaximal), ih behind hrest,
        List.append_nil]

/-- The front of a template begins as its text does. -/
theorem beginsOutside_front {cs : List Char} (h : BeginsOutside cs) :
    BeginsOutside (ofText cs).front := by
  rw [← text_ofText cs] at h
  cases hfront : (ofText cs).front with
  | nil => exact beginsOutside_nil
  | cons c front =>
      rw [text, hfront] at h
      exact h

theorem isProper_ofText (cs : List Char) : (ofText cs).IsProper := by
  induction cs using ofText.induct with
  | case1 =>
      rw [ofText]
      exact ⟨isInert_nil, by simp, by simp, by simp⟩
  | case2 c cs hplaceholder ih =>
      rw [ofText, if_pos hplaceholder]
      exact isProper_cons.2 ⟨isInert_nil,
        ⟨hplaceholder.2, fun c => List.mem_takeWhile_imp⟩,
        beginsOutside_front (beginsOutside_dropWhile cs), ih⟩
  | case3 c cs hplain ih =>
      rw [ofText, if_neg hplain]
      refine ⟨isInert_cons.2 ⟨?_, ih.front⟩, ih.word, ih.maximal, ih.behind⟩
      rintro rfl
      have hword : cs.takeWhile isWord = [] := by simpa using hplain
      exact beginsOutside_front (beginsOutside_iff.2 hword)

end Template

namespace Bindings

open Template

variable {b : Bindings}

/-! ## Substitution in parts -/

/-- Substitution in a text is substitution in its parts, if no placeholder goes on from the first
into the second. -/
theorem substituteChars_append {u v : List Char} (h : Parts u v) :
    b.substituteChars (u ++ v) =
      b.substituteChars u >>= fun first =>
        b.substituteChars v >>= fun behind => .ok (first ++ behind) := by
  induction u using substituteChars.induct with
  | case1 =>
      rw [List.nil_append, substituteChars_nil]
      cases b.substituteChars v <;> rfl
  | case2 c cs hplaceholder ih =>
      obtain ⟨rfl, hne⟩ := hplaceholder
      have hword : ∀ c ∈ cs.takeWhile isWord, isWord c = true := fun c => List.mem_takeWhile_imp
      have hrest := beginsOutside_dropWhile cs
      rw [← List.takeWhile_append_dropWhile (p := isWord) (l := cs)] at h
      have hbehind := h.beginsOutside hword hrest
      have hparts : Parts (cs.dropWhile isWord) v :=
        Parts.behind ('%' :: cs.takeWhile isWord) h
      have hjoined := substituteChars_placeholder b hne hword hbehind
      have hfirst := substituteChars_placeholder b hne hword hrest
      rw [← List.append_assoc, List.takeWhile_append_dropWhile, ih hparts] at hjoined
      rw [List.takeWhile_append_dropWhile] at hfirst
      rw [List.cons_append, hjoined, hfirst]
      simp only [bind_assoc, Written.ok_bind, List.append_assoc]
  | case3 c cs hplain ih =>
      have hparts : Parts cs v := Parts.behind [c] h
      have hplain' : ¬(c = '%' ∧ (cs ++ v).takeWhile isWord ≠ []) := by
        rintro ⟨rfl, hne⟩
        have hcs : BeginsOutside cs := beginsOutside_iff.2 (by simpa using hplain)
        have hnone : ∀ c ∈ ([] : List Char), isWord c = true := by simp
        exact hne (beginsOutside_iff.1 (Parts.beginsOutside hnone hcs h))
      rw [List.cons_append, substituteChars_cons b hplain', substituteChars_cons b hplain, ih hparts]
      simp only [bind_assoc, Written.ok_bind, List.cons_append]

/-- What stands outside of placeholders stays. -/
theorem substituteChars_inert {cs : List Char} (h : IsInert cs) : b.substituteChars cs = .ok cs := by
  refine substituteChars_of_unbound fun name hplaceholder => ?_
  obtain ⟨before, behind, rfl, hne, hword, -⟩ := hplaceholder
  obtain ⟨c, name, rfl⟩ := List.exists_cons_of_ne_nil hne
  have houtside := h before c (name ++ behind) rfl
  rw [hword c List.mem_cons_self] at houtside
  cases houtside

theorem fillHole_eq (word behind : List Char) :
    fillHole b word behind = b.replacement word >>= fun first => .ok (first ++ behind) := by
  cases hvalue : b.get? (String.ofList word) with
  | some value =>
      simp only [fillHole, replacement, hvalue, bind_assoc, pure_bind]
      rfl
  | none =>
      simp only [fillHole, replacement, hvalue]
      rfl

/-- Substitution fills the placeholders one by one. -/
theorem substituteChars_text {t : Template} (h : t.IsProper) :
    b.substituteChars t.text = t.fill b := by
  obtain ⟨front, holes⟩ := t
  induction holes generalizing front with
  | nil =>
      rw [text_nil, substituteChars_inert h.front]
      simp [fill]
      rfl
  | cons hole holes ih =>
      obtain ⟨word, behind⟩ := hole
      obtain ⟨hfront, ⟨hne, hword⟩, hmaximal, hrest⟩ := isProper_cons.1 h
      have hparts : Parts front ('%' :: (word ++ text ⟨behind, holes⟩)) :=
        .inl (beginsOutside_percent _)
      rw [text_cons, substituteChars_append hparts, substituteChars_inert hfront,
        substituteChars_placeholder b hne hword (beginsOutside_text hmaximal), ih behind hrest]
      simp only [fill, List.mapM_cons, fillHole_eq, bind_assoc, pure_bind, Written.ok_bind,
        List.flatten_cons, List.append_assoc]
      rfl

/-- With variables that have texts, every text has a value, which is its template filled.  A text in
two parts has the values of the parts, if no placeholder goes on from the first into the second. -/
theorem substitute_one_pass (hb : b.Hold Term.HasShortIntegers) (text : String) :
    (∃! t : Template, t.IsProper ∧ t.text = text.toList) ∧
      (∀ t : Template, t.IsProper → t.text = text.toList →
        ∃ filled, t.fill b = .ok filled ∧ b.substitute text = .ok (String.ofList filled)) ∧
      ∀ v : String, BeginsOutside v.toList ∨ ¬EndsOpen text.toList →
        ∃ first behind, b.substitute text = .ok first ∧ b.substitute v = .ok behind ∧
          b.substitute (text ++ v) = .ok (first ++ behind) := by
  have hvalues : b.Hold Term.HasText := hb.imp fun _ => Term.HasShortIntegers.hasText
  have hsubstitute {u : String} {cs : List Char} (h : b.substituteChars u.toList = .ok cs) :
      b.substitute u = .ok (String.ofList cs) := by
    rw [substitute, h]
    rfl
  refine ⟨?_, ?_, ?_⟩
  · refine ⟨ofText text.toList, ⟨isProper_ofText _, text_ofText _⟩, ?_⟩
    rintro t ⟨hproper, htext⟩
    rw [← htext, ofText_text hproper]
  · intro t hproper htext
    obtain ⟨filled, hfilled⟩ := exists_substituteChars hvalues text.toList
    refine ⟨filled, ?_, hsubstitute hfilled⟩
    rwa [← htext, substituteChars_text hproper] at hfilled
  · intro v hparts
    obtain ⟨first, hfirst⟩ := exists_substituteChars hvalues text.toList
    obtain ⟨behind, hbehind⟩ := exists_substituteChars hvalues v.toList
    refine ⟨_, _, hsubstitute hfirst, hsubstitute hbehind, ?_⟩
    rw [← String.ofList_append]
    apply hsubstitute
    rw [String.toList_append, substituteChars_append hparts, hfirst, hbehind]
    rfl

/-- Percent signs that touch each other, a value with one in it, and a word that is not bound. -/
theorem substitute_one_pass_touching :
    let b := (empty.bind "a" (.string "%b")).bind "b" (.bool true)
    let text := "%%a%b %c"
    let t : Template := ⟨['%'], [(['a'], []), (['b'], [' ']), (['c'], [])]⟩
    b.Hold Term.HasShortIntegers ∧ (t.IsProper ∧ t.text = text.toList) ∧
      b.substitute text = .ok "%%btrue %c" ∧
      b.substitute (text ++ "-%b") = .ok "%%btrue %c-true" := by
  intro b text t
  have hb : b.Hold Term.HasShortIntegers := by
    refine ((hold_empty _).bind_plain "a" ?_).bind_plain "b" ?_ <;>
      simp [Term.HasShortIntegers, Term.plain, Term.integers]
  have ht : ofText text.toList = t := by cbv
  have hproper : t.IsProper := ht ▸ isProper_ofText text.toList
  have htext : t.text = text.toList := ht ▸ text_ofText text.toList
  obtain ⟨-, hfill, happend⟩ := substitute_one_pass hb text
  obtain ⟨filled, hfilled, hvalue⟩ := hfill t hproper htext
  obtain ⟨first, behind, hfirst, hbehind, hboth⟩ := happend "-%b"
    (.inl (beginsOutside_iff.2 (by cbv)))
  have hexpected : t.fill b = .ok "%%btrue %c".toList := by cbv
  obtain rfl := Except.ok.inj (hexpected.symm.trans hfilled)
  have hsecond : b.substitute "-%b" = .ok "-true" := by cbv
  obtain rfl := Except.ok.inj (hvalue.symm.trans hfirst)
  obtain rfl := Except.ok.inj (hsecond.symm.trans hbehind)
  exact ⟨hb, ⟨hproper, htext⟩, hvalue, hboth⟩

end Bindings

end GradingScript
