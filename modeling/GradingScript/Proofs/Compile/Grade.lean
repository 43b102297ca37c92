import GradingScript.Proofs.Compile.Found
import GradingScript.Proofs.Compile.Journal
import GradingScript.Proofs.Grammar.Acceptance
import GradingScript.Proofs.Number
import GradingScript.Proofs.Token.Numerals

/-!
# The grade

A grade is rejected if it is less than 0 or greater than 1.  So whatever stands in a script, and
however it gets into the directive, the grade of a configuration is one of the numbers of the
script, and it lies from 0 to 1; but for `nan`, which is neither less nor greater than a number, and
so is not rejected.

* `Effect.grade_eq` is the step, and `grade_of_statements` the run.
* `compile_grade` says which grades there are, and `compileText_grade` that no text has `nan` as its
  grade, since no numeral is read as `nan`.
-/

namespace GradingScript

namespace Compile

/-- The grades that are not rejected are the numbers from 0 to 1, and `nan`. -/
theorem State.outOfRange_eq_false_iff {g : Number} :
    outOfRange g = false ↔
      g = .real .nan ∨ (Number.int 0).le g = true ∧ g.le (.int 1) = true := by
  by_cases hg : g = .real .nan
  · subst hg
    simp [outOfRange, Number.lt, Number.realLt, Number.intLt]
  · rw [Number.le_eq_not_lt (by simp) hg, Number.le_eq_not_lt hg (by simp)]
    simp [outOfRange, hg]

variable {catalogue : Catalogue}

/-- A statement leaves the grade as it is, or sets it to the number that its argument stands for. -/
theorem Effect.grade_eq {s s' : State} {t : Term} (h : Effect catalogue s t s') :
    s'.configuration.grade = s.configuration.grade ∨
      ∃ arg ∈ t.operands, ∃ g, s.single arg = .number g ∧ State.outOfRange g = false ∧
        s'.configuration.grade = some g := by
  cases h with
  | @grade name line arg g hname hvalue hrange =>
      exact .inr ⟨arg, by simp [Term.operands], g, hvalue, hrange, rfl⟩
  | _ => exact .inl rfl

/-- The grade that a script sets was not rejected, and it has every inherited property of what
stands in the statements of the script. -/
theorem grade_of_statements {P : Term → Prop} (hP : Term.Inherited P) {script : Script}
    (hscript : ∀ t ∈ script, ∀ v ∈ t.operands, P v) {s : State}
    (h : State.empty.statements catalogue script = .ok s) {g : Number}
    (hg : s.configuration.grade = some g) : State.outOfRange g = false ∧ P (.number g) := by
  have hrun : (∀ t ∈ script, ∀ v ∈ t.operands, P v) → ∀ g, s.configuration.grade = some g →
      State.outOfRange g = false ∧ P (.number g) := by
    refine State.statements_induction
      (P := fun script s => (∀ t ∈ script, ∀ v ∈ t.operands, P v) →
        ∀ g, s.configuration.grade = some g → State.outOfRange g = false ∧ P (.number g)) ?_ ?_ h
    · intro _ g hg
      cases hg
    · intro script s t s' hs ih ht hscript g hg
      rw [List.forall_mem_append, List.forall_mem_singleton] at hscript
      obtain hsame | ⟨arg, harg, g', hvalue, hrange, hg'⟩ := (State.effect_of_statement ht).grade_eq
      · exact ih hscript.1 g (hsame ▸ hg)
      · obtain rfl : g' = g := Option.some.inj (hg'.symm.trans hg)
        have hbindings := State.hold_of_statements hP hscript.1 hs
        exact ⟨hrange, hvalue ▸ State.found_single hP hbindings (hscript.2 arg harg)⟩
  exact hrun hscript g hg

end Compile

open Compile

/-- The grade is one of the numbers of the script, and it lies from 0 to 1 unless it is `nan`. -/
theorem compile_grade {catalogue : Catalogue} {script : Script} {o : Outcome} {c : Configuration}
    {g : Number} (ho : compile catalogue script = .ok o) (hc : o.draft = some c)
    (hg : c.grade = some g) :
    ((Number.int 0).le g = true ∧ g.le (.int 1) = true ↔ g ≠ .real .nan) ∧
      ∃ t ∈ script, g ∈ t.numbers := by
  obtain ⟨s, hs, rfl⟩ := compile_eq_ok_iff.1 ho
  obtain rfl := Option.some.inj hc
  let p : Number → Prop := fun n => ∃ t ∈ script, n ∈ t.numbers
  have hscript : ∀ t ∈ script, ∀ v ∈ t.operands, v.HasNumbers p :=
    fun t ht v hv n hn => ⟨t, ht, Term.numbers_of_mem_operands hv hn⟩
  obtain ⟨hrange, hnumber⟩ := grade_of_statements (Term.inherited_hasNumbers p) hscript hs hg
  refine ⟨⟨?_, fun hne => ?_⟩, Term.hasNumbers_number.1 hnumber⟩
  · rintro ⟨-, hle⟩ rfl
    rw [Number.nan_le] at hle
    cases hle
  · exact (State.outOfRange_eq_false_iff.1 hrange).resolve_left hne

/-- A half is assigned, and a grade of 2 behind it is rejected. -/
theorem compile_grade_half :
    let half : Number := .real (.finite false 1 (-1))
    let script : Script := [.assignment "g" (.literal (.number half) 1) 1,
      .directive "grade" 2 [.identifier "g" 2],
      .directive "grade" 3 [.literal (.number (.int 2)) 3]]
    let errors : List Diagnostic := [⟨3, "grade must be a value between 0 and 1", "", ""⟩]
    let c : Configuration := ⟨none, none, [], [], some half, false, [], errors⟩
    compile .standard script = .ok ⟨none, errors, some c⟩ ∧
      ((Number.int 0).le half = true ∧ half.le (.int 1) = true) := by
  intro half script errors c
  have hcompile : compile .standard script = .ok ⟨none, errors, some c⟩ := by decide +kernel
  have hgrade := compile_grade hcompile rfl (g := half) rfl
  exact ⟨hcompile, hgrade.1.2 (by simp [half])⟩

/-- The grade `nan` is not rejected, and nothing is wrong with the script. -/
theorem compile_grade_nan :
    let c : Configuration := ⟨none, none, [], [], some (.real .nan), false, [], []⟩
    compile .standard [.directive "grade" 1 [.literal (.number (.real .nan)) 1]] =
        .ok ⟨some c, [], some c⟩ ∧
      ¬ ((Number.int 0).le (.real .nan) = true ∧ (Number.real .nan).le (.int 1) = true) := by
  intro c
  refine ⟨by cbv, ?_⟩
  rw [Number.nan_le]
  simp

/-! ## Texts -/

/-- No number is `nan`. -/
def Number.IsOrdered (n : Number) : Prop :=
  n ≠ .real .nan

theorem Term.negatable_isOrdered : Negatable (HasNumbers Number.IsOrdered) := by
  intro value negated h hneg
  cases value with
  | number n =>
      cases hneg
      rw [hasNumbers_number] at h ⊢
      cases n with
      | int i => simp [Number.IsOrdered, Number.neg]
      | real x => simpa [Number.IsOrdered, Number.neg, Double.neg_eq_nan_iff] using h
  | bool value =>
      cases hneg
      rw [hasNumbers_number]
      simp [Number.IsOrdered]
  | _ => cases hneg

/-- No text has the number `nan` in it. -/
theorem Script.carries_isOrdered {text : String} {script : Script}
    (h : Script.ofText text = .ok script) :
    ∀ t ∈ script, t.Carries (Term.HasNumbers Number.IsOrdered) := by
  obtain ⟨ts, hscan, hspells⟩ := Grammar.spells_of_ofText h
  have hP := Term.inherited_hasNumbers Number.IsOrdered
  refine hspells.carries hP Term.negatable_isOrdered fun t ht => ?_
  have htyped := (Token.terminated_of_scan hscan).2 t ht
  refine Lexeme.holds_of_isTyped hP (fun _ => by simp [Term.HasNumbers, Term.numbers]) htyped
    fun value hvalue => ?_
  rw [Term.hasNumbers_number]
  exact (Token.number_of_scan hscan ht hvalue).1

/-- The grade of a text lies from 0 to 1. -/
theorem compileText_grade {catalogue : Catalogue} {text : String} {o : Outcome}
    {c : Configuration} {g : Number} (ho : compileText catalogue text = .ok o)
    (hc : o.draft = some c) (hg : c.grade = some g) :
    (Number.int 0).le g = true ∧ g.le (.int 1) = true := by
  unfold compileText at ho
  split at ho
  · next script hscript =>
      obtain ⟨s, hs, rfl⟩ := compile_eq_ok_iff.1 ho
      obtain rfl := Option.some.inj hc
      obtain ⟨hrange, hordered⟩ := grade_of_statements (Term.inherited_hasNumbers Number.IsOrdered)
        (fun t ht => (Script.carries_isOrdered hscript t ht).operands) hs hg
      have hne : g.IsOrdered := Term.hasNumbers_number.1 hordered
      exact (State.outOfRange_eq_false_iff.1 hrange).resolve_left hne
  · -- A text that is no script has no configuration.
    obtain ⟨token, -, ho⟩ := Written.bind_eq_ok.1 ho
    obtain rfl := Written.pure_eq_ok.1 ho
    cases hc

end GradingScript
