import GradingScript.Proofs.Bindings.Held
import GradingScript.Proofs.Compile.Frame
import GradingScript.Proofs.Grammar.Values

/-!
# What the compilation finds

The terms that the compilation comes to are found in the script: the values of parameters, the
argument of a directive, the term that a problem shows, and what the variables hold for later
statements.  If all that stands in the statements of a script has an inherited property, then so has
each of these.

* `Failure` lists what can be wrong with a statement of a step, and `failure_of_command` says that
  nothing else is.
* `hold_of_statement` is the step, and `hold_of_statements` the run, for the variables.
-/

namespace GradingScript

open Term

/-- The term that a problem shows, if it shows one, has a property. -/
def Problem.Shows (P : Term → Prop) : Problem → Prop
  | .unknownEnvironment term _ | .extension term | .gradeKind term | .argument term => P term
  | _ => True

/-- What is not found under a name is not among those of that name. -/
theorem not_mem_map_of_find? {α : Type} {key : α → String} {xs : List α} {name : String}
    (h : xs.find? (key · = name) = none) : name ∉ xs.map key := by
  rw [List.find?_eq_none] at h
  rw [List.mem_map]
  rintro ⟨x, hx, rfl⟩
  exact h x hx (decide_eq_true rfl)

/-- What has no number of arguments is no capability. -/
theorem Environment.not_mem_commandNames {e : Environment} {name : String}
    (h : e.arityOf? name = none) : name ∉ e.commandNames :=
  not_mem_map_of_find? (Option.map_eq_none_iff.1 h)

namespace Compile

variable {P : Term → Prop} {b : Bindings} {environment : Option Environment} {p : Problem}

/-! ## Commands -/

/-- What may be wrong with a statement of a step, if a property holds of what stands in it. -/
inductive Failure (P : Term → Prop) (environment : Option Environment) : Problem → Prop
  | malformed : Failure P environment .malformed
  | unknownCommand {name : String} {known : List String} (h : name ∉ known) :
      Failure P environment (.unknownCommand name known)
  | argumentCount {name : String} {arity : Int} (h : arityOf environment name = .ok arity) :
      Failure P environment (.argumentCount name arity)
  | unboundVariable {name : String} : Failure P environment (.unboundVariable name)
  | argument {value : Term} (h : P value) : Failure P environment (.argument value)
  | rejected {rejection : Rejection} : Failure P environment (.rejected rejection)

theorem Failure.shows (h : Failure P environment p) : p.Shows P := by
  cases h with
  | argument h => exact h
  | _ => trivial

theorem failure_of_valueText {value : Term} (hvalue : P value)
    (h : argument.valueText value = .ok (.error p)) : Failure P environment p := by
  unfold argument.valueText at h
  split at h
  any_goals
    obtain ⟨text, -, h⟩ := Written.bind_eq_ok.1 h
    cases h
  cases h
  exact .argument hvalue

theorem failure_of_argument (hP : Inherited P) (hb : b.Hold P) {arg : Term} (harg : P arg)
    (h : argument b arg = .ok (.error p)) : Failure P environment p := by
  unfold argument at h
  split at h
  · next name line hplain =>
      split at h
      · next value hvalue => exact failure_of_valueText (hb name value hvalue) h
      · cases h
        exact .unboundVariable
  · obtain ⟨value, hvalue, h⟩ := Written.bind_eq_ok.1 h
    exact failure_of_valueText (hb.resolve hP (hP.plain harg) hvalue) h

theorem failure_of_arguments (hP : Inherited P) (hb : b.Hold P) {args : List Term}
    (hargs : ∀ arg ∈ args, P arg) (h : arguments b args = .ok (.error p)) :
    Failure P environment p := by
  induction args with
  | nil => cases h
  | cons arg args ih =>
      rw [arguments] at h
      rw [List.forall_mem_cons] at hargs
      obtain ⟨text?, htext, h⟩ := Written.bind_eq_ok.1 h
      cases text? with
      | error p' =>
          cases h
          exact failure_of_argument hP hb hargs.1 htext
      | ok text =>
          obtain ⟨texts?, htexts, h⟩ := Written.bind_eq_ok.1 h
          cases texts? with
          | error p' =>
              cases h
              exact ih hargs.2 htexts
          | ok texts => cases h

/-- Only a name that is not known has no number of arguments. -/
theorem eq_unknownCommand_of_arityOf {name : String} (h : arityOf environment name = .error p) :
    ∃ known, p = .unknownCommand name known ∧ name ∉ known := by
  unfold arityOf at h
  split at h
  · cases h
  · next hcommon =>
      split at h
      · exact ⟨[], (Except.error.inj h).symm, List.not_mem_nil⟩
      · next e =>
          split at h
          · cases h
          · next hnone =>
              refine ⟨_, (Except.error.inj h).symm, ?_⟩
              rw [List.mem_append, not_or]
              exact ⟨hcommon, Environment.not_mem_commandNames hnone⟩

/-- Arguments that are as many as are asked for are rejected by the environment, if at all. -/
theorem eq_of_makeCommand {name : String} {texts : List String}
    (h : makeCommand environment name texts = .error p) :
    (∃ known, p = .unknownCommand name known ∧ name ∉ known) ∨
      ∃ rejection, p = .rejected rejection := by
  unfold makeCommand at h
  split at h
  · cases h
  · split at h
    · exact .inl ⟨[], (Except.error.inj h).symm, List.not_mem_nil⟩
    · next e =>
        cases hinvoke : e.invoke name texts with
        | ok c => simp [hinvoke, Except.mapError] at h
        | error rejection =>
            rw [hinvoke] at h
            exact .inr ⟨rejection, (Except.error.inj h).symm⟩

theorem failure_of_command (hP : Inherited P) (hb : b.Hold P) {t : Term}
    (ht : ∀ v ∈ t.operands, P v) (h : command b environment t = .ok (.error p)) :
    Failure P environment p := by
  cases t with
  | call name line args =>
      rw [command] at h
      cases harity : arityOf environment name with
      | error p' =>
          obtain ⟨known, rfl, hknown⟩ := eq_unknownCommand_of_arityOf harity
          rw [harity] at h
          cases h
          exact .unknownCommand hknown
      | ok arity =>
          simp only [harity] at h
          split at h
          · obtain ⟨texts?, htexts, h⟩ := Written.bind_eq_ok.1 h
            cases texts? with
            | error p' =>
                cases h
                exact failure_of_arguments hP hb ht htexts
            | ok texts =>
                obtain ⟨known, rfl, hknown⟩ | ⟨rejection, rfl⟩ :=
                  eq_of_makeCommand (Written.pure_eq_ok.1 h)
                · exact .unknownCommand hknown
                · exact .rejected
          · cases h
            exact .argumentCount harity
  | _ =>
      cases h
      exact .malformed

namespace State

variable {catalogue : Catalogue} {s s' : State}

/-! ## Directives -/

theorem found_of_parameters? (hP : Inherited P) (hs : s.bindings.Hold P) {args : List Term}
    (hargs : ∀ arg ∈ args, P arg) {parameters : List Parameter}
    (h : s.parameters? args = .ok (some parameters)) : ∀ p ∈ parameters, P p.2 := by
  induction args generalizing parameters with
  | nil =>
      cases h
      simp
  | cons arg args ih =>
      rw [List.forall_mem_cons] at hargs
      cases arg with
      | keyword key value line =>
          obtain ⟨v, hv, h⟩ := Written.bind_eq_ok.1 h
          obtain ⟨parameters?, hparameters, h⟩ := Written.bind_eq_ok.1 h
          cases parameters? with
          | none => cases h
          | some parameters' =>
              cases h
              exact List.forall_mem_cons.2
                ⟨hs.resolve hP (hP.plain (hP.keyword.1 hargs.1)) hv, ih hargs.2 hparameters⟩
      | _ => cases h

theorem found_single (hP : Inherited P) (hs : s.bindings.Hold P) {arg : Term} (h : P arg) :
    P (s.single arg) := by
  unfold single
  split
  · exact hs.getD hP _
  · exact hP.plain h

theorem found_shown (hP : Inherited P) {name term : Term} (h : P term) :
    P (env.shown name term) := by
  unfold env.shown
  split
  · exact hP.string _
  · exact h

/-! ## Variables -/

theorem hold_of_statement (hP : Inherited P) {t : Term} (hs : s.bindings.Hold P)
    (ht : ∀ v ∈ t.operands, P v) (h : s.statement catalogue t = .ok s') : s'.bindings.Hold P := by
  rw [bindings_of_statement h]
  cases t with
  | assignment name value line => exact hs.bind hP name (ht value (by simp [operands]))
  | _ => exact hs

theorem hold_of_statements (hP : Inherited P) {script : Script}
    (hscript : ∀ t ∈ script, ∀ v ∈ t.operands, P v)
    (h : State.empty.statements catalogue script = .ok s) : s.bindings.Hold P := by
  have hrun : (∀ t ∈ script, ∀ v ∈ t.operands, P v) → s.bindings.Hold P := by
    refine statements_induction
      (P := fun script s => (∀ t ∈ script, ∀ v ∈ t.operands, P v) → s.bindings.Hold P) ?_ ?_ h
    · exact fun _ => Bindings.hold_empty P
    · intro script s t s' _ ih ht hscript
      rw [List.forall_mem_append, List.forall_mem_singleton] at hscript
      exact hold_of_statement hP (ih hscript.1) hscript.2 ht
  exact hrun hscript

end State

end Compile

end GradingScript
