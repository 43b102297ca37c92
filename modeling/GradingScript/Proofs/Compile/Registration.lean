import GradingScript.Proofs.Compile.Journal

/-!
# Registering an environment

A script that never asks for an environment is compiled the same whether the environment is
registered or not.  The catalogue is asked for an environment by its id alone, and its ids are
offered when there is none of the id that was asked for; so only suggestions can tell that another
environment is there.

* `retold_statement` is the step: a statement that does not ask for the environment.
* `retold_statements_of_register` is the run, and `compile_register` is about whole scripts.
-/

namespace GradingScript

open Compile

/-- A diagnostic without the suggestion. -/
def Diagnostic.withoutSuggestion (d : Diagnostic) : Diagnostic :=
  { d with suggestion := "" }

/-- Where the variables are bound so, a statement asks for the environment of an id: it is an `@env`
directive, and the value of its first argument is the id. -/
def Term.AsksFor (id : String) (b : Bindings) : Term → Prop
  | .directive name _ (nameArg :: _) =>
    name = Field.env.name ∧ b.resolve nameArg.plain = .ok (.string id)
  | _ => False

/-- A statement of a script asks for the environment of an id. -/
def Script.AsksFor (script : Script) (id : String) : Prop :=
  ∃ xs t ys, script = xs ++ t :: ys ∧ t.AsksFor id (bindings xs)

/-- Under every other id there is what was there before. -/
theorem Catalogue.get?_register {c c' : Catalogue} {e : Environment} (h : c.register e = some c')
    {id : String} (hid : id ≠ e.id) : c'.get? id = c.get? id := by
  unfold Catalogue.register at h
  split at h
  · cases h
  · cases h
    exact (find?_put e id c.environments).trans (if_neg hid.symm)

namespace Compile.State

variable {c c' : Catalogue} {id : String} {s : State}

/-! ## One statement -/

/-- An unknown environment is reported in the same words, whatever is suggested. -/
theorem withoutSuggestion_unknownEnvironment (shown : Term) (known known' : List String)
    (line : Int) :
    Diagnostic.withoutSuggestion <$> (Problem.unknownEnvironment shown known).diagnostic line =
      Diagnostic.withoutSuggestion <$>
        (Problem.unknownEnvironment shown known').diagnostic line := by
  simp only [Problem.diagnostic, Problem.token, Problem.suggestion, suggest]
  cases shown.text with
  | error e => rfl
  | ok text => rfl

theorem retold_env (hget : ∀ other, other ≠ id → c'.get? other = c.get? other) (line : Int)
    {args : List Term}
    (h : ∀ nameArg rest, args = nameArg :: rest →
      s.bindings.resolve nameArg.plain ≠ .ok (.string id)) :
    retold Diagnostic.withoutSuggestion <$> s.env c' line args =
      retold Diagnostic.withoutSuggestion <$> s.env c line args := by
  cases args with
  | nil => rfl
  | cons nameArg args =>
      simp only [env]
      split
      · rfl
      · cases hvalue : s.bindings.resolve nameArg.plain with
        | error e => rfl
        | ok value =>
            have henvironment : env.environmentOf c' value = env.environmentOf c value := by
              cases value with
              | string other =>
                  refine hget other ?_
                  rintro rfl
                  exact h nameArg args rfl hvalue
              | _ => rfl
            cases s.parameters? args with
            | error e => rfl
            | ok parameters? =>
                cases parameters? with
                | none => rfl
                | some parameters =>
                    simp only [bind, Except.bind, henvironment]
                    cases env.environmentOf c value with
                    | none =>
                        exact retold_report s line
                          (withoutSuggestion_unknownEnvironment _ c'.ids c.ids line)
                    | some e => rfl

/-- A statement that does not ask for the environment does the same without it, but for what is
suggested. -/
theorem retold_statement (hget : ∀ other, other ≠ id → c'.get? other = c.get? other) {t : Term}
    (h : ¬ t.AsksFor id s.bindings) :
    retold Diagnostic.withoutSuggestion <$> s.statement c' t =
      retold Diagnostic.withoutSuggestion <$> s.statement c t := by
  cases t with
  | directive name line args =>
      simp only [statement, directive]
      split
      · next hname =>
          refine retold_env hget line fun nameArg rest hargs hvalue => h ?_
          subst hargs
          exact ⟨Field.ofName?_eq_some_iff.1 hname, hvalue⟩
      all_goals rfl
  | _ => rfl

/-! ## Runs -/

/-- Statements that do not ask for the environment do the same without it, but for what is
suggested. -/
theorem retold_statements_of_register
    (hget : ∀ other, other ≠ id → c'.get? other = c.get? other) {script : Script}
    (h : ∀ xs t ys, script = xs ++ t :: ys → ¬ t.AsksFor id (xs.foldl Bindings.after s.bindings)) :
    retold Diagnostic.withoutSuggestion <$> s.statements c' script =
      retold Diagnostic.withoutSuggestion <$> s.statements c script := by
  induction script generalizing s with
  | nil => rfl
  | cons t script ih =>
      have hstep := retold_statement (s := s) hget (h [] t script rfl)
      rw [statements_cons, statements_cons, retold_bind_statements hstep script, map_bind, map_bind]
      cases hstatement : s.statement c t with
      | error e => rfl
      | ok u =>
          refine ih fun xs t' ys hscript => ?_
          rw [bindings_of_statement hstatement]
          exact h (t :: xs) t' ys (by rw [hscript, List.cons_append])

end Compile.State

/-- A script that does not ask for an environment comes to the same outcome without it, but for what
is suggested; and if the one compilation breaks off, so does the other. -/
theorem compile_register {c c' : Catalogue} {e : Environment} {script : Script}
    (hregister : c.register e = some c') (hscript : ¬ script.AsksFor e.id) :
    Outcome.retold Diagnostic.withoutSuggestion <$> compile c' script =
      Outcome.retold Diagnostic.withoutSuggestion <$> compile c script := by
  rw [retold_compile, retold_compile, State.retold_statements_of_register
    (fun _ hother => Catalogue.get?_register hregister hother)]
  intro xs t ys hsplit hasks
  exact hscript ⟨xs, t, ys, hsplit, hasks⟩

/-- The new environment is nearer to the name that the script asks for, and so it is suggested; the
environment that the script chooses behind that is the same. -/
theorem compile_register_suggested :
    let e : Environment := { Environment.java with id := "jawa8" }
    let c' : Catalogue := ⟨[.custom, .elixir, .java, e], by decide⟩
    let script : Script := [.assignment "name" (.literal (.string "jawa") 1) 1,
      .directive "env" 2 [.identifier "name" 2],
      .directive "env" 3 [.literal (.string "custom") 3,
        .keyword "image" (.literal (.string "x") 3) 3]]
    let outcome (suggestion : String) : Outcome :=
      .ofState ⟨{ Configuration.empty with image := some "x", environment := some "custom" },
        .empty, none, [⟨2, "environment is not defined: ", "jawa", suggestion⟩]⟩
    Catalogue.standard.register e = some c' ∧ ¬ script.AsksFor e.id ∧
      compile c' script = .ok (outcome "Did you mean jawa8?") ∧
      compile .standard script = .ok (outcome "") ∧
      Outcome.retold Diagnostic.withoutSuggestion <$> compile c' script =
        Outcome.retold Diagnostic.withoutSuggestion <$> compile .standard script := by
  intro e c' script outcome
  have hregister : Catalogue.standard.register e = some c' := by
    simp [Catalogue.register, Catalogue.standard, Catalogue.put, e, c', Environment.custom,
      Environment.elixir, Environment.java, Environment.single]
  have hscript : ¬ script.AsksFor e.id := by
    rintro ⟨xs, t, ys, hsplit, hasks⟩
    rcases xs with _ | ⟨_, _ | ⟨_, _ | ⟨_, xs⟩⟩⟩
    · obtain ⟨rfl, -⟩ := List.cons.inj hsplit
      exact hasks
    · simp only [script, List.cons_append, List.nil_append, List.cons.injEq] at hsplit
      obtain ⟨rfl, rfl, -⟩ := hsplit
      have hvalue : (.ok (.string "jawa") : Written Term) = .ok (.string "jawa8") := hasks.2
      simp at hvalue
    · simp only [script, List.cons_append, List.nil_append, List.cons.injEq] at hsplit
      obtain ⟨rfl, rfl, rfl, -⟩ := hsplit
      have hcustom (b : Bindings) : b.resolve (.string "custom") = .ok (.string "custom") := by cbv
      have hvalue : (.ok (.string "custom") : Written Term) = .ok (.string "jawa8") :=
        (hcustom _).symm.trans hasks.2
      simp at hvalue
    · simp [script] at hsplit
  exact ⟨hregister, hscript, by decide +kernel, by decide +kernel,
    compile_register hregister hscript⟩

end GradingScript
