import GradingScript.Proofs.Compile.Journal

/-!
# What has been compiled stays

Statements add diagnostics and steps, and take none away and change none.  So whatever stands behind
a part of a script, the diagnostics and the steps of that part come first in those of the whole.
Other fields may be set anew: the environment, for instance, is that of the last `@env` directive.

* `Effect.grows` is the step, for each thing that a statement can do.
* `grows_of_statements` is the run.
-/

namespace GradingScript

namespace Compile

/-- The second state has the diagnostics and the steps of the first, and perhaps more behind
them. -/
structure Grows (s s' : State) : Prop where
  errors : s.errors <+: s'.errors
  steps : s.configuration.steps <+: s'.configuration.steps

theorem Grows.refl (s : State) : Grows s s :=
  ⟨List.prefix_rfl, List.prefix_rfl⟩

theorem Grows.trans {s u s' : State} (h : Grows s u) (h' : Grows u s') : Grows s s' :=
  ⟨h.errors.trans h'.errors, h.steps.trans h'.steps⟩

variable {catalogue : Catalogue} {s s' : State}

theorem Effect.grows {t : Term} (h : Effect catalogue s t s') : Grows s s' := by
  cases h with
  | rejected => exact ⟨List.prefix_append _ _, List.prefix_rfl⟩
  | allowedExtensions => exact ⟨List.prefix_append _ _, List.prefix_rfl⟩
  | step => exact ⟨List.prefix_append _ _, List.prefix_append _ _⟩
  | env => exact ⟨List.prefix_rfl, List.prefix_rfl⟩
  | requiredFiles => exact ⟨List.prefix_rfl, List.prefix_rfl⟩
  | grade => exact ⟨List.prefix_rfl, List.prefix_rfl⟩
  | networkAccess => exact ⟨List.prefix_rfl, List.prefix_rfl⟩
  | assignment => exact ⟨List.prefix_rfl, List.prefix_rfl⟩

theorem grows_of_statements {script : Script} (h : s.statements catalogue script = .ok s') :
    Grows s s' := by
  induction script generalizing s with
  | nil =>
      obtain rfl := Except.ok.inj h
      exact .refl s
  | cons t script ih =>
      obtain ⟨u, ht, hscript⟩ := State.statements_cons_eq_ok.1 h
      exact (State.effect_of_statement ht).grows.trans (ih hscript)

end Compile

open Compile

/-- The first part of a script that compiles does so by itself, and its diagnostics and steps are
the first of the whole script. -/
theorem compile_append_grows {catalogue : Catalogue} {xs ys : Script} {o' : Outcome}
    (h : compile catalogue (xs ++ ys) = .ok o') :
    ∃ o c c', compile catalogue xs = .ok o ∧ o.draft = some c ∧ o'.draft = some c' ∧
      o.errors <+: o'.errors ∧ c.steps <+: c'.steps := by
  obtain ⟨s', hs', rfl⟩ := compile_eq_ok_iff.1 h
  rw [State.statements_append] at hs'
  obtain ⟨s, hs, hys⟩ := Written.bind_eq_ok.1 hs'
  have hgrows := grows_of_statements hys
  exact ⟨.ofState s, _, _, compile_eq_ok_iff.2 ⟨s, hs, rfl⟩, rfl, rfl, hgrows.errors, hgrows.steps⟩

/-- A variable is bound anew, an environment is chosen and the step is defined again, all of it too
late for the step. -/
theorem compile_append_grows_rebound :
    let xs : Script := [.assignment "v" (.literal (.string "a") 1) 1,
      .block "s" 2 [.call "run" 3 [.literal (.string "%v") 3], .call "help" 4 []] "step"]
    let ys : Script := [.assignment "v" (.literal (.string "b") 6) 6,
      .directive "env" 7 [.literal (.string "elixir") 7,
        .keyword "version" (.literal (.string "1.7") 7) 7],
      .block "s" 8 [.call "run" 9 [.literal (.string "%v") 9]] "step",
      .block "t" 10 [.call "help" 11 []] "step"]
    let errors : List Diagnostic := [⟨4, "undefined function: ", "help", ""⟩,
      ⟨8, "the step name has already been defined: ", "s", ""⟩]
    let c' : Configuration := ⟨some "elixir:1.7-alpine", some "elixir", [], [], none, false,
      [⟨"s", [⟨"run", ["a"]⟩]⟩, ⟨"t", [⟨"run", ["mix help"]⟩]⟩], errors⟩
    compile .standard (xs ++ ys) = .ok ⟨none, errors, some c'⟩ ∧
      ∃ o c, compile .standard xs = .ok o ∧ o.draft = some c ∧ o.errors <+: errors ∧
        c.steps <+: c'.steps := by
  intro xs ys errors c'
  have hcompile : compile .standard (xs ++ ys) = .ok ⟨none, errors, some c'⟩ := by decide +kernel
  obtain ⟨o, c, d, ho, hc, hd, herrors, hsteps⟩ := compile_append_grows hcompile
  cases hd
  exact ⟨hcompile, o, c, ho, hc, herrors, hsteps⟩

end GradingScript
