import GradingScript.Proofs.Compile.Found
import GradingScript.Proofs.Grammar.Acceptance
import GradingScript.Proofs.Similarity.Nearest
import GradingScript.Proofs.Token.Reads
import Mathlib

/-!
# What is offered for what

A name is reported as unknown only where it is not among the names that are known, and one of these
is offered for it, so as a rule a diagnostic does not offer what it rejects.  There is one
exception: `@env` looks for an environment under the value of its first argument, but shows the
argument as it stands in the script if the value is no string.  What stands there may be the id of
an environment, and then that id is offered.

* `Raised` lists what a statement may report, by what is offered for it.
* `accounted_of_statement` is the step, and `exists_raised_of_statements` the run.
* `compileText_offersItself` says where a diagnostic offers what it rejects.
-/

namespace GradingScript

open Compile

/-- The diagnostic offers the very token that it rejects. -/
def Diagnostic.OffersItself (d : Diagnostic) : Prop :=
  d.suggestion = Suggestion.question (some d.token)

namespace Problem

/-- What names are offered for, and those to choose from. -/
def offers? : Problem → Option (Term × List String)
  | .unknownEnvironment name known => some (name, known)
  | .unknownField name => some (.string name, Field.names)
  | .unknownKeyword name => some (.string name, keywords)
  | .unknownCommand name known => some (.string name, known)
  | _ => none

theorem token_and_suggestion_of_offers? {p : Problem} {name : Term} {known : List String}
    (h : p.offers? = some (name, known)) :
    p.token = name.text ∧ p.suggestion = suggest name known := by
  cases p <;> cases h <;> exact ⟨rfl, rfl⟩

theorem ne_question_of_offers? {p : Problem} {text : String} (h : p.offers? = none)
    (hsuggestion : p.suggestion = .ok text) (name : String) :
    text ≠ Suggestion.question (some name) := by
  cases p with
  | unknownEnvironment | unknownField | unknownKeyword | unknownCommand => cases h
  | extension term =>
      -- Here the suggestion asks for something, but in other words.
      rw [← Written.pure_eq_ok.1 hsuggestion]
      intro hhint
      have hlist := congrArg String.toList hhint
      rw [Suggestion.toList_question] at hlist
      cases congrArg List.head? hlist
  | _ =>
      rw [← Written.pure_eq_ok.1 hsuggestion]
      exact fun hempty => Option.some_ne_none name (Suggestion.question_injective hempty.symm)

/-- Only a name that is among those to choose from can be offered for itself. -/
theorem mem_of_offersItself {p : Problem} {line : Int} {d : Diagnostic}
    (h : p.diagnostic line = .ok d) (hself : d.OffersItself) :
    ∃ name known, p.offers? = some (name, known) ∧ name.text = .ok d.token ∧ d.token ∈ known := by
  obtain ⟨-, -, htoken, hsuggestion⟩ := diagnostic_eq_ok.1 h
  cases hoffers : p.offers? with
  | none => exact absurd hself (ne_question_of_offers? hoffers hsuggestion d.token)
  | some offer =>
      obtain ⟨name, known⟩ := offer
      obtain ⟨htext, hsuggest⟩ := token_and_suggestion_of_offers? hoffers
      rw [htext] at htoken
      rw [hsuggest, suggest, htoken] at hsuggestion
      have hquestion := (Written.pure_eq_ok.1 hsuggestion).trans hself
      exact ⟨name, known, rfl, htoken,
        Suggestion.mem_of_nearest? (Suggestion.question_injective hquestion)⟩

end Problem

namespace Compile

/-! ## One statement -/

/-- The problems that a statement may have, by what is offered for them. -/
inductive Raised (catalogue : Catalogue) (s : State) : Term → Int → Problem → Prop
  /-- Nothing is offered. -/
  | quiet {t : Term} {line : Int} {p : Problem} (h : p.offers? = none) :
      Raised catalogue s t line p
  | environment {line : Int} {nameArg value : Term} {args : List Term}
      (hvalue : s.bindings.resolve nameArg.plain = .ok value)
      (hnone : State.env.environmentOf catalogue value = none) :
      Raised catalogue s (.directive Field.env.name line (nameArg :: args)) line
        (.unknownEnvironment (State.env.shown value nameArg.plain) catalogue.ids)
  | field {name : String} {line : Int} {args : List Term} (h : Field.ofName? name = none) :
      Raised catalogue s (.directive name line args) line (.unknownField name)
  | blockKeyword {label keyword : String} {line : Int} {children : List Term}
      (h : keyword ≠ "step") :
      Raised catalogue s (.block label line children keyword) line (.unknownKeyword keyword)
  | keyword {t : Term} {line : Int} {name : String} (h : name ∉ keywords) :
      Raised catalogue s t line (.unknownKeyword name)
  | command {t : Term} {line : Int} {name : String} {known : List String} (h : name ∉ known) :
      Raised catalogue s t line (.unknownCommand name known)

/-- What has been reported behind a statement was reported before it, or is a problem that the
statement may have. -/
def Accounted (catalogue : Catalogue) (s : State) (t : Term) (s' : State) : Prop :=
  ∀ d ∈ s'.errors, d ∈ s.errors ∨
    ∃ line p, Raised catalogue s t line p ∧ p.diagnostic line = .ok d

variable {catalogue : Catalogue} {s s' : State}

theorem raised_of_failure {P : Term → Prop} {environment : Option Environment} {p : Problem}
    (h : Failure P environment p) (t : Term) (line : Int) : Raised catalogue s t line p := by
  cases h with
  | unknownCommand hname => exact .command hname
  | _ => exact .quiet rfl

/-- What is wrong with the statements of a step is told of each in its turn. -/
theorem exists_command_of_commands {b : Bindings} {environment : Option Environment}
    {children : List Term} {cs : List Command} {ds : List Diagnostic}
    (h : commands b environment children = .ok (cs, ds)) {d : Diagnostic} (hd : d ∈ ds) :
    ∃ child ∈ children, ∃ p, command b environment child = .ok (.error p) ∧
      p.diagnostic child.line = .ok d := by
  induction children generalizing cs ds with
  | nil =>
      obtain ⟨-, rfl⟩ := Prod.mk.inj (Written.pure_eq_ok.1 h)
      cases hd
  | cons child children ih =>
      obtain ⟨result, hcommand, h⟩ := Written.bind_eq_ok.1 h
      cases result with
      | ok c =>
          obtain ⟨⟨cs', ds'⟩, hchildren, h⟩ := Written.bind_eq_ok.1 h
          obtain ⟨-, rfl⟩ := Prod.mk.inj (Written.pure_eq_ok.1 h)
          obtain ⟨child', hmem, hp⟩ := ih hchildren hd
          exact ⟨child', List.mem_cons_of_mem child hmem, hp⟩
      | error p =>
          obtain ⟨d', hd', h⟩ := Written.bind_eq_ok.1 h
          obtain ⟨⟨cs', ds'⟩, hchildren, h⟩ := Written.bind_eq_ok.1 h
          obtain ⟨-, rfl⟩ := Prod.mk.inj (Written.pure_eq_ok.1 h)
          rcases List.mem_cons.1 hd with rfl | hd
          · exact ⟨child, List.mem_cons_self, p, hcommand, hd'⟩
          · obtain ⟨child', hmem, hp⟩ := ih hchildren hd
            exact ⟨child', List.mem_cons_of_mem child hmem, hp⟩

namespace State

theorem accounted_of_errors {t : Term} (h : s'.errors = s.errors) :
    Accounted catalogue s t s' :=
  fun _ hd => .inl (h ▸ hd)

theorem accounted_append {t : Term} {ds : List Diagnostic} (herrors : s'.errors = s.errors ++ ds)
    (h : ∀ d ∈ ds, ∃ line p, Raised catalogue s t line p ∧ p.diagnostic line = .ok d) :
    Accounted catalogue s t s' := by
  intro d hd
  rw [herrors, List.mem_append] at hd
  exact hd.imp_right (h d)

theorem accounted_report {t : Term} {line : Int} {p : Problem} (hp : Raised catalogue s t line p)
    (h : s.report line p = .ok s') : Accounted catalogue s t s' := by
  obtain ⟨d, hd, rfl⟩ := report_eq_ok h
  exact accounted_append rfl (List.forall_mem_singleton.2 ⟨line, p, hp, hd⟩)

theorem accounted_env {line : Int} {args : List Term} (h : s.env catalogue line args = .ok s') :
    Accounted catalogue s (.directive Field.env.name line args) s' := by
  cases args with
  | nil => exact accounted_report (.quiet rfl) h
  | cons nameArg args =>
      rw [env] at h
      split at h
      · exact accounted_report (.quiet rfl) h
      · obtain ⟨value, hvalue, h⟩ := Written.bind_eq_ok.1 h
        obtain ⟨parameters?, -, h⟩ := Written.bind_eq_ok.1 h
        cases parameters? with
        | none => exact accounted_report (.quiet rfl) h
        | some parameters =>
            cases henvironment : env.environmentOf catalogue value with
            | none =>
                simp only [henvironment] at h
                exact accounted_report (.environment hvalue henvironment) h
            | some e =>
                simp only [henvironment] at h
                split at h
                · obtain ⟨image?, -, h⟩ := Written.bind_eq_ok.1 h
                  cases image? with
                  | error rejection => exact accounted_report (.quiet rfl) h
                  | ok image =>
                      obtain rfl := Written.pure_eq_ok.1 h
                      exact accounted_of_errors rfl
                · exact accounted_report (.quiet rfl) h

theorem accounted_directive {name : String} {line : Int} {args : List Term}
    (h : s.directive catalogue name line args = .ok s') :
    Accounted catalogue s (.directive name line args) s' := by
  unfold directive at h
  split at h
  · next hname =>
      obtain rfl := Field.ofName?_eq_some_iff.1 hname
      exact accounted_env h
  · unfold requiredFiles at h
    split at h
    · exact accounted_report (.quiet rfl) h
    · obtain ⟨files, -, h⟩ := Written.bind_eq_ok.1 h
      obtain rfl := Written.pure_eq_ok.1 h
      exact accounted_of_errors rfl
  · unfold allowedExtensions at h
    split at h
    · exact accounted_report (.quiet rfl) h
    · obtain ⟨⟨t, texts⟩, hextensions, h⟩ := Written.bind_eq_ok.1 h
      obtain rfl := Written.pure_eq_ok.1 h
      obtain ⟨-, ds, rfl, hds⟩ := extensions_eq_ok hextensions
      refine accounted_append rfl fun d hd => ?_
      obtain ⟨arg, -, hd⟩ := Written.exists_of_mem_mapM hds hd
      exact ⟨line, _, .quiet rfl, hd⟩
  · unfold grade at h
    split at h
    · split at h
      · split at h
        · exact accounted_report (.quiet rfl) h
        · obtain rfl := Written.pure_eq_ok.1 h
          exact accounted_of_errors rfl
      · exact accounted_report (.quiet rfl) h
      · exact accounted_report (.quiet rfl) h
    · exact accounted_report (.quiet rfl) h
  · unfold networkAccess at h
    split at h
    · split at h
      · obtain rfl := Written.pure_eq_ok.1 h
        exact accounted_of_errors rfl
      · exact accounted_report (.quiet rfl) h
    · exact accounted_report (.quiet rfl) h
  · next hname => exact accounted_report (.field hname) h

theorem accounted_step {label : String} {line : Int} {children : List Term} (t : Term)
    (h : s.step label line children = .ok s') : Accounted catalogue s t s' := by
  unfold step at h
  split at h
  · exact accounted_report (.quiet rfl) h
  · obtain ⟨⟨cs, ds⟩, hcommands, h⟩ := Written.bind_eq_ok.1 h
    obtain rfl := Written.pure_eq_ok.1 h
    refine accounted_append rfl fun d hd => ?_
    obtain ⟨child, -, p, hp, hd⟩ := exists_command_of_commands hcommands hd
    have hfailure : Failure (fun _ => True) s.environment p :=
      failure_of_command Term.inherited_true (fun _ _ _ => trivial) (fun _ _ => trivial) hp
    exact ⟨child.line, p, raised_of_failure hfailure t child.line, hd⟩

theorem accounted_of_statement {t : Term} (h : s.statement catalogue t = .ok s') :
    Accounted catalogue s t s' := by
  unfold statement at h
  split at h
  · exact accounted_directive h
  · obtain rfl := Written.pure_eq_ok.1 h
    exact accounted_of_errors rfl
  · split at h
    · exact accounted_step _ h
    · next hkeyword => exact accounted_report (.blockKeyword hkeyword) h
  · split at h
    · exact accounted_report (.quiet rfl) h
    · next hname => exact accounted_report (.keyword hname) h
  · split at h
    · exact accounted_report (.quiet rfl) h
    · next hname => exact accounted_report (.keyword hname) h
  · exact accounted_report (.quiet rfl) h

/-! ## Runs -/

/-- What a script reports is a problem that one of its statements may have, where the variables and
the environment are those of the statements before it. -/
theorem exists_raised_of_statements {script : Script}
    (h : State.empty.statements catalogue script = .ok s) {d : Diagnostic} (hd : d ∈ s.errors) :
    ∃ xs t ys u line p, script = xs ++ t :: ys ∧ State.empty.statements catalogue xs = .ok u ∧
      Raised catalogue u t line p ∧ p.diagnostic line = .ok d := by
  refine statements_induction
    (P := fun script s => ∀ d ∈ s.errors, ∃ xs t ys u line p, script = xs ++ t :: ys ∧
      State.empty.statements catalogue xs = .ok u ∧ Raised catalogue u t line p ∧
      p.diagnostic line = .ok d) (by simp [State.empty]) ?_ h d hd
  intro script s t s' hs ih ht d hd
  rcases accounted_of_statement ht d hd with hold | ⟨line, p, hp, hd⟩
  · obtain ⟨xs, t', ys, u, line, p, rfl, hu, hp, hd⟩ := ih d hold
    exact ⟨xs, t', ys ++ [t], u, line, p, by simp, hu, hp, hd⟩
  · exact ⟨script, t, [], s, line, p, rfl, hs, hp, hd⟩

end State

/-! ## Diagnostics that offer what they reject -/

/-- Where the variables are bound so, a statement is an `@env` directive whose first argument has a
value that is no string, and is shown as the id of an environment. -/
def ShowsId (catalogue : Catalogue) (b : Bindings) (id : String) : Term → Prop
  | .directive name _ (nameArg :: _) =>
    name = Field.env.name ∧ (∃ value, b.resolve nameArg.plain = .ok value ∧
      ∀ other, value ≠ .string other) ∧ nameArg.plain.text = .ok id ∧ id ∈ catalogue.ids
  | _ => False

/-- What offers its own token is an `@env` directive, or a block whose keyword is the sign of
directives. -/
theorem Raised.offersItself {t : Term} {line : Int} {p : Problem} {d : Diagnostic}
    (h : Raised catalogue s t line p) (hd : p.diagnostic line = .ok d) (hself : d.OffersItself) :
    (ShowsId catalogue s.bindings d.token t ∧ d.line = t.line ∧
      d.description = "environment is not defined: ") ∨
      ∃ label children, t = .block label line children "@" := by
  obtain ⟨name, known, hoffers, htext, hknown⟩ := Problem.mem_of_offersItself hd hself
  obtain ⟨hline, hdescription, -, -⟩ := Problem.diagnostic_eq_ok.1 hd
  cases h with
  | quiet hquiet =>
      rw [hquiet] at hoffers
      cases hoffers
  | field hnone =>
      cases hoffers
      obtain rfl := Written.pure_eq_ok.1 htext
      exact absurd hknown (not_mem_map_of_find? hnone)
  | @blockKeyword label keyword line children hkeyword =>
      cases hoffers
      obtain rfl := Written.pure_eq_ok.1 htext
      obtain hat : d.token = "@" := by simpa [keywords, hkeyword] using hknown
      exact .inr ⟨label, children, by rw [hat]⟩
  | keyword hname =>
      cases hoffers
      obtain rfl := Written.pure_eq_ok.1 htext
      exact absurd hknown hname
  | command hname =>
      cases hoffers
      obtain rfl := Written.pure_eq_ok.1 htext
      exact absurd hknown hname
  | @environment line nameArg value args hvalue hnone =>
      cases hoffers
      have hstring : ∀ id, value ≠ .string id := by
        rintro id rfl
        obtain rfl := Written.pure_eq_ok.1 htext
        exact not_mem_map_of_find? hnone hknown
      have hshown : State.env.shown value nameArg.plain = nameArg.plain := by
        cases value with
        | string id => exact absurd rfl (hstring id)
        | _ => rfl
      rw [hshown] at htext
      exact .inl ⟨⟨rfl, ⟨value, hvalue, hstring⟩, htext, hknown⟩, hline, hdescription⟩

end Compile

/-- The keyword of a block in a text is a name, and so never the sign of directives. -/
theorem Script.keyword_ne_at {text : String} {script : Script} (h : ofText text = .ok script)
    {label keyword : String} {line : Int} {children : List Term}
    (hmem : .block label line children keyword ∈ script) : keyword ≠ "@" := by
  obtain ⟨ts, hscan, hspells⟩ := Grammar.spells_of_ofText h
  obtain ⟨us, hus, hstatement⟩ := hspells.exists_statement _ hmem
  obtain ⟨t, ht, hname⟩ := hstatement.exists_name_of_block
  obtain ⟨first, rest, hkeyword, hfirst⟩ := Token.startsName_of_scan hscan (hus ht) hname
  rintro rfl
  obtain ⟨rfl, -⟩ := List.cons.inj hkeyword
  exact absurd hfirst (by decide)

/-- A diagnostic of a text offers the very token that it rejects only at an `@env` directive whose
first argument has a value that is no string, and yet is shown as the id of an environment of the
catalogue. -/
theorem compileText_offersItself {catalogue : Catalogue} {text : String} {o : Outcome}
    (h : compileText catalogue text = .ok o) {d : Diagnostic} (hd : d ∈ o.errors)
    (hself : d.OffersItself) :
    d.description = "environment is not defined: " ∧
      ∃ xs t ys, Script.ofText text = .ok (xs ++ t :: ys) ∧ t.line = d.line ∧
        ShowsId catalogue (Script.bindings xs) d.token t := by
  obtain ⟨script, s, hscript, hs, rfl⟩ | ⟨e, token, -, -, rfl⟩ := compileText_cases h
  · obtain ⟨xs, t, ys, u, line, p, rfl, hu, hp, hdiagnostic⟩ :=
      State.exists_raised_of_statements hs hd
    obtain ⟨hshows, hline, hdescription⟩ | ⟨label, children, rfl⟩ :=
      hp.offersItself hdiagnostic hself
    · rw [State.bindings_of_statements hu] at hshows
      exact ⟨hdescription, xs, t, ys, hscript, hline.symm, hshows⟩
    · have hmem : .block label line children "@" ∈ xs ++ .block label line children "@" :: ys :=
        List.mem_append_right xs List.mem_cons_self
      exact absurd rfl (Script.keyword_ne_at hscript hmem)
  · -- The error of a text that is no script offers nothing.
    obtain rfl := List.mem_singleton.1 hd
    exact absurd (Suggestion.question_injective (show Suggestion.question none = _ from hself))
      (by simp)

/-- The variable of this name holds a number, so the name is shown, and it is the id of an
environment. -/
theorem compileText_offersItself_bound_name :
    let text := "elixir = 5\n@env elixir, version: \"1.7\""
    let d : Diagnostic := ⟨2, "environment is not defined: ", "elixir", "Did you mean elixir?"⟩
    let o := Outcome.ofState ⟨.empty, .empty, none, [d]⟩
    compileText .standard text = .ok o ∧ d ∈ o.errors ∧ d.OffersItself ∧
      d.description = "environment is not defined: " ∧
        ∃ xs t ys, Script.ofText text = .ok (xs ++ t :: ys) ∧ t.line = d.line ∧
          ShowsId .standard (Script.bindings xs) d.token t := by
  intro text d o
  have hread : Script.ofText text = .ok [.assignment "elixir" (.literal (.number (.int 5)) 1) 1,
      .directive "env" 2
        [.identifier "elixir" 2, .keyword "version" (.literal (.string "1.7") 2) 2]] := by cbv
  have hcompile : compileText .standard text = .ok o := by
    rw [compileText, hread]
    decide +kernel
  have hmem : d ∈ o.errors := List.mem_singleton.2 rfl
  have hself : d.OffersItself := by
    unfold Diagnostic.OffersItself
    decide
  exact ⟨hcompile, hmem, hself, compileText_offersItself hcompile hmem hself⟩

/-- An id without its quotes is rejected, and the same id is offered. -/
theorem compileText_bare_name :
    let text := "@env elixir, version: \"1.7\""
    let d : Diagnostic := ⟨1, "environment is not defined: ", "elixir", "Did you mean elixir?"⟩
    compileText .standard text = .ok (.ofState ⟨.empty, .empty, none, [d]⟩) ∧
      d.OffersItself := by
  intro text d
  have hread : Script.ofText text = .ok [.directive "env" 1
      [.identifier "elixir" 1, .keyword "version" (.literal (.string "1.7") 1) 1]] := by cbv
  constructor
  · rw [compileText, hread]
    decide +kernel
  · unfold Diagnostic.OffersItself
    decide

end GradingScript
