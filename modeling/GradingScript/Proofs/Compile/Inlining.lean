import GradingScript.Proofs.Compile.Journal

/-!
# Inlining a variable

A name that was last bound to a literal may be written as that literal wherever its value is asked
for.  The script then has the same configuration, and the same diagnostics on the same lines; only
the tokens and suggestions in these may differ, since a diagnostic may show the name itself.

* `get?_of_statements` says what a name stands for: only assignments at the top level bind
  variables, and the last one of a name counts.
* `inlineStatement` writes a literal in all places where a statement asks for the value of a name.
* `withoutDetails_inlineStatement` is the step: the statement does the same, but for details.
* `withoutDetails_bind_statements` carries what differs in details through the statements behind it.
* `compile_inline` says so of whole scripts.
-/

/-! ## The scope of a variable -/

namespace GradingScript

/-- The term that a statement binds a name to. -/
def Term.assigned? (name : String) : Term → Option Term
  | .assignment target value _ => if target = name then some value else none
  | _ => none

namespace Script

/-- The term that the last assignment of a name at the top level of a script binds it to. -/
def lastAssigned? (script : Script) (name : String) : Option Term :=
  (script.filterMap (Term.assigned? name)).getLast?

theorem lastAssigned?_concat (script : Script) (t : Term) (name : String) :
    lastAssigned? (script ++ [t]) name = (t.assigned? name).or (script.lastAssigned? name) := by
  rw [lastAssigned?, List.filterMap_append, List.getLast?_append]
  cases h : t.assigned? name with
  | none => simp [h, lastAssigned?]
  | some value => simp [h]

/-- A name is assigned at the top level of a script. -/
def Assigns (script : Script) (name : String) : Prop :=
  ∃ value line, .assignment name value line ∈ script

theorem assigns_of_lastAssigned? {script : Script} {name : String} {value : Term}
    (h : script.lastAssigned? name = some value) : script.Assigns name := by
  obtain ⟨t, ht, hvalue⟩ := List.mem_filterMap.1 (List.mem_of_getLast? h)
  cases t with
  | assignment target value' line =>
      by_cases htarget : target = name
      · exact ⟨value', line, htarget ▸ ht⟩
      · simp [Term.assigned?, htarget] at hvalue
  | _ => cases hvalue

end Script

namespace Compile

variable {catalogue : Catalogue} {script : Script} {s : State}

/-- A name stands for what it was last bound to at the top level. -/
theorem get?_of_statements (h : State.empty.statements catalogue script = .ok s) (name : String) :
    s.bindings.get? name = (script.lastAssigned? name).map Term.plain := by
  refine State.statements_induction (P := fun script s =>
    s.bindings.get? name = (script.lastAssigned? name).map Term.plain) rfl ?_ h
  intro script s t s' _ ih ht
  rw [Script.lastAssigned?_concat]
  have hsame : t.assigned? name = none →
      s.bindings.get? name =
        ((t.assigned? name).or (script.lastAssigned? name)).map Term.plain := by
    intro hnone
    rw [hnone, Option.none_or, ih]
  cases State.effect_of_statement ht with
  | @rejected _ _ _ hmay _ =>
      refine hsame ?_
      cases t with
      | assignment _ _ _ => exact hmay.elim
      | _ => rfl
  | @assignment target value _ =>
      rw [Bindings.get?_bind, Term.assigned?]
      by_cases htarget : target = name
      · rw [if_pos htarget, if_pos htarget, Option.some_or, Option.map_some]
      · rw [if_neg htarget, if_neg htarget, Option.none_or, ih]
  | env => exact hsame rfl
  | requiredFiles => exact hsame rfl
  | allowedExtensions => exact hsame rfl
  | grade => exact hsame rfl
  | networkAccess => exact hsame rfl
  | step => exact hsame rfl

/-- What no assignment at the top level binds is not bound. -/
theorem get?_eq_none_of_statements (h : State.empty.statements catalogue script = .ok s)
    {name : String} (hname : ¬ script.Assigns name) : s.bindings.get? name = none := by
  rw [get?_of_statements h, Option.map_eq_none_iff]
  cases hlast : script.lastAssigned? name with
  | none => rfl
  | some value => exact absurd (Script.assigns_of_lastAssigned? hlast) hname

end Compile

open Compile

/-! ## Outcomes without details -/

/-- A diagnostic without the token and the suggestion. -/
def Diagnostic.withoutDetails (d : Diagnostic) : Diagnostic :=
  { d with token := "", suggestion := "" }

/-- A configuration, with its diagnostics without details. -/
def Configuration.withoutDetails (c : Configuration) : Configuration :=
  { c with errors := c.errors.map Diagnostic.withoutDetails }

/-- An outcome, with its diagnostics without details. -/
def Outcome.withoutDetails (o : Outcome) : Outcome :=
  { configuration := o.configuration.map Configuration.withoutDetails
    errors := o.errors.map Diagnostic.withoutDetails
    draft := o.draft.map Configuration.withoutDetails }

/-! ## Literals in the place of names -/

namespace Term

/-- A term with a literal in its place, if it is the name. -/
def inlineValue (t : Term) (name : String) (literal : Term) : Term :=
  match t with
  | .identifier other line => if other = name then literal else .identifier other line
  | t => t

/-- A parameter with a literal for its value, if that is the name. -/
def inlineParameter (t : Term) (name : String) (literal : Term) : Term :=
  match t with
  | .keyword key value line => .keyword key (value.inlineValue name literal) line
  | t => t

/-- The arguments of `@env` with a literal in the places of the name: the first argument, and the
values of parameters. -/
def inlineEnvArgs (name : String) (literal : Term) : List Term → List Term
  | [] => []
  | nameArg :: args =>
    (nameArg.inlineValue name literal).inlineParameter name literal ::
      args.map (·.inlineParameter name literal)

/-- A statement of a step with a literal for each argument that is the name. -/
def inlineCall (t : Term) (name : String) (literal : Term) : Term :=
  match t with
  | .call command line args => .call command line (args.map (·.inlineValue name literal))
  | t => t

/-- A statement with a literal in all places where it asks for the value of the name. -/
def inlineStatement (t : Term) (name : String) (literal : Term) : Term :=
  match t with
  | .directive field line args =>
    match Field.ofName? field with
    | some .env => .directive field line (inlineEnvArgs name literal args)
    | some .grade | some .networkAccess =>
      .directive field line (args.map (·.inlineValue name literal))
    | _ => .directive field line args
  | .block label line children kind =>
    .block label line (children.map (·.inlineCall name literal)) kind
  | t => t

/-- What does not tell the name from the literal does not tell whether the name was replaced. -/
theorem apply_inlineValue {β : Type} (f : Term → β) {name : String} {literal : Term}
    (h : ∀ line, f literal = f (.identifier name line)) (t : Term) :
    f (t.inlineValue name literal) = f t := by
  cases t with
  | identifier other line =>
      by_cases hother : other = name
      · subst hother
        rw [inlineValue, if_pos rfl, h]
      · rw [inlineValue, if_neg hother]
  | _ => rfl

theorem isKeyword_inlineValue (t : Term) (name : String) (v : Term) (line : Int) :
    (t.inlineValue name (.literal v line)).isKeyword = t.isKeyword :=
  apply_inlineValue isKeyword (fun _ => rfl) t

theorem isKeyword_inlineParameter (t : Term) (name : String) (literal : Term) :
    (t.inlineParameter name literal).isKeyword = t.isKeyword := by
  cases t <;> rfl

theorem inlineParameter_of_isKeyword_eq_false {t : Term} (name : String) (literal : Term)
    (h : t.isKeyword = false) : t.inlineParameter name literal = t := by
  cases t with
  | keyword _ _ _ => cases h
  | _ => rfl

theorem line_inlineCall (t : Term) (name : String) (literal : Term) :
    (t.inlineCall name literal).line = t.line := by
  cases t <;> rfl

end Term

/-- A datum that may be written for a name behind a script: it can be written, and there is no
placeholder in it for a name that the script assigns. -/
inductive Inlinable (script : Script) : Term → Prop
  | nil : Inlinable script .nil
  | bool (value : Bool) : Inlinable script (.bool value)
  | int {i : Int} (h : Number.isShort i = true) : Inlinable script (.number (.int i))
  | real (x : Double) : Inlinable script (.number (.real x))
  | string {text : String}
      (h : ∀ name, Text.HasPlaceholder name text.toList → ¬ script.Assigns (String.ofList name)) :
      Inlinable script (.string text)

/-- A datum that is its own value and can be written. -/
structure Bindings.Settled (b : Bindings) (v : Term) : Prop where
  resolve : b.resolve v = .ok v
  writable : ∃ text, v.text = .ok text
  not_identifier : ∀ name line, v ≠ .identifier name line

/-- A datum that may be written for a name is its own value. -/
theorem Inlinable.settled {catalogue : Catalogue} {script : Script} {s : State} {v : Term}
    (h : Inlinable script v) (hs : State.empty.statements catalogue script = .ok s) :
    s.bindings.Settled v := by
  cases h with
  | nil => exact ⟨rfl, ⟨_, rfl⟩, fun _ _ => Term.noConfusion⟩
  | bool value => exact ⟨rfl, ⟨_, rfl⟩, fun _ _ => Term.noConfusion⟩
  | @int i hshort =>
      have htext : Number.intText i = .ok (Digits.ofInt i) := if_pos hshort
      exact ⟨rfl, ⟨_, htext⟩, fun _ _ => Term.noConfusion⟩
  | real x => exact ⟨rfl, ⟨_, rfl⟩, fun _ _ => Term.noConfusion⟩
  | @string text hplaceholder =>
      refine ⟨?_, ⟨_, rfl⟩, fun _ _ => Term.noConfusion⟩
      apply Bindings.resolve_string_of_unbound
      exact fun name hname => get?_eq_none_of_statements hs (hplaceholder name hname)

/-! ## Diagnostics that differ in details -/

namespace Compile

/-- A problem that can be written is told by its line and its description. -/
theorem withoutDetails_diagnostic {p : Problem} {token suggestion : String} (line : Int)
    (htoken : p.token = .ok token) (hsuggestion : p.suggestion = .ok suggestion) :
    Diagnostic.withoutDetails <$> p.diagnostic line = .ok ⟨line, p.description, "", ""⟩ := by
  rw [Problem.diagnostic, htoken, hsuggestion]
  rfl

namespace State

variable {catalogue : Catalogue}

/-- A state, with its diagnostics without details. -/
def withoutDetails (s : State) : State :=
  { s with errors := s.errors.map Diagnostic.withoutDetails }

theorem withoutDetails_report {p q : Problem} (s : State) (line : Int)
    (h : Diagnostic.withoutDetails <$> p.diagnostic line =
      Diagnostic.withoutDetails <$> q.diagnostic line) :
    withoutDetails <$> s.report line p = withoutDetails <$> s.report line q :=
  retold_report s line h

/-- What differs in details differs only in details when more statements are compiled. -/
theorem withoutDetails_bind_statements {x y : Written State}
    (h : withoutDetails <$> x = withoutDetails <$> y) (script : Script) :
    withoutDetails <$> (x >>= fun u => u.statements catalogue script) =
      withoutDetails <$> (y >>= fun u => u.statements catalogue script) :=
  retold_bind_statements h script

end State

/-! ## Values -/

section

variable {catalogue : Catalogue} {b : Bindings} {name : String} {v : Term} (line : Int)

theorem resolve_inlineValue (hv : b.Settled v) (hname : b.get? name = some v) (t : Term) :
    b.resolve (t.inlineValue name (.literal v line)).plain = b.resolve t.plain := by
  apply Term.apply_inlineValue fun t => b.resolve t.plain
  intro nameLine
  show b.resolve (Term.literal v line).plain = b.resolve (.identifier name nameLine)
  rw [Term.plain_literal, hv.resolve, Bindings.resolve, hname]
  rfl

variable {s : State} (hv : s.bindings.Settled v) (hname : s.bindings.get? name = some v)

include hv hname

theorem parameters?_inline (args : List Term) :
    s.parameters? (args.map (·.inlineParameter name (.literal v line))) = s.parameters? args := by
  induction args with
  | nil => rfl
  | cons arg args ih =>
      cases arg with
      | keyword key value _ =>
          rw [List.map_cons, State.parameters?, ← ih, ← resolve_inlineValue line hv hname]
          rfl
      | _ => rfl

theorem single_inlineValue (t : Term) :
    s.single (t.inlineValue name (.literal v line)) = s.single t := by
  apply Term.apply_inlineValue s.single
  intro nameLine
  show s.single (.literal v line) = (s.bindings.get? name).getD .nil
  rw [State.single, Term.plain_literal, hname]
  split
  · exact absurd rfl (hv.not_identifier _ _)
  · rfl

theorem argument_inlineValue (t : Term) :
    argument s.bindings (t.inlineValue name (.literal v line)) = argument s.bindings t := by
  apply Term.apply_inlineValue (argument s.bindings)
  intro nameLine
  have hread : argument s.bindings (.identifier name nameLine) = argument.valueText v := by
    simp only [argument, Term.plain, hname]
  rw [hread, argument, Term.plain_literal]
  split
  · exact absurd rfl (hv.not_identifier _ _)
  · rw [hv.resolve]
    rfl

/-! ## Statements -/

omit hname in
/-- An unknown environment is reported under the same description. -/
theorem withoutDetails_unknownEnvironment (t value : Term) (known : List String) (line' : Int) :
    Diagnostic.withoutDetails <$> (Problem.unknownEnvironment (State.env.shown value
        (t.inlineValue name (.literal v line)).plain) known).diagnostic line' =
      Diagnostic.withoutDetails <$> (Problem.unknownEnvironment
        (State.env.shown value t.plain) known).diagnostic line' := by
  have hwritten {shown : Term} {text : String} (h : shown.text = .ok text) :
      Diagnostic.withoutDetails <$> (Problem.unknownEnvironment shown known).diagnostic line' =
        .ok ⟨line', "environment is not defined: ", "", ""⟩ := by
    have hsuggestion : (Problem.unknownEnvironment shown known).suggestion =
        .ok (Suggestion.question (Suggestion.nearest? text known)) := by
      rw [Problem.suggestion, suggest, h]
      rfl
    exact withoutDetails_diagnostic (p := .unknownEnvironment shown known) line' h hsuggestion
  apply Term.apply_inlineValue fun t => Diagnostic.withoutDetails <$>
    (Problem.unknownEnvironment (State.env.shown value t.plain) known).diagnostic line'
  intro nameLine
  simp only [Term.plain_literal]
  obtain ⟨text, htext⟩ := hv.writable
  cases value with
  | string id => rfl
  | _ =>
      have hshown : (Term.identifier name nameLine).text = .ok name := rfl
      exact (hwritten htext).trans (hwritten hshown).symm

theorem withoutDetails_env (catalogue : Catalogue) (line' : Int) (args : List Term) :
    State.withoutDetails <$>
        s.env catalogue line' (Term.inlineEnvArgs name (.literal v line) args) =
      State.withoutDetails <$> s.env catalogue line' args := by
  cases args with
  | nil => rfl
  | cons nameArg args =>
      have hall : (args.map (·.inlineParameter name (.literal v line))).all Term.isKeyword =
          args.all Term.isKeyword := by
        simp [List.all_map, Function.comp_def, Term.isKeyword_inlineParameter]
      rw [Term.inlineEnvArgs, State.env, State.env, Term.isKeyword_inlineParameter,
        Term.isKeyword_inlineValue, hall]
      split
      · rfl
      · next hshape =>
          obtain ⟨hkeyword, -⟩ : nameArg.isKeyword = false ∧ args.all Term.isKeyword = true := by
            simpa using hshape
          rw [Term.inlineParameter_of_isKeyword_eq_false _ _
              (by rwa [Term.isKeyword_inlineValue]),
            resolve_inlineValue line hv hname, parameters?_inline line hv hname, map_bind, map_bind]
          refine bind_congr fun value => ?_
          rw [map_bind, map_bind]
          refine bind_congr fun parameters? => ?_
          cases parameters? with
          | none => rfl
          | some parameters =>
              simp only
              split
              · exact State.withoutDetails_report s line'
                  (withoutDetails_unknownEnvironment line hv nameArg value _ line')
              · rfl

theorem withoutDetails_grade (line' : Int) (args : List Term) :
    State.withoutDetails <$> s.grade line' (args.map (·.inlineValue name (.literal v line))) =
      State.withoutDetails <$> s.grade line' args := by
  match args with
  | [] => rfl
  | _ :: _ :: _ => rfl
  | [arg] =>
      apply Term.apply_inlineValue fun t => State.withoutDetails <$> s.grade line' [t]
      intro nameLine
      have hsingle := single_inlineValue line hv hname (.identifier name nameLine)
      rw [Term.inlineValue, if_pos rfl] at hsingle
      simp only [State.grade, ← hsingle]
      cases hvalue : s.single (.literal v line) with
      | nil =>
          -- The name is shown as it is, and not as the nil that it stands for.
          apply State.withoutDetails_report
          obtain ⟨text, htext⟩ := hv.writable
          have hliteral := withoutDetails_diagnostic (p := .gradeKind v) line' htext rfl
          have hshown : (Term.identifier name nameLine).text = .ok name := rfl
          rw [Term.plain_literal]
          exact hliteral.trans
            (withoutDetails_diagnostic (p := .gradeKind (.identifier name nameLine)) line'
              hshown rfl).symm
      | _ => rfl

theorem withoutDetails_networkAccess (line' : Int) (args : List Term) :
    State.withoutDetails <$>
        s.networkAccess line' (args.map (·.inlineValue name (.literal v line))) =
      State.withoutDetails <$> s.networkAccess line' args := by
  match args with
  | [] => rfl
  | _ :: _ :: _ => rfl
  | [arg] => simp only [List.map_cons, List.map_nil, State.networkAccess,
      single_inlineValue line hv hname]

theorem arguments_inline (args : List Term) :
    arguments s.bindings (args.map (·.inlineValue name (.literal v line))) =
      arguments s.bindings args := by
  induction args with
  | nil => rfl
  | cons arg args ih =>
      rw [List.map_cons, arguments, arguments, argument_inlineValue line hv hname, ih]

theorem command_inlineCall (t : Term) :
    command s.bindings s.environment (t.inlineCall name (.literal v line)) =
      command s.bindings s.environment t := by
  cases t with
  | call command line' args =>
      rw [Term.inlineCall, Compile.command, Compile.command, List.length_map,
        arguments_inline line hv hname]
  | _ => rfl

theorem commands_inline (children : List Term) :
    commands s.bindings s.environment (children.map (·.inlineCall name (.literal v line))) =
      commands s.bindings s.environment children := by
  induction children with
  | nil => rfl
  | cons child children ih =>
      rw [List.map_cons, commands, commands, command_inlineCall line hv hname, ih,
        Term.line_inlineCall]

/-- Writing the value of a name for the name changes what a statement does in details only. -/
theorem withoutDetails_inlineStatement (catalogue : Catalogue) (t : Term) :
    State.withoutDetails <$> s.statement catalogue (t.inlineStatement name (.literal v line)) =
      State.withoutDetails <$> s.statement catalogue t := by
  cases t with
  | directive field line' args =>
      rw [Term.inlineStatement]
      split
      · next hfield =>
          simp only [State.statement, State.directive, hfield]
          exact withoutDetails_env line hv hname catalogue line' args
      · next hfield =>
          simp only [State.statement, State.directive, hfield]
          exact withoutDetails_grade line hv hname line' args
      · next hfield =>
          simp only [State.statement, State.directive, hfield]
          exact withoutDetails_networkAccess line hv hname line' args
      · rfl
  | block label line' children kind =>
      simp only [Term.inlineStatement, State.statement, State.step,
        commands_inline line hv hname]
  | _ => rfl

end

end Compile

theorem withoutDetails_compile (catalogue : Catalogue) (script : Script) :
    Outcome.withoutDetails <$> compile catalogue script =
      Outcome.ofState <$> State.withoutDetails <$> State.empty.statements catalogue script :=
  retold_compile Diagnostic.withoutDetails catalogue script

/-- Writing the value of a variable for its name changes nothing but the tokens and suggestions of
diagnostics. -/
theorem compile_inline {catalogue : Catalogue} {xs : Script} {name : String} {v : Term} {line : Int}
    (hname : xs.lastAssigned? name = some (.literal v line)) (hv : Inlinable xs v) (t : Term)
    (ys : Script) (line' : Int) :
    Outcome.withoutDetails <$>
        compile catalogue (xs ++ t.inlineStatement name (.literal v line') :: ys) =
      Outcome.withoutDetails <$> compile catalogue (xs ++ t :: ys) := by
  rw [withoutDetails_compile, withoutDetails_compile, State.statements_append,
    State.statements_append]
  cases hs : State.empty.statements catalogue xs with
  | error e => rfl
  | ok s =>
      -- Whatever was rejected in front of the statement, the name is bound to its last value.
      have hbound : s.bindings.get? name = some v := by
        rw [get?_of_statements hs, hname]
        exact congrArg some (Term.plain_literal v line)
      show Outcome.ofState <$> State.withoutDetails <$>
          s.statements catalogue (t.inlineStatement name (.literal v line') :: ys) =
        Outcome.ofState <$> State.withoutDetails <$> s.statements catalogue (t :: ys)
      have hstatement := withoutDetails_inlineStatement line' (hv.settled hs) hbound catalogue t
      rw [State.statements_cons, State.statements_cons,
        State.withoutDetails_bind_statements hstatement ys]

/-- The image of an environment is written out for the variable that held it. -/
theorem compile_inline_image :
    Outcome.withoutDetails <$> compile .standard
        [.assignment "i" (.literal (.string "haskell") 1) 1,
          .directive "env" 2 [.literal (.string "custom") 2,
            .keyword "image" (.literal (.string "haskell") 2) 2],
          .directive "grade" 3 [.identifier "i" 3]] =
      Outcome.withoutDetails <$> compile .standard
        [.assignment "i" (.literal (.string "haskell") 1) 1,
          .directive "env" 2 [.literal (.string "custom") 2,
            .keyword "image" (.identifier "i" 2) 2],
          .directive "grade" 3 [.identifier "i" 3]] := by
  have hlast : Script.lastAssigned? [.assignment "i" (.literal (.string "haskell") 1) 1] "i" =
      some (.literal (.string "haskell") 1) := rfl
  have henv : Field.ofName? "env" = some .env := Field.ofName?_name .env
  have h := @compile_inline .standard _ _ _ _ hlast
    (.string fun name hname => absurd hname.percent_mem (by decide))
    (.directive "env" 2 [.literal (.string "custom") 2, .keyword "image" (.identifier "i" 2) 2])
    [.directive "grade" 3 [.identifier "i" 3]] 2
  simpa [Term.inlineStatement, henv, Term.inlineEnvArgs, Term.inlineParameter, Term.inlineValue]
    using h

end GradingScript
