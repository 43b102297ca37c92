import GradingScript.Proofs.Compile.Frame
import GradingScript.Proofs.Layout.Command

/-!
# Compiling whatever the lines

Of the lines of a script nothing is built but the lines of its diagnostics.

* `unplaced` is a state with all lines forgotten.
* `statement_unplaced` is the step: a statement without lines does to it what the statement does to
  the state.
* `statements_unplaced` is the run: the variables stay bound to values, since statements have values
  in them.
-/

namespace GradingScript

namespace Compile

namespace State

/-- The state with all lines forgotten. -/
def unplaced (s : State) : State :=
  { s with bindings := s.bindings.unplaced, errors := s.errors.map Diagnostic.unplaced }

variable {catalogue : Catalogue}

theorem report_unplaced (s : State) (line : Int) (p : Problem) (h : p.ShowsValue) :
    s.unplaced.report 0 p.unplaced = unplaced <$> s.report line p := by
  rw [report, report, Problem.diagnostic_unplaced h line, map_bind, bind_map_left]
  refine bind_congr fun d => ?_
  simp [unplaced]

variable {s : State}

/-! ## Directives -/

theorem parameters?_unplaced (hs : s.bindings.HoldValues) (args : List Term) :
    s.unplaced.parameters? (args.map Term.unplaced) =
      Option.map (List.map Parameter.unplaced) <$> s.parameters? args := by
  induction args with
  | nil => rfl
  | cons arg args ih =>
      cases arg with
      | keyword key value line =>
          have hvalue : s.unplaced.bindings.resolve value.plain.unplaced =
              Term.unplaced <$> s.bindings.resolve value.plain := Bindings.resolve_unplaced hs _
          rw [List.map_cons, Term.unplaced_keyword, parameters?, parameters?, Term.plain_unplaced,
            hvalue, ih, map_bind, bind_map_left]
          refine bind_congr fun v => ?_
          rw [map_bind, bind_map_left]
          refine bind_congr fun parameters? => ?_
          cases parameters? <;> rfl
      | _ => rfl

theorem single_unplaced (s : State) (arg : Term) :
    s.unplaced.single arg.unplaced = (s.single arg).unplaced := by
  rw [single, single, Term.plain_unplaced]
  cases arg.plain with
  | identifier name line =>
      simp only [Term.unplaced_identifier]
      show (s.bindings.unplaced.get? name).getD .nil = _
      rw [Bindings.get?_unplaced]
      cases s.bindings.get? name <;> rfl
  | _ => rfl

theorem environmentOf_unplaced (value : Term) :
    env.environmentOf catalogue value.unplaced = env.environmentOf catalogue value := by
  cases value <;> rfl

theorem shown_unplaced (name term : Term) :
    env.shown name.unplaced term.unplaced = (env.shown name term).unplaced := by
  cases name <;> rfl

theorem env_unplaced (hcatalogue : catalogue.IgnoresLines) (hs : s.bindings.HoldValues)
    (line : Int) {args : List Term} (hargs : ∀ arg ∈ args, arg.isValue = true) :
    s.unplaced.env catalogue 0 (args.map Term.unplaced) =
      unplaced <$> s.env catalogue line args := by
  cases args with
  | nil => exact report_unplaced s line .noEnvironmentName trivial
  | cons nameArg args =>
      rw [List.forall_mem_cons] at hargs
      have hkeywords : (args.map Term.unplaced).all Term.isKeyword = args.all Term.isKeyword := by
        rw [List.all_map]
        exact congrArg args.all (funext Term.isKeyword_unplaced)
      have hname : s.unplaced.bindings.resolve nameArg.plain.unplaced =
          Term.unplaced <$> s.bindings.resolve nameArg.plain := Bindings.resolve_unplaced hs _
      simp only [List.map_cons, env, Term.isKeyword_unplaced, hkeywords, Term.plain_unplaced, hname,
        parameters?_unplaced hs]
      split
      · exact report_unplaced s line .malformed trivial
      · rw [map_bind, bind_map_left]
        refine bind_congr fun value => ?_
        rw [environmentOf_unplaced, shown_unplaced]
        cases hparameters : s.parameters? args with
        | error e => rfl
        | ok parameters? =>
            cases parameters? with
            | none => exact report_unplaced s line .malformed trivial
            | some parameters =>
                have hvalues := found_of_parameters? Term.inherited_isValue hs hargs.2 hparameters
                cases he : env.environmentOf catalogue value with
                | none =>
                    exact report_unplaced s line
                      (.unknownEnvironment (env.shown value nameArg.plain) catalogue.ids)
                      (found_shown Term.inherited_isValue (Term.inherited_isValue.plain hargs.1))
                | some e =>
                    have hmem : e ∈ catalogue.environments :=
                      List.mem_of_find?_eq_some (eq_string_of_environmentOf he).2
                    -- The image is made of values alone, wherever they stand.
                    have himage := (hcatalogue e hmem).resolveImage hvalues
                    show (if e.accepts (parameters.map Parameter.unplaced).length = true then _
                      else _) = unplaced <$> (if e.accepts parameters.length = true then _ else _)
                    rw [List.length_map, himage]
                    split
                    · rw [map_bind]
                      refine bind_congr fun image? => ?_
                      cases image? with
                      | error rejection =>
                          exact report_unplaced s line (.rejected rejection) trivial
                      | ok image => rfl
                    · exact report_unplaced s line (.parameterCount e.id) trivial

theorem requiredFiles_unplaced (line : Int) {args : List Term}
    (hargs : ∀ arg ∈ args, arg.isValue = true) :
    s.unplaced.requiredFiles 0 (args.map Term.unplaced) =
      unplaced <$> s.requiredFiles line args := by
  cases args with
  | nil => exact report_unplaced s line (.emptyList .requiredFiles) trivial
  | cons arg args =>
      have hfiles : ((arg :: args).map Term.unplaced).mapM (fun arg => arg.plain.text) =
          (arg :: args).mapM fun arg => arg.plain.text := by
        refine Written.mapM_map_congr fun u hu => ?_
        rw [Term.plain_unplaced, Term.text_unplaced (Term.inherited_isValue.plain (hargs u hu))]
      rw [List.map_cons] at hfiles ⊢
      rw [requiredFiles, requiredFiles, hfiles, map_bind]
      · rfl
      · exact List.cons_ne_nil _ _
      · exact List.cons_ne_nil _ _

theorem validExtension?_unplaced (t : Term) :
    extensions.validExtension? t.unplaced = extensions.validExtension? t := by
  cases t <;> rfl

theorem extensions_unplaced (line : Int) {args : List Term}
    (hargs : ∀ arg ∈ args, arg.isValue = true) :
    s.unplaced.extensions 0 (args.map Term.unplaced) =
      (fun (t, texts) => (t.unplaced, texts)) <$> s.extensions line args := by
  induction args generalizing s with
  | nil => rfl
  | cons arg args ih =>
      rw [List.forall_mem_cons] at hargs
      simp only [List.map_cons, extensions, Term.plain_unplaced, validExtension?_unplaced]
      split
      · rw [ih hargs.2, map_bind, bind_map_left]
        rfl
      · have hreport :=
          report_unplaced s line (.extension arg.plain) (Term.inherited_isValue.plain hargs.1)
        rw [Problem.unplaced] at hreport
        rw [hreport, map_bind, bind_map_left]
        exact bind_congr fun t => ih hargs.2

theorem allowedExtensions_unplaced (line : Int) {args : List Term}
    (hargs : ∀ arg ∈ args, arg.isValue = true) :
    s.unplaced.allowedExtensions 0 (args.map Term.unplaced) =
      unplaced <$> s.allowedExtensions line args := by
  cases args with
  | nil => exact report_unplaced s line (.emptyList .allowedExtensions) trivial
  | cons arg args =>
      have hextensions := extensions_unplaced (s := s) line hargs
      simp only [List.map_cons, allowedExtensions] at hextensions ⊢
      rw [hextensions, map_bind, bind_map_left]
      rfl

theorem grade_unplaced (hs : s.bindings.HoldValues) (line : Int) {args : List Term}
    (hargs : ∀ arg ∈ args, arg.isValue = true) :
    s.unplaced.grade 0 (args.map Term.unplaced) = unplaced <$> s.grade line args := by
  match args with
  | [arg] =>
      rw [List.forall_mem_singleton] at hargs
      have hvalue : (s.single arg).isValue = true := found_single Term.inherited_isValue hs hargs
      simp only [List.map_cons, List.map_nil, grade, single_unplaced, Term.plain_unplaced]
      cases hsingle : s.single arg with
      | number value =>
          show (if outOfRange value = true then _ else _) =
            unplaced <$> (if outOfRange value = true then _ else _)
          split
          · exact report_unplaced s line .gradeRange trivial
          · rfl
      | nil =>
          exact report_unplaced s line (.gradeKind arg.plain) (Term.inherited_isValue.plain hargs)
      | _ => exact report_unplaced s line (.gradeKind _) (hsingle ▸ hvalue)
  | [] => exact report_unplaced s line .malformed trivial
  | _ :: _ :: _ => exact report_unplaced s line .malformed trivial

theorem networkAccess_unplaced (line : Int) (args : List Term) :
    s.unplaced.networkAccess 0 (args.map Term.unplaced) =
      unplaced <$> s.networkAccess line args := by
  match args with
  | [arg] =>
      simp only [List.map_cons, List.map_nil, networkAccess, single_unplaced]
      cases s.single arg with
      | bool enabled => rfl
      | _ => exact report_unplaced s line .networkKind trivial
  | [] => exact report_unplaced s line .malformed trivial
  | _ :: _ :: _ => exact report_unplaced s line .malformed trivial

theorem directive_unplaced (hcatalogue : catalogue.IgnoresLines) (hs : s.bindings.HoldValues)
    (name : String) (line : Int) {args : List Term} (hargs : ∀ arg ∈ args, arg.isValue = true) :
    s.unplaced.directive catalogue name 0 (args.map Term.unplaced) =
      unplaced <$> s.directive catalogue name line args := by
  unfold directive
  split
  · exact env_unplaced hcatalogue hs line hargs
  · exact requiredFiles_unplaced line hargs
  · exact allowedExtensions_unplaced line hargs
  · exact grade_unplaced hs line hargs
  · exact networkAccess_unplaced line args
  · exact report_unplaced s line (.unknownField name) trivial

/-! ## Statements -/

theorem step_unplaced (hs : s.bindings.HoldValues) (label : String) (line : Int)
    {children : List Term} (h : ∀ child ∈ children, ∀ v ∈ child.operands, v.isValue = true) :
    s.unplaced.step label 0 (children.map Term.unplaced) =
      unplaced <$> s.step label line children := by
  unfold step
  by_cases hold : label ∈ s.configuration.stepNames
  · have hold' : label ∈ s.unplaced.configuration.stepNames := hold
    rw [if_pos hold, if_pos hold']
    exact report_unplaced s line (.repeatedStep label) trivial
  · have hnew : label ∉ s.unplaced.configuration.stepNames := hold
    rw [if_neg hold, if_neg hnew]
    show (commands s.bindings.unplaced s.environment (children.map Term.unplaced) >>= _) = _
    rw [commands_unplaced hs h, map_bind, bind_map_left]
    refine bind_congr fun result => ?_
    simp [unplaced]

/-- A statement without lines does to a state without lines what the statement does to the
state. -/
theorem statement_unplaced (hcatalogue : catalogue.IgnoresLines) (hs : s.bindings.HoldValues)
    {t : Term} (ht : t.HasValues) :
    s.unplaced.statement catalogue t.unplaced = unplaced <$> s.statement catalogue t := by
  cases t with
  | directive name line args =>
      rw [Term.unplaced_directive]
      exact directive_unplaced hcatalogue hs name line ht.operands
  | assignment name value line =>
      have hbind := Bindings.bind_unplaced s.bindings name value
      exact congrArg (fun b => Except.ok { s.unplaced with bindings := b }) hbind
  | block label line children kind =>
      rw [Term.unplaced_block]
      simp only [statement]
      split
      · exact step_unplaced hs label line ht.children
      · exact report_unplaced s line (.unknownKeyword kind) trivial
  | call name line args =>
      rw [Term.unplaced_call]
      simp only [statement]
      split
      · exact report_unplaced s line .malformed trivial
      · exact report_unplaced s line (.unknownKeyword name) trivial
  | identifier name line =>
      rw [Term.unplaced_identifier]
      simp only [statement]
      split
      · exact report_unplaced s line .malformed trivial
      · exact report_unplaced s line (.unknownKeyword name) trivial
  | _ => exact report_unplaced s _ .malformed trivial

/-! ## Scripts -/

/-- A script without lines does to a state without lines what the script does to the state.  Each
statement leaves the variables bound to values for the next one. -/
theorem statements_unplaced (hcatalogue : catalogue.IgnoresLines) (hs : s.bindings.HoldValues)
    {script : Script} (hscript : ∀ t ∈ script, t.HasValues) :
    s.unplaced.statements catalogue (script.map Term.unplaced) =
      unplaced <$> s.statements catalogue script := by
  induction script generalizing s with
  | nil => rfl
  | cons t script ih =>
      rw [List.forall_mem_cons] at hscript
      rw [List.map_cons, statements_cons, statements_cons,
        statement_unplaced hcatalogue hs hscript.1]
      cases hstatement : s.statement catalogue t with
      | error e => rfl
      | ok u =>
          have hu := hold_of_statement Term.inherited_isValue hs hscript.1.operands hstatement
          exact ih hu hscript.2

end State

end Compile

/-! ## Outcomes -/

/-- The configuration with the lines of its diagnostics forgotten. -/
def Configuration.unplaced (c : Configuration) : Configuration :=
  { c with errors := c.errors.map Diagnostic.unplaced }

/-- The outcome with the lines of all diagnostics forgotten. -/
def Outcome.unplaced (o : Outcome) : Outcome :=
  { configuration := o.configuration.map Configuration.unplaced
    errors := o.errors.map Diagnostic.unplaced
    draft := o.draft.map Configuration.unplaced }

open Compile

theorem Outcome.ofState_unplaced (s : State) : ofState s.unplaced = (ofState s).unplaced := by
  unfold ofState Outcome.unplaced
  cases hs : s.errors <;> simp [State.unplaced, Configuration.unplaced, hs]

/-- A script without lines compiles to the same, but for the lines of diagnostics. -/
theorem compile_unplaced {catalogue : Catalogue} (hcatalogue : catalogue.IgnoresLines)
    {script : Script} (hscript : ∀ t ∈ script, t.HasValues) :
    compile catalogue (script.map Term.unplaced) =
      Outcome.unplaced <$> compile catalogue script := by
  have hrun := State.statements_unplaced hcatalogue (s := .empty) (Bindings.hold_empty _) hscript
  have hempty : State.empty.unplaced = .empty := rfl
  rw [hempty] at hrun
  rw [compile, compile, hrun, map_bind, bind_map_left]
  exact bind_congr fun s => congrArg pure (Outcome.ofState_unplaced s)

end GradingScript
