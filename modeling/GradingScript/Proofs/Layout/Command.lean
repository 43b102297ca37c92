import GradingScript.Proofs.Bindings.Held
import GradingScript.Proofs.Bindings.Placeholder
import GradingScript.Proofs.Compile.Found
import GradingScript.Proofs.Environment.Lines

/-!
# Variables and commands whatever the lines

Variables that are bound to values may as well be bound to them with all lines forgotten.  What is
wrong with a statement is told with a value, which shows no lines, and of a step only the lines of
its diagnostics come from the lines of its statements.

* `resolve_unplaced` says that a term is resolved to the same, but for lines.
* `diagnostic_unplaced` says that a problem is told the same on every line.
* `commands_unplaced` says that a step has the same commands, and fails of them the same.
-/

/-! ## Variables -/

namespace GradingScript.Bindings

theorem lookup_map (f : Term → Term) (name : String) (entries : List (String × Term)) :
    lookup name (entries.map fun (key, value) => (key, f value)) = (lookup name entries).map f := by
  induction entries with
  | nil => rfl
  | cons entry entries ih =>
      obtain ⟨key, value⟩ := entry
      by_cases hkey : key = name
      · simp [lookup, hkey]
      · simpa [lookup, hkey] using ih

theorem put_map (f : Term → Term) (name : String) (value : Term) (entries : List (String × Term)) :
    put name (f value) (entries.map fun (key, value) => (key, f value)) =
      (put name value entries).map fun (key, value) => (key, f value) := by
  induction entries with
  | nil => rfl
  | cons entry entries ih =>
      obtain ⟨key, old⟩ := entry
      by_cases hkey : key = name
      · simp [put, hkey]
      · simpa [put, hkey] using ih

/-- The variables, bound to their terms with all lines forgotten. -/
def unplaced (b : Bindings) : Bindings :=
  ⟨b.entries.map fun (name, value) => (name, value.unplaced), by
    rw [List.map_map]
    exact b.nodup⟩

/-- All variables are bound to values. -/
abbrev HoldValues (b : Bindings) : Prop :=
  b.Hold fun value => value.isValue = true

theorem get?_unplaced (b : Bindings) (name : String) :
    b.unplaced.get? name = (b.get? name).map Term.unplaced :=
  lookup_map Term.unplaced name b.entries

theorem bind_unplaced (b : Bindings) (name : String) (value : Term) :
    b.unplaced.bind name value.unplaced = (b.bind name value).unplaced := by
  apply Bindings.ext
  simp only [bind, set, unplaced, Term.plain_unplaced]
  exact put_map Term.unplaced name value.plain b.entries

/-! ## Resolution -/

variable {b : Bindings}

theorem replacement_unplaced (h : b.HoldValues) (name : List Char) :
    b.unplaced.replacement name = b.replacement name := by
  rw [replacement, replacement, get?_unplaced]
  cases hvalue : b.get? (String.ofList name) with
  | none => rfl
  | some value =>
      simp only [Option.map_some]
      rw [Term.text_unplaced (h _ value hvalue)]

theorem substitute_unplaced (h : b.HoldValues) (text : String) :
    b.unplaced.substitute text = b.substitute text := by
  rw [substitute, substitute, substituteChars_congr fun name _ => replacement_unplaced h name]

mutual

theorem resolve_unplaced (h : b.HoldValues) (t : Term) :
    b.unplaced.resolve t.unplaced = Term.unplaced <$> b.resolve t := by
  cases t with
  | identifier name line =>
      rw [Term.unplaced_identifier, resolve, resolve, get?_unplaced]
      cases b.get? name <;> rfl
  | string text =>
      rw [Term.unplaced, Term.mapLines, resolve, resolve, substitute_unplaced h]
      simp [Term.mapLines]
  | list items =>
      have hitems := resolveAll_unplaced h items
      rw [Term.unplaced_list, resolve, resolve, hitems, map_bind, bind_map_left]
      exact bind_congr fun values => congrArg pure (Term.unplaced_list values).symm
  | _ => rfl

theorem resolveAll_unplaced (h : b.HoldValues) (ts : List Term) :
    b.unplaced.resolveAll (ts.map Term.unplaced) = List.map Term.unplaced <$> b.resolveAll ts := by
  cases ts with
  | nil => rfl
  | cons t ts =>
      rw [List.map_cons, resolveAll, resolveAll, resolve_unplaced h t, resolveAll_unplaced h ts]
      simp

end

end GradingScript.Bindings

namespace GradingScript

/-- The diagnostic with its line forgotten. -/
def Diagnostic.unplaced (d : Diagnostic) : Diagnostic :=
  { d with line := 0 }

namespace Problem

/-- The problem with the lines of the term that it shows forgotten. -/
def unplaced : Problem → Problem
  | .unknownEnvironment name known => .unknownEnvironment name.unplaced known
  | .extension term => .extension term.unplaced
  | .gradeKind term => .gradeKind term.unplaced
  | .argument value => .argument value.unplaced
  | p => p

/-- The term that a problem shows is a value. -/
abbrev ShowsValue (p : Problem) : Prop :=
  p.Shows fun term => term.isValue = true

variable {p : Problem}

theorem description_unplaced (p : Problem) : p.unplaced.description = p.description := by
  cases p <;> rfl

theorem token_unplaced (h : p.ShowsValue) : p.unplaced.token = p.token := by
  cases p with
  | unknownEnvironment term known => exact Term.text_unplaced h
  | extension term => exact Term.showsNoLines_of_isValue h _ true
  | gradeKind term => exact Term.text_unplaced h
  | argument value => exact Term.text_unplaced h
  | _ => rfl

theorem suggestion_unplaced (h : p.ShowsValue) : p.unplaced.suggestion = p.suggestion := by
  cases p with
  | unknownEnvironment term known =>
      rw [unplaced, suggestion, suggestion, suggest, suggest, Term.text_unplaced h]
  | _ => rfl

/-- A problem is told the same whatever the lines. -/
theorem diagnostic_unplaced (h : p.ShowsValue) (line : Int) :
    p.unplaced.diagnostic 0 = Diagnostic.unplaced <$> p.diagnostic line := by
  rw [diagnostic, diagnostic, description_unplaced, token_unplaced h, suggestion_unplaced h,
    map_bind]
  refine bind_congr fun token => ?_
  rw [map_bind]
  rfl

end Problem

namespace Compile

variable {b : Bindings} {environment : Option Environment}

/-! ## Arguments -/

theorem valueText_unplaced (value : Term) :
    argument.valueText value.unplaced =
      Except.mapError Problem.unplaced <$> argument.valueText value := by
  have hwritten (text : Written String) :
      (text >>= fun t => pure (.ok t) : Written (Except Problem String)) =
        Except.mapError Problem.unplaced <$> (text >>= fun t => pure (.ok t)) := by
    rw [map_bind]
    rfl
  cases value with
  | string => exact hwritten _
  | number => exact hwritten _
  | bool => exact hwritten _
  | _ => rfl

theorem argument_unplaced (h : b.HoldValues) (arg : Term) :
    argument b.unplaced arg.unplaced = Except.mapError Problem.unplaced <$> argument b arg := by
  have hother (term : Term) : (b.unplaced.resolve term.unplaced >>= argument.valueText) =
      Except.mapError Problem.unplaced <$> (b.resolve term >>= argument.valueText) := by
    rw [Bindings.resolve_unplaced h, map_bind, bind_map_left]
    exact bind_congr valueText_unplaced
  rw [argument, argument, Term.plain_unplaced]
  cases arg.plain with
  | identifier name line =>
      simp only [Term.unplaced_identifier]
      rw [Bindings.get?_unplaced]
      cases b.get? name with
      | none => rfl
      | some value => exact valueText_unplaced value
  | _ => exact hother _

theorem arguments_unplaced (h : b.HoldValues) (args : List Term) :
    arguments b.unplaced (args.map Term.unplaced) =
      Except.mapError Problem.unplaced <$> arguments b args := by
  induction args with
  | nil => rfl
  | cons arg args ih =>
      rw [List.map_cons, arguments, arguments, argument_unplaced h, ih, map_bind, bind_map_left]
      refine bind_congr fun text? => ?_
      cases text? with
      | error p => rfl
      | ok text =>
          simp only [Except.mapError]
          rw [map_bind, bind_map_left]
          refine bind_congr fun texts? => ?_
          cases texts? <;> rfl

/-! ## Commands -/

theorem command_unplaced (h : b.HoldValues) (t : Term) :
    command b.unplaced environment t.unplaced =
      Except.mapError Problem.unplaced <$> command b environment t := by
  cases t with
  | call name line args =>
      rw [Term.unplaced_call, command, command, List.length_map]
      cases harity : arityOf environment name with
      | error p =>
          obtain ⟨known, rfl, -⟩ := eq_unknownCommand_of_arityOf harity
          rfl
      | ok arity =>
          simp only
          split
          · rw [arguments_unplaced h, map_bind, bind_map_left]
            refine bind_congr fun texts? => ?_
            cases texts? with
            | error p => rfl
            | ok texts =>
                simp only [Except.mapError, map_pure]
                cases hmake : makeCommand environment name texts with
                | ok c => rfl
                | error p =>
                    obtain ⟨known, rfl, -⟩ | ⟨rejection, rfl⟩ := eq_of_makeCommand hmake <;> rfl
          · rfl
  | _ => rfl

theorem commands_unplaced (hb : b.HoldValues) {children : List Term}
    (h : ∀ child ∈ children, ∀ v ∈ child.operands, v.isValue = true) :
    commands b.unplaced environment (children.map Term.unplaced) =
      (fun (cs, ds) => (cs, ds.map Diagnostic.unplaced)) <$> commands b environment children := by
  induction children with
  | nil => rfl
  | cons child children ih =>
      rw [List.forall_mem_cons] at h
      rw [List.map_cons, commands, commands, command_unplaced hb, ih h.2, Term.line_unplaced]
      cases hcommand : command b environment child with
      | error e => rfl
      | ok command? =>
          cases command? with
          | ok c => cases commands b environment children <;> rfl
          | error p =>
              have hd := p.diagnostic_unplaced
                (failure_of_command Term.inherited_isValue hb h.1 hcommand).shows child.line
              show (p.unplaced.diagnostic 0 >>= _) = _ <$> (p.diagnostic child.line >>= _)
              rw [hd, map_bind, bind_map_left]
              refine bind_congr fun d => ?_
              cases commands b environment children <;> rfl

end Compile

end GradingScript
