import GradingScript.Compile.Directive
import GradingScript.Compile.State
import GradingScript.Script

/-!
# Compiling scripts

The statements of a script are compiled one after the other, each with what those before it have
built.  A statement with a problem is reported and the next one compiled, so that all problems are
found at once.  Only an integer too long to be written breaks the compilation off.
-/

/-!
## Steps

Each statement of a step becomes a command, or a diagnostic, in the order of the script.  A command
is one of those that every step may use, or a capability of the environment in force.  A statement
that fails is left out, and the rest of the step stays.
-/

namespace GradingScript.Compile

/-- The text of the value of an argument: it must be a string, a number or a boolean. -/
def argument (bindings : Bindings) (arg : Term) : Written (Except Problem String) :=
  match arg.plain with
  | .identifier name _ =>
    match bindings.get? name with
    | some value => valueText value
    | none => pure (.error (.unboundVariable name))
  | term => do valueText (← bindings.resolve term)
where
  valueText (value : Term) : Written (Except Problem String) :=
    match value with
    | .string _ | .number _ | .bool _ => do pure (.ok (← value.text))
    | _ => pure (.error (.argument value))

/-- The texts of the values of all arguments, or what is wrong with the first bad one. -/
def arguments (bindings : Bindings) : List Term → Written (Except Problem (List String))
  | [] => pure (.ok [])
  | arg :: args => do
    match ← argument bindings arg with
    | .error p => pure (.error p)
    | .ok text =>
      match ← arguments bindings args with
      | .error p => pure (.error p)
      | .ok texts => pure (.ok (text :: texts))

/-- The number of arguments of a command. -/
def arityOf (environment : Option Environment) (name : String) : Except Problem Int :=
  if name ∈ commonCommands then .ok 1
  else
    match environment with
    | none => .error (.unknownCommand name [])
    | some e =>
      match e.arityOf? name with
      | some arity => .ok arity
      | none => .error (.unknownCommand name (commonCommands ++ e.commandNames))

/-- The command with the texts of its arguments. -/
def makeCommand (environment : Option Environment) (name : String) (texts : List String) :
    Except Problem Command :=
  if name ∈ commonCommands then .ok ⟨name, texts⟩
  else
    match environment with
    | none => .error (.unknownCommand name [])
    | some e => (e.invoke name texts).mapError .rejected

/-- The command of one statement of a step. -/
def command (bindings : Bindings) (environment : Option Environment) :
    Term → Written (Except Problem Command)
  | .call name _ args =>
    match arityOf environment name with
    | .error p => pure (.error p)
    | .ok arity =>
      if arity = args.length then do
        -- The first bad argument is reported, and the values behind it are not asked for.
        match ← arguments bindings args with
        | .error p => pure (.error p)
        | .ok texts => pure (makeCommand environment name texts)
      else pure (.error (.argumentCount name arity))
  | _ => pure (.error .malformed)

/-- The commands of the statements of a step, and the diagnostics of those that fail. -/
def commands (bindings : Bindings) (environment : Option Environment) :
    List Term → Written (List Command × List Diagnostic)
  | [] => pure ([], [])
  | child :: children => do
    match ← command bindings environment child with
    | .ok c => do
      let (cs, ds) ← commands bindings environment children
      pure (c :: cs, ds)
    | .error p => do
      let d ← p.diagnostic child.line
      let (cs, ds) ← commands bindings environment children
      pure (cs, d :: ds)

/-- Adds a step, unless there is one of its name. -/
def State.step (s : State) (name : String) (line : Int) (children : List Term) : Written State :=
  if name ∈ s.configuration.stepNames then s.report line (.repeatedStep name)
  else do
    let (cs, ds) ← commands s.bindings s.environment children
    pure { s with
      errors := s.errors ++ ds
      configuration :=
        { s.configuration with steps := s.configuration.steps ++ [⟨name, cs⟩] } }

end GradingScript.Compile

/-! ## Scripts -/

namespace GradingScript

open Compile

namespace Compile.State

/-- Compiles one statement. -/
def statement (catalogue : Catalogue) (s : State) : Term → Written State
  | .directive name line args => s.directive catalogue name line args
  | .assignment name value _ => pure { s with bindings := s.bindings.bind name value }
  | .block label line children keyword =>
    if keyword = "step" then s.step label line children
    else s.report line (.unknownKeyword keyword)
  | .call name line _ | .identifier name line =>
    if name ∈ keywords then s.report line .malformed
    else s.report line (.unknownKeyword name)
  | term => s.report term.line .malformed

/-- Compiles statements in order. -/
def statements (catalogue : Catalogue) (s : State) (script : Script) : Written State :=
  script.foldlM (statement catalogue) s

@[simp] theorem statements_nil (catalogue : Catalogue) (s : State) :
    s.statements catalogue [] = .ok s := rfl

/-- Statements are compiled with what those before them have built. -/
theorem statements_append (catalogue : Catalogue) (s : State) (xs ys : Script) :
    s.statements catalogue (xs ++ ys) =
      s.statements catalogue xs >>= fun t => t.statements catalogue ys := by
  simp [statements, List.foldlM_append]

end Compile.State

/-- What comes of a script: its configuration, if nothing is wrong with it, all diagnostics, and
the configuration as far as it could be built, if the script could be read. -/
structure Outcome where
  configuration : Option Configuration
  errors : List Diagnostic
  draft : Option Configuration
  deriving DecidableEq, Repr

namespace Outcome

/-- Whether nothing is wrong. -/
def ok (o : Outcome) : Bool :=
  o.errors.isEmpty

/-- The configuration, or all diagnostics if there are any or there is no configuration. -/
def unwrap (o : Outcome) : Except (List Diagnostic) Configuration :=
  match o.configuration with
  | some configuration => if o.ok then .ok configuration else .error o.errors
  | none => .error o.errors

/-- The diagnostics, one below the other. -/
def errorText (errors : List Diagnostic) : Written String := do
  pure ("\n".intercalate (← errors.mapM Diagnostic.text))

/-- The outcome of a compilation that has come to its end. -/
def ofState (s : State) : Outcome :=
  let configuration := { s.configuration with errors := s.errors }
  { configuration := if s.errors.isEmpty then some configuration else none
    errors := s.errors
    draft := some configuration }

/-- The diagnostic of a text that is no script. -/
def ofScriptError (e : ScriptError) : Written Outcome := do
  pure ⟨none, [⟨e.line, e.fault.description, ← e.fault.token, ""⟩], none⟩

end Outcome

/-- Compiles a script. -/
def compile (catalogue : Catalogue) (script : Script) : Written Outcome := do
  pure (.ofState (← State.empty.statements catalogue script))

/-- Reads a text and compiles it. -/
def compileText (catalogue : Catalogue) (text : String) : Written Outcome :=
  match Script.ofText text with
  | .ok script => compile catalogue script
  | .error e => Outcome.ofScriptError e

end GradingScript
