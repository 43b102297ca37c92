import GradingScript.Bindings
import GradingScript.Configuration
import GradingScript.Environment.Basic
import GradingScript.Similarity

/-!
# The state of a compilation

What the statements compiled so far have built: the configuration, the variables, the environment
in force, and the diagnostics in the order in which they were found.  A diagnostic tells of a
problem with a statement.
-/

/-!
## Problems

What can be wrong with the statements of a script, and how it is told.
-/

namespace GradingScript

/-- The fields that a directive sets, in the order in which they are suggested. -/
inductive Field where
  | env
  | requiredFiles
  | allowedExtensions
  | grade
  | networkAccess
  deriving DecidableEq, Repr

namespace Field

/-- All fields. -/
def all : List Field :=
  [.env, .requiredFiles, .allowedExtensions, .grade, .networkAccess]

/-- The name of a field. -/
def name : Field → String
  | .env => "env"
  | .requiredFiles => "required_files"
  | .allowedExtensions => "allowed_file_extensions"
  | .grade => "grade"
  | .networkAccess => "network_access"

/-- The field of a name. -/
def ofName? (name : String) : Option Field :=
  all.find? (·.name = name)

@[simp] theorem ofName?_name (f : Field) : ofName? f.name = some f := by
  cases f <;> decide

/-- The names of all fields. -/
def names : List String :=
  all.map name

end Field

/-- What a statement may begin with; these too are suggested in this order. -/
def keywords : List String :=
  ["@", "step"]

/-- The commands that every step may use.  Each takes one argument. -/
def commonCommands : List String :=
  ["run", "print"]

/-- What is wrong with a statement. -/
inductive Problem where
  /-- A statement or an argument that fits nowhere. -/
  | malformed
  | noEnvironmentName
  | unknownEnvironment (name : Term) (known : List String)
  | parameterCount (environment : String)
  /-- The environment rejects its parameters, or the arguments of a command. -/
  | rejected (rejection : Rejection)
  | emptyList (field : Field)
  | extension (term : Term)
  | gradeKind (term : Term)
  | gradeRange
  | networkKind
  | unknownField (name : String)
  | unknownKeyword (name : String)
  | repeatedStep (name : String)
  | unboundVariable (name : String)
  | argument (value : Term)
  /-- A command that is not known; `known` are the commands that it may stand for. -/
  | unknownCommand (name : String) (known : List String)
  | argumentCount (command : String) (arity : Int)
  deriving Repr

namespace Problem

/-- What is wrong. -/
def description : Problem → String
  | .malformed => "syntax error"
  | .noEnvironmentName => "missing environment name"
  | .unknownEnvironment .. => "environment is not defined: "
  | .parameterCount _ => "incorrect number of parameters for env: "
  | .rejected r => r.description
  | .emptyList _ => "list can not be empty: "
  | .extension _ => "Invalid file extension: "
  | .gradeKind _ => "grade must be a number: "
  | .gradeRange => "grade must be a value between 0 and 1"
  | .networkKind => "network_access must be a boolean true or false"
  | .unknownField _ => "incorrect field: "
  | .unknownKeyword _ => "incorrect keyword: "
  | .repeatedStep _ => "the step name has already been defined: "
  | .unboundVariable _ => "undefined variable: "
  | .argument _ => "invalid argument: "
  | .unknownCommand .. => "undefined function: "
  | .argumentCount .. => "incorrect amount of parameters for function: "

/-- What it is wrong with. -/
def token : Problem → Written String
  | .malformed | .noEnvironmentName | .gradeRange | .networkKind => pure ""
  | .unknownEnvironment name _ => name.text
  | .parameterCount environment => pure environment
  | .rejected r => pure r.token
  | .emptyList field => pure field.name
  | .extension term => term.render true
  | .gradeKind term | .argument term => term.text
  | .unknownField name | .unknownKeyword name | .repeatedStep name => pure name
  | .unboundVariable name | .unknownCommand name _ => pure name
  | .argumentCount command arity => do pure (command ++ "/" ++ (← Number.intText arity))

/-- What may have been meant instead, or what is asked for. -/
def suggestion : Problem → Written String
  | .unknownEnvironment name known => suggest name known
  | .unknownField name => suggest (.string name) Field.names
  | .unknownKeyword name => suggest (.string name) keywords
  | .unknownCommand name known => suggest (.string name) known
  | .extension _ =>
    pure "A file extension must start with a dot and not contain any special characters."
  | _ => pure ""

/-- The diagnostic of a problem on a line. -/
def diagnostic (line : Int) (p : Problem) : Written Diagnostic := do
  pure ⟨line, p.description, ← p.token, ← p.suggestion⟩

end Problem

end GradingScript

/-! ## The state -/

namespace GradingScript.Compile

/-- What has been built so far. -/
structure State where
  configuration : Configuration
  bindings : Bindings
  environment : Option Environment
  errors : List Diagnostic

namespace State

/-- Before the first statement. -/
def empty : State :=
  ⟨.empty, .empty, none, []⟩

/-- The state with one more diagnostic. -/
def report (s : State) (line : Int) (p : Problem) : Written State := do
  pure { s with errors := s.errors ++ [← p.diagnostic line] }

/-- A report adds one diagnostic and changes nothing else. -/
theorem report_eq_ok {s t : State} {line : Int} {p : Problem} (h : s.report line p = .ok t) :
    ∃ d, p.diagnostic line = .ok d ∧ t = { s with errors := s.errors ++ [d] } := by
  unfold report at h
  cases hd : p.diagnostic line with
  | error e =>
    rw [hd] at h
    cases h
  | ok d =>
    rw [hd] at h
    cases h
    exact ⟨d, rfl, rfl⟩

/-- The state with a changed configuration. -/
def configure (s : State) (change : Configuration → Configuration) : State :=
  { s with configuration := change s.configuration }

end State

end GradingScript.Compile
