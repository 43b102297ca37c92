import GradingScript.Number.Basic

/-!
# Configurations and diagnostics

What a script is compiled to: the image and the environment to run in, constraints on the files
that are handed in, the grade, whether the network may be used, and the steps with their commands.
The diagnostics of the script are kept with it: each tells what is wrong, on which line and with
which token, and what may have been meant instead.
-/

namespace GradingScript

/-! ## Diagnostics -/

/-- Something that is wrong with a script. -/
structure Diagnostic where
  line : Int
  description : String
  token : String
  suggestion : String
  deriving DecidableEq, Repr

namespace Diagnostic

/-- The diagnostic in one sentence, with the suggestion behind it. -/
def text (d : Diagnostic) : Written String := do
  pure ("Line " ++ (← Number.intText d.line) ++ ": " ++ d.description ++ d.token ++ ". "
    ++ d.suggestion)

end Diagnostic

/-! ## Configurations -/

/-- One action of a step. -/
structure Command where
  kind : String
  args : List String
  deriving DecidableEq, Repr

/-- Commands under a name. -/
structure Step where
  name : String
  commands : List Command
  deriving DecidableEq, Repr

/-- A compiled script. -/
structure Configuration where
  image : Option String
  environment : Option String
  requiredFiles : List String
  allowedExtensions : List String
  grade : Option Number
  networkAccess : Bool
  steps : List Step
  /-- What is wrong with the script; it is filled in when the compilation has come to its end. -/
  errors : List Diagnostic := []
  deriving DecidableEq, Repr

namespace Configuration

/-- The configuration of an empty script. -/
def empty : Configuration :=
  { image := none
    environment := none
    requiredFiles := []
    allowedExtensions := []
    grade := none
    networkAccess := false
    steps := [] }

/-- The names of the steps, in order. -/
def stepNames (c : Configuration) : List String :=
  c.steps.map (·.name)

end Configuration

end GradingScript
