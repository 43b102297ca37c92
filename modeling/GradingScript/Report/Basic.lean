import GradingScript.Compile.Basic
import GradingScript.Text.CharClass

/-!
# Reports

What a program writes, to the user and about failures, and how a compilation is reported to its
user: what is compiled, the configuration in short, or what is wrong with the script, and the
environments that there are.
-/

/-! ## Output -/

namespace GradingScript

/-- Two texts that are written side by side. -/
structure Output where
  stdout : String
  stderr : String
  deriving DecidableEq, Repr

namespace Output

/-- Nothing. -/
def empty : Output :=
  ⟨"", ""⟩

/-- First the one, then the other. -/
def append (a b : Output) : Output :=
  ⟨a.stdout ++ b.stdout, a.stderr ++ b.stderr⟩

instance : Append Output :=
  ⟨append⟩

/-- Lines for the user. -/
def say (lines : List String) : Output :=
  ⟨String.join (lines.map (· ++ "\n")), ""⟩

/-- Lines about a failure. -/
def warn (lines : List String) : Output :=
  ⟨"", String.join (lines.map (· ++ "\n"))⟩

end Output

end GradingScript

/-! ## Reports -/

namespace GradingScript.Report

/-- A text, or a dash in the place of an empty or missing one. -/
def orDash : Option String → String
  | some text => if text = "" then "-" else text
  | none => "-"

/-- A text without the blanks at its end. -/
def trimEnd (text : String) : String :=
  String.ofList (text.toList.reverse.dropWhile Text.isBlank).reverse

/-- The first line of a text. -/
def firstLine (text : String) : String :=
  String.ofList (text.toList.takeWhile (· ≠ '\n'))

/-- What is compiled. -/
def started (script : String) (statements : String) : Output :=
  .say ["\nCOMPILE STARTED", "Script: " ++ script, "Statements: " ++ statements, ""]

/-- A command with the first line of its first argument. -/
def commandLine (c : Command) : String :=
  "  " ++ c.kind ++ ": " ++ firstLine (c.args.headD "")

/-- A step with its commands. -/
def stepLines (s : Step) : List String :=
  ("\nSTEP: " ++ s.name) ::
    (if s.commands.isEmpty then ["  (no commands)"] else s.commands.map commandLine)

/-- A line with the texts of a list, if it has any. -/
def listLine (label : String) (texts : List String) : List String :=
  if texts.isEmpty then [] else [label ++ ": " ++ ", ".intercalate texts]

/-- A configuration in short, with the text of its grade. -/
def summary (c : Configuration) (grade : Option String) : Output :=
  .say <|
    ["Environment: " ++ orDash c.environment, "Image: " ++ orDash c.image]
      ++ listLine "Required files" c.requiredFiles
      ++ listLine "Allowed extensions" c.allowedExtensions
      ++ grade.toList.map ("Grade: " ++ ·)
      ++ ["Network access: " ++ (if c.networkAccess then "yes" else "no")]
      ++ c.steps.flatMap stepLines

/-- A configuration in short. -/
def configuration (c : Configuration) : Written Output := do
  pure (summary c (← c.grade.mapM Number.text))

/-- What is wrong with a script, in the order in which it was found. -/
def failed (errors : List Diagnostic) : Written Output := do
  let texts ← errors.mapM Diagnostic.text
  let count := String.ofList (Digits.ofNat errors.length)
  let title := "\nCOMPILE FAILED (" ++ count ++ " error"
    ++ (if errors.length = 1 then "" else "s") ++ ")"
  pure (.warn (title :: texts.map fun text => "  " ++ trimEnd text))

/-- The script compiles. -/
def success (name : String) : Output :=
  .say ["\nSTATUS: ok (" ++ name ++ ")"]

/-- An environment with its parameters and commands. -/
def environmentLines (e : Environment) : Written (List String) := do
  let parameters := ", ".intercalate (e.parameters.map (· ++ ":"))
  let commands ← e.capabilities.mapM fun c => do
    pure ("  " ++ c.name ++ "/" ++ (← Number.intText c.arity))
  pure (["\n" ++ e.id, "  parameters: " ++ orDash (some parameters)]
    ++ (if commands.isEmpty then ["  (no commands)"] else commands))

/-- All environments of a catalogue. -/
def environments (c : Catalogue) : Written Output := do
  pure (.say (← c.environments.mapM environmentLines).flatten)

/-- A failure with a title, details and advice; empty advice is left out. -/
def failure (title message : String) (details : List String) (advice : String) : Output :=
  .warn <|
    ["\nERROR: " ++ title, message] ++ details.map ("  " ++ ·)
      ++ (if advice = "" then [] else ["\n" ++ advice])

/-- A failure in a word.  Where failures are traced and nothing was being handled, there is no
trace to show. -/
def exception (traced : Bool) (message : String) : Output :=
  .warn [if traced then "NoneType: None" else "Error: " ++ message]

/-- What is shown only where failures are traced. -/
def trace (traced : Bool) (message : String) : Output :=
  if traced then .warn ["[DEBUG] " ++ message] else .empty

end GradingScript.Report
