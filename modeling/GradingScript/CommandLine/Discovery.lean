import GradingScript.Folder.Glob
import GradingScript.Report.Basic

/-!
# Finding the script

A script that is named on the command line is taken from where its path leads.  Without a name the
script is the only one of those in the folder: the default script, and what fits the pattern.
-/

namespace GradingScript.CommandLine

/-- Where a script is looked for. -/
structure Settings where
  /-- The path of the default script. -/
  defaultScript : String
  /-- The pattern of the names of other scripts. -/
  pattern : String
  deriving DecidableEq, Repr

/-- Why no script is found. -/
inductive DiscoveryError where
  /-- The path leads nowhere. -/
  | noSuchScript (path : String)
  | noScript
  | manyScripts (paths : List Path)
  | pattern (error : Glob.PatternError)
  /-- The path is too long to lead anywhere. -/
  | tooLong
  deriving DecidableEq, Repr

namespace Settings

/-- The settings that a user may have changed. -/
def ofVariables (script? pattern? : Option String) : Settings :=
  { defaultScript := script?.getD "autocheck.conf"
    pattern := pattern?.getD "*.autocheck" }

/-- The paths that are looked up by name. -/
def namedPaths (s : Settings) (script : Option String) : List Path :=
  (script.toList ++ [s.defaultScript]).map Path.ofText

/-- Whether an entry stands where a path leads. -/
def isThere (f : Folder) (path : Path) : Except DiscoveryError Bool :=
  match f.has path fun _ => true with
  | .ok found => .ok found
  | .error _ => .error .tooLong

/-- The scripts of a folder in order. -/
def scripts (s : Settings) (f : Folder) : Except DiscoveryError (List Path) := do
  let default := Path.ofText s.defaultScript
  let first := if ← isThere f default then [default] else []
  match Glob.find f s.pattern with
  | .ok paths => pure ((first ++ paths.filter (· ≠ default)).mergeSort Path.le)
  | .error e => .error (.pattern e)

/-- The script to compile.  An empty path counts as none. -/
def discover (s : Settings) (f : Folder) (script : Option String) : Except DiscoveryError Path :=
  match script with
  | some path => if path = "" then only s f else named f path
  | none => only s f
where
  named (f : Folder) (path : String) : Except DiscoveryError Path := do
    if ← isThere f (Path.ofText path) then .ok (Path.ofText path)
    else .error (.noSuchScript path)
  only (s : Settings) (f : Folder) : Except DiscoveryError Path := do
    match ← s.scripts f with
    | [path] => .ok path
    | [] => .error .noScript
    | paths => .error (.manyScripts paths)

end Settings

namespace DiscoveryError

/-- How a failure to find a script is reported.  A pattern that cannot be used and a path that is
too long are not reported. -/
def report (s : Settings) : DiscoveryError → Output
  | .noSuchScript path =>
    Report.failure "Script file not found" ("Could not find script file: " ++ path) []
      ("Create a script or specify a different path:\n  autocheck check --script "
        ++ s.defaultScript)
  | .noScript =>
    Report.failure "No script file found" "Could not find any autocheck scripts."
      ["Looked for:", "  " ++ s.defaultScript, "  " ++ s.pattern]
      ("Create a script:\n  " ++ s.defaultScript
        ++ "\n\nOr specify one explicitly:\n  autocheck check --script lab1.autocheck")
  | .manyScripts paths =>
    Report.failure "Multiple script files found"
      "Found multiple autocheck scripts. Please specify which one to use:"
      ["\n".intercalate (paths.map fun p => "  " ++ p.text)]
      ("Specify a script explicitly:\n  autocheck check --script "
        ++ ((paths.head?.map Path.text).getD ""))
  | .pattern _ | .tooLong => .empty

end DiscoveryError

end GradingScript.CommandLine
