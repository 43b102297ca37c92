import GradingScript.CommandLine.Discovery
import GradingScript.Number.Basic
import GradingScript.Report.Json

/-!
# The command line

Runs a command over a folder and the catalogue of environments.  The result is what is printed and
the exit code: 0 if the command succeeds, 1 if it fails, and 2 if the arguments are none.  A script
that is no UTF-8, an integer too long to be written, an unusable pattern and a path that is too long
break the command off; what was printed before stays.
-/

namespace GradingScript.CommandLine

/-!
## Arguments

The command `check` compiles a script and reports on it, `show` prints the configuration as JSON,
and `environments` lists the environments.
-/

/-- What is to be done. -/
inductive Action where
  | check (script : Option String)
  | show (script : Option String) (indent : Int)
  | environments
  deriving DecidableEq, Repr

/-- The option that names the script of a command that compiles one. -/
def Action.script? : Action → Option (Option String)
  | .check script | .show script _ => some script
  | .environments => none

/-- What is to be done, and whether failures are traced. -/
structure Request where
  traced : Bool
  action : Action
  deriving DecidableEq, Repr

/-- Options of a command, as they are written. -/
structure Options where
  script : Option String
  indent : Option String
  deriving DecidableEq, Repr

/-- The value behind the equals sign of an option `--name=value`. -/
def valueOf? (option text : String) : Option String :=
  let start := (option ++ "=").toList
  if start.isPrefixOf text.toList then some (String.ofList (text.toList.drop start.length))
  else none

/-- Reads options; the last of a kind counts.  Two hyphens end the options, and nothing may follow
them. -/
def readOptions? (o : Options) : List String → Option Options
  | [] | ["--"] => some o
  | "--script" :: value :: rest => readOptions? { o with script := some value } rest
  | "--indent" :: value :: rest => readOptions? { o with indent := some value } rest
  | arg :: rest =>
    match valueOf? "--script" arg, valueOf? "--indent" arg with
    | some value, _ => readOptions? { o with script := some value } rest
    | none, some value => readOptions? { o with indent := some value } rest
    | none, none => none

/-- Reads a command with its options.  Only JSON is indented, by two spaces if nothing else is asked
for. -/
def readAction? : List String → Option Action
  | "check" :: rest =>
    match readOptions? ⟨none, none⟩ rest with
    | some ⟨script, none⟩ => some (.check script)
    | _ => none
  | "show" :: rest =>
    match readOptions? ⟨none, none⟩ rest with
    | some ⟨script, some indent⟩ => (Number.readInt? indent).map (.show script)
    | some ⟨script, none⟩ => some (.show script 2)
    | none => none
  | "environments" :: rest =>
    match readOptions? ⟨none, none⟩ rest with
    | some ⟨none, none⟩ => some .environments
    | _ => none
  | _ => none

/-- Reads all arguments.  Two hyphens may stand between the options before a command and the
command. -/
def Request.ofArguments? : List String → Option Request
  | "--debug" :: rest => (Request.ofArguments? rest).map fun r => { r with traced := true }
  | "--" :: rest => (readAction? rest).map fun action => ⟨false, action⟩
  | args => (readAction? args).map fun action => ⟨false, action⟩

/-! ## Commands -/

/-- What breaks a command off. -/
inductive Abort where
  /-- The bytes of a script are no UTF-8. -/
  | encoding
  /-- An integer cannot be written. -/
  | unwritable
  /-- The pattern for scripts cannot be used. -/
  | pattern (error : Glob.PatternError)
  /-- The path of a script is too long. -/
  | tooLong
  deriving DecidableEq, Repr

/-- What the user is told when a command is broken off. -/
def Abort.message : Abort → String
  | .encoding => "the script is not encoded in UTF-8"
  | .unwritable => "an integer is too long to be written"
  | .pattern _ => "the pattern for scripts cannot be used"
  | .tooLong => "the path of the script is too long"

/-- What a command leaves behind. -/
structure Run where
  exitCode : Nat
  output : Output
  abort : Option Abort
  deriving DecidableEq, Repr

namespace Run

/-- A command that comes to its end. -/
def done (exitCode : Nat) (output : Output) : Run :=
  ⟨exitCode, output, none⟩

/-- A command that is broken off. -/
def aborted (output : Output) (abort : Abort) : Run :=
  ⟨1, output, some abort⟩

/-- A command that goes on, behind some output, with what can be written. -/
def after (output : Output) (next : Written Run) : Run :=
  match next with
  | .ok run => { run with output := output ++ run.output }
  | .error _ => aborted output .unwritable

end Run

/-- Why nothing can be read where a path leads. -/
inductive Unreadable where
  | folder
  | path (error : PathError)
  deriving DecidableEq, Repr

/-- The message about a path where nothing can be read. -/
def Unreadable.message (path : Path) : Unreadable → String
  | .folder => "[Errno 21] Is a directory: " ++ Text.quoted path.text
  | .path .missing => "[Errno 2] No such file or directory: " ++ Text.quoted path.text
  | .path .tooLong => "[Errno 36] File name too long: " ++ Text.quoted path.text

/-- The bytes of the file that a path leads to. -/
def read (folder : Folder) (path : Path) : Except Unreadable ByteArray :=
  match folder.get path with
  | .ok (.file bytes) => .ok bytes
  | .ok .folder => .error .folder
  | .error e => .error (.path e)

/-- The text of a script: its bytes in UTF-8, with every line ended by a line feed. -/
def decode? (bytes : ByteArray) : Option String :=
  (String.fromUTF8? bytes).map fun text => String.ofList (Text.withLineFeeds text.toList)

/-- Ends a command whose script has problems. -/
def fail (errors : List Diagnostic) : Written Run := do
  pure (.done 1 (← Report.failed errors))

/-- Compiles the text of a script, after it has been announced, and goes on with the outcome. -/
def compileScript (catalogue : Catalogue) (traced : Bool) (path : Path) (text : String)
    (announce : Nat → Output) (next : Configuration → Written Run) : Run :=
  match Script.ofText text with
  | .error e =>
    .after .empty do
      let note := "syntax error in " ++ path.text ++ ": " ++ (← e.message)
      let outcome ← Outcome.ofScriptError e
      pure (.after (Report.trace traced note) (fail outcome.errors))
  | .ok script =>
    .after (announce script.length) do
      let outcome ← compile catalogue script
      let count := String.ofList (Digits.ofNat outcome.errors.length)
      let note := count ++ " error(s) in " ++ path.text
      pure (.after (Report.trace traced note)
        (match outcome.unwrap with
          | .ok configuration => next configuration
          | .error errors => fail errors))

/-- Finds a script, reads it and goes on with its text, or reports why it cannot be read. -/
def withScript (settings : Settings) (folder : Folder) (script : Option String)
    (unreadable : Path → String → Output) (next : Path → String → Run) : Run :=
  match settings.discover folder script with
  | .error (.pattern e) => .aborted .empty (.pattern e)
  | .error .tooLong => .aborted .empty .tooLong
  | .error e => .done 1 (e.report settings)
  | .ok path =>
    match read folder path with
    | .ok bytes =>
      match decode? bytes with
      | some text => next path text
      | none => .aborted .empty .encoding
    | .error e => .done 1 (unreadable path (e.message path))

/-- Compiles a script and reports on it. -/
def check (settings : Settings) (catalogue : Catalogue) (folder : Folder) (traced : Bool)
    (script : Option String) : Run :=
  withScript settings folder script
    (fun path message =>
      Report.failure "Failed to read script" ("Could not read " ++ path.text) [message] "")
    fun path text =>
      compileScript catalogue traced path text
        (fun count => Report.started path.name (String.ofList (Digits.ofNat count)))
        fun configuration => do
          pure (.done 0 ((← Report.configuration configuration) ++ Report.success path.name))

/-- Prints the configuration of a script as JSON. -/
def showJson (settings : Settings) (catalogue : Catalogue) (folder : Folder) (traced : Bool)
    (script : Option String) (indent : Int) : Run :=
  withScript settings folder script
    (fun _ message => Report.exception false message)
    fun path text =>
      compileScript catalogue traced path text
        (fun _ => .empty)
        fun configuration => do
          let json ← Report.Json.ofConfiguration configuration
          pure (.done 0 (.say [json.text indent.toNat 0]))

/-- The path of the file that a command reads, if it reads one. -/
def scriptPath? (settings : Settings) (folder : Folder) (args : List String) : Option Path := do
  let request ← Request.ofArguments? args
  let path ← (settings.discover folder (← request.action.script?)).toOption
  (read folder path).toOption.map fun _ => path

/-- How the command is used. -/
def usage : String :=
  "Usage: autocheck [--debug] check [--script FILE] | show [--script FILE] [--indent N] | "
    ++ "environments"

/-- Runs a command. -/
def run (settings : Settings) (catalogue : Catalogue) (folder : Folder) (args : List String) :
    Run :=
  match Request.ofArguments? args with
  | none => .done 2 (.warn [usage])
  | some ⟨traced, .check script⟩ => check settings catalogue folder traced script
  | some ⟨traced, .show script indent⟩ =>
    showJson settings catalogue folder traced script indent
  | some ⟨_, .environments⟩ =>
    .after .empty do pure (.done 0 (← Report.environments catalogue))

end GradingScript.CommandLine
