import GradingScript.Compile.State
import GradingScript.Environment.Catalogue
import GradingScript.Text.Lines

/-!
# Compiling directives

A directive sets one field of the configuration.  If it is rejected it changes nothing, except
that a list of file extensions keeps those that are valid.
-/

namespace GradingScript.Compile

/-- Whether a text is made of one or more groups of a dot and a word. -/
def isFileExtension (text : String) : Bool :=
  match Text.split '.' text.toList with
  | [] :: group :: groups => (group :: groups).all fun g => !g.isEmpty && g.all Text.isWord
  | _ => false

namespace State

/-- The values of parameters, by key; none if there is an argument without a key. -/
def parameters? (s : State) : List Term → Written (Option (List Parameter))
  | [] => pure (some [])
  | .keyword key value _ :: args => do
    let value ← s.bindings.resolve value.plain
    pure ((← s.parameters? args).map ((.string key, value) :: ·))
  | _ :: _ => pure none

/-- Sets the environment and the image. -/
def env (catalogue : Catalogue) (s : State) (line : Int) : List Term → Written State
  | [] => s.report line .noEnvironmentName
  | nameArg :: args => do
    -- The shape is checked before any value, so that a bad shape is all that is reported.
    if nameArg.isKeyword || !args.all Term.isKeyword then s.report line .malformed
    else
      let name ← s.bindings.resolve nameArg.plain
      match ← s.parameters? args with
      | none => s.report line .malformed
      | some parameters =>
        match environmentOf name with
        | none => s.report line (.unknownEnvironment (shown name nameArg.plain) catalogue.ids)
        | some e =>
          if e.accepts parameters.length then
            match ← e.resolveImage parameters with
            | .ok image =>
              pure { s with
                environment := some e
                configuration :=
                  { s.configuration with environment := some e.id, image := some image } }
            | .error rejection => s.report line (.rejected rejection)
          else s.report line (.parameterCount e.id)
where
  environmentOf : Term → Option Environment
    | .string id => catalogue.get? id
    | _ => none
  /-- A name that is no string is shown as it stands in the script. -/
  shown (name term : Term) : Term :=
    match name with
    | .string id => .string id
    | _ => term

/-- Sets the required files to the texts of the arguments. -/
def requiredFiles (s : State) (line : Int) : List Term → Written State
  | [] => s.report line (.emptyList .requiredFiles)
  | args => do
    let files ← args.mapM fun arg => arg.plain.text
    pure (s.configure fun c => { c with requiredFiles := files })

/-- The extensions among the arguments; every other argument is reported. -/
def extensions (s : State) (line : Int) : List Term → Written (State × List String)
  | [] => pure (s, [])
  | arg :: args =>
    match validExtension? arg.plain with
    | some text => do
      let (s, texts) ← s.extensions line args
      pure (s, text :: texts)
    | none => do
      let s ← s.report line (.extension arg.plain)
      s.extensions line args
where
  validExtension? : Term → Option String
    | .string text => if isFileExtension text then some text else none
    | _ => none

/-- Sets the allowed file extensions. -/
def allowedExtensions (s : State) (line : Int) : List Term → Written State
  | [] => s.report line (.emptyList .allowedExtensions)
  | args => do
    let (s, texts) ← s.extensions line args
    pure (s.configure fun c => { c with allowedExtensions := texts })

/-- The value of the argument of a directive that takes one: a name stands for the term that it is
bound to, or for nil, and placeholders are left alone. -/
def single (s : State) (arg : Term) : Term :=
  match arg.plain with
  | .identifier name _ => (s.bindings.get? name).getD .nil
  | term => term

/-- Whether a number lies outside of 0 to 1. -/
def outOfRange (grade : Number) : Bool :=
  grade.lt (.int 0) || (Number.int 1).lt grade

/-- Sets the grade. -/
def grade (s : State) (line : Int) : List Term → Written State
  | [arg] =>
    match s.single arg with
    | .number value =>
      if outOfRange value then s.report line .gradeRange
      else pure (s.configure fun c => { c with grade := some value })
    | .nil => s.report line (.gradeKind arg.plain)
    | value => s.report line (.gradeKind value)
  | _ => s.report line .malformed

/-- Allows or forbids the network. -/
def networkAccess (s : State) (line : Int) : List Term → Written State
  | [arg] =>
    match s.single arg with
    | .bool enabled => pure (s.configure fun c => { c with networkAccess := enabled })
    | _ => s.report line .networkKind
  | _ => s.report line .malformed

/-- Sets the field of a name. -/
def directive (catalogue : Catalogue) (s : State) (name : String) (line : Int)
    (args : List Term) : Written State :=
  match Field.ofName? name with
  | some .env => s.env catalogue line args
  | some .requiredFiles => s.requiredFiles line args
  | some .allowedExtensions => s.allowedExtensions line args
  | some .grade => s.grade line args
  | some .networkAccess => s.networkAccess line args
  | none => s.report line (.unknownField name)

end State

end GradingScript.Compile
