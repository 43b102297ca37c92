import GradingScript.Configuration
import GradingScript.Term.Render

/-!
# Environments

An environment turns the parameters of a script into the name of an image, and offers commands for
the steps: its capabilities, each under a name and with a fixed number of arguments.  It may reject
parameters and arguments.
-/

namespace GradingScript

/-- Why an environment rejects what it is given. -/
structure Rejection where
  description : String
  token : String
  deriving DecidableEq, Repr

namespace Rejection

/-- The reason with the token that it speaks of. -/
def message (r : Rejection) : String :=
  r.description ++ r.token

/-- The parameters have no shape that the environment knows. -/
def malformed : Rejection :=
  ⟨"syntax error", ""⟩

/-- The environment does not know the key of a parameter. -/
def unknownKey (key : String) : Rejection :=
  ⟨"incorrect parameter: ", key⟩

/-- The environment of an id takes another number of parameters. -/
def parameterCount (id : String) : Rejection :=
  ⟨"incorrect number of parameters for env: ", id⟩

/-- The environment offers no such command for so many arguments. -/
def unknownCommand (name : String) : Rejection :=
  ⟨"undefined function: ", name⟩

end Rejection

/-- A command that an environment offers. -/
structure Capability where
  name : String
  arity : Int
  handler : List String → Except Rejection Command

/-- A parameter: its key and its value. -/
abbrev Parameter := Term × Term

/-- An environment. -/
structure Environment where
  /-- The name of the class of environments that it belongs to. -/
  className : String
  id : String
  /-- The number of parameters that an image takes. -/
  imageArity : Int
  /-- The keys of the parameters that it knows. -/
  parameters : List String
  /-- The image for a single parameter, given by key and value. -/
  image : Term → Term → Written (Except Rejection String)
  /-- The image for the list of all parameters, if it is not that of a single one. -/
  imageOfAll? : Option (List Parameter → Written (Except Rejection String))
  capabilities : List Capability

namespace Environment

/-- A command of the shell. -/
def shell (script : String) : Command :=
  ⟨"run", [script]⟩

/-- What every environment answers to a parameter that it does not know. -/
def unknownParameter : Term → Rejection
  | .string key => if key = "" then .malformed else .unknownKey key
  | _ => .malformed

/-- The environment without an id, parameters and capabilities. -/
def base : Environment :=
  { className := "Environment"
    id := ""
    imageArity := 1
    parameters := []
    image := fun key _ => pure (.error (unknownParameter key))
    imageOfAll? := none
    capabilities := [] }

/-- Whether an image takes so many parameters. -/
def accepts (e : Environment) (count : Int) : Bool :=
  count = e.imageArity

/-- The image for all parameters.  An environment without one for the whole list expects a single
parameter. -/
def imageFor (e : Environment) (parameters : List Parameter) :
    Written (Except Rejection String) :=
  match e.imageOfAll? with
  | some image => image parameters
  | none =>
    match parameters with
    | [(key, value)] => e.image key value
    | _ => pure (.error .malformed)

/-- The image for all parameters, if there are as many as it takes. -/
def resolveImage (e : Environment) (parameters : List Parameter) :
    Written (Except Rejection String) :=
  if e.accepts parameters.length then e.imageFor parameters
  else pure (.error (.parameterCount e.id))

/-- The capability of a name. -/
def capability? (e : Environment) (name : String) : Option Capability :=
  e.capabilities.find? (·.name = name)

/-- The names of the capabilities, in order. -/
def commandNames (e : Environment) : List String :=
  e.capabilities.map (·.name)

/-- The number of arguments of a capability. -/
def arityOf? (e : Environment) (name : String) : Option Int :=
  (e.capability? name).map (·.arity)

/-- The command that a capability makes of its arguments. -/
def invoke (e : Environment) (name : String) (args : List String) : Except Rejection Command :=
  match e.capability? name with
  | some c => if c.arity = args.length then c.handler args else .error (.unknownCommand name)
  | none => .error (.unknownCommand name)

/-- The environment as its class and its id. -/
def display (e : Environment) : String :=
  "<" ++ e.className ++ " id=" ++ Text.quoted e.id ++ ">"

end Environment

end GradingScript
