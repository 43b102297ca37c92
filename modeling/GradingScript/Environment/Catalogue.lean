import GradingScript.Environment.Extension

/-!
# The catalogue of environments

A script chooses its environment by id from a catalogue.  An environment that is registered under
an id that is taken comes in the place of the other.  The standard catalogue holds the built-in
environments.
-/

/-!
## The built-in environments

Any image at all, the Elixir images with the helpers of its build tool, and the Java images.
-/

namespace GradingScript.Environment

/-- `repository:version-variant`; the version is a string or a number. -/
def versionedImage (repository variant : String) : Term → Written (Except Rejection String)
  | .string version => pure (.ok (repository ++ ":" ++ version ++ "-" ++ variant))
  | .number version => do
    pure (.ok (repository ++ ":" ++ (← version.text) ++ "-" ++ variant))
  | value => do pure (.error ⟨"unsupported image version: ", ← value.text⟩)

/-- The image that a script names itself. -/
def namedImage : Term → Written (Except Rejection String)
  | .string image => pure (.ok image)
  | value => do pure (.error ⟨"unsupported image: ", ← value.text⟩)

/-- An environment with one parameter. -/
def single (className id key : String) (image : Term → Written (Except Rejection String))
    (capabilities : List Capability) : Environment :=
  { base with
    className := className
    id := id
    parameters := [key]
    image := fun
      | .string k, value =>
        if k = key then image value else pure (.error (unknownParameter (.string k)))
      | k, _ => pure (.error (unknownParameter k))
    capabilities := capabilities }

/-- Runs in any image. -/
def custom : Environment :=
  single "CustomEnvironment" "custom" "image" namedImage []

/-- The first argument; a handler is never called without the arguments that its arity counts. -/
def firstArg (args : List String) : String :=
  args.headD ""

/-- Formats a file. -/
def mixFormat : Capability :=
  ⟨"format", 1, fun args => .ok (shell ("mix format " ++ firstArg args))⟩

/-- Shows the help of the build tool. -/
def mixHelp : Capability :=
  ⟨"help", 0, fun _ => .ok (shell "mix help")⟩

/-- Makes a project and empties it. -/
def createProject : Capability :=
  ⟨"create_project", 1, fun args =>
    let name := firstArg args
    .ok (shell ("mix new " ++ name ++ "\n"
      ++ "rm " ++ name ++ "/lib/*.ex " ++ name ++ "/test/*_test.ex\n"))⟩

/-- Tests a project. -/
def testProject : Capability :=
  ⟨"test", 1, fun args => .ok (shell ("cd " ++ firstArg args ++ "\nmix test\n"))⟩

/-- Runs Elixir. -/
def elixir : Environment :=
  single "ElixirEnvironment" "elixir" "version" (versionedImage "elixir" "alpine")
    [mixFormat, mixHelp, createProject, testProject]

/-- Runs Java. -/
def java : Environment :=
  single "JavaEnvironment" "java" "version" (versionedImage "openjdk" "slim") []

end GradingScript.Environment

/-! ## Catalogues -/

namespace GradingScript

/-- The environments that scripts can choose, in the order in which their ids were registered. -/
structure Catalogue where
  environments : List Environment
  /-- No id is taken twice. -/
  nodup : (environments.map (·.id)).Nodup

namespace Catalogue

/-- No environments. -/
def empty : Catalogue :=
  ⟨[], List.nodup_nil⟩

/-- The environments with one more. -/
def put (e : Environment) : List Environment → List Environment
  | [] => [e]
  | old :: rest => if old.id = e.id then e :: rest else old :: put e rest

/-- A new id comes last, and one that is taken keeps its place. -/
theorem ids_put (e : Environment) (es : List Environment) :
    (put e es).map (·.id) =
      if e.id ∈ es.map (·.id) then es.map (·.id) else es.map (·.id) ++ [e.id] := by
  induction es with
  | nil => simp [put]
  | cons old rest ih =>
    by_cases h : old.id = e.id
    · simp [put, h]
    · simp only [put, h, if_false, List.map_cons, List.mem_cons, Ne.symm h, false_or, ih]
      split <;> simp

theorem nodup_ids_put {e : Environment} {es : List Environment} (h : (es.map (·.id)).Nodup) :
    ((put e es).map (·.id)).Nodup := by
  rw [ids_put]
  split
  · exact h
  · next hnew => grind [List.nodup_append]

/-- The environment of an id is the one that is put in last under it. -/
theorem find?_put (e : Environment) (id : String) (es : List Environment) :
    (put e es).find? (·.id = id) = if e.id = id then some e else es.find? (·.id = id) := by
  induction es with
  | nil => by_cases h : e.id = id <;> simp [put, h]
  | cons old rest ih =>
    by_cases h : old.id = e.id
    · by_cases h' : e.id = id <;> simp [put, h, h']
    · by_cases h' : old.id = id
      · subst h'
        simp [put, h, Ne.symm h]
      · simp [put, h, h', ih]

/-- Registers an environment under its id, which it must have. -/
def register (c : Catalogue) (e : Environment) : Option Catalogue :=
  if e.id = "" then none else some ⟨put e c.environments, nodup_ids_put c.nodup⟩

/-- Why an environment cannot be registered. -/
def noIdMessage (e : Environment) : String :=
  e.className ++ " has no id"

/-- The environment of an id. -/
def get? (c : Catalogue) (id : String) : Option Environment :=
  c.environments.find? (·.id = id)

/-- The ids, in order. -/
def ids (c : Catalogue) : List String :=
  c.environments.map (·.id)

/-- The built-in environments. -/
def standard : Catalogue :=
  ⟨[.custom, .elixir, .java], by decide⟩

end Catalogue

end GradingScript
