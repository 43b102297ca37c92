import GradingScript.Environment.Basic

/-!
# Extensions of environments

A new environment is made from one that exists: it states what is different, and keeps the rest.
A capability that it defines again keeps its place among the others, and one that it defines for
the first time comes last.
-/

namespace GradingScript

/-- The image for the values of a key. -/
inductive ImageRule where
  /-- The text of the value between two texts. -/
  | around (key before after : String)
  | reject (key : String) (rejection : Rejection)
  deriving DecidableEq, Repr

namespace ImageRule

/-- The key that a rule is for. -/
def key : ImageRule → String
  | .around key .. => key
  | .reject key _ => key

/-- The image for a value. -/
def apply (value : Term) : ImageRule → Written (Except Rejection String)
  | .around _ before after => do pure (.ok (before ++ (← value.text) ++ after))
  | .reject _ rejection => pure (.error rejection)

/-- Whether a rule is for a key. -/
def isFor (rule : ImageRule) : Term → Bool
  | .string key => rule.key = key
  | _ => false

end ImageRule

/-- What a method makes of its arguments. -/
inductive MethodBody where
  /-- A shell command with the arguments behind it. -/
  | run (command : String)
  | reject (rejection : Rejection)
  deriving DecidableEq, Repr

namespace MethodBody

/-- The command for arguments. -/
def handler : MethodBody → List String → Except Rejection Command
  | .run command, args =>
    .ok (Environment.shell (command ++ String.join (args.map fun arg => " " ++ arg)))
  | .reject rejection, _ => .error rejection

end MethodBody

/-- A method of a new environment.  With an arity it is a capability; without one it can only take
the place of the handler of a capability that is inherited. -/
structure Method where
  name : String
  arity? : Option Int
  handler : List String → Except Rejection Command

/-- What a new environment states; what is missing is inherited. -/
structure Extension where
  className : String
  id? : Option String
  imageArity? : Option Int
  parameters? : Option (List String)
  /-- The first rule for a key holds; for other keys the inherited image does. -/
  imageRules : List ImageRule
  /-- The start of an image that is spelled out from all parameters, if that is how it is made. -/
  imageStart? : Option String
  methods : List Method

namespace Environment

/-- The parameters behind the start of an image. -/
def spellOut (start : String) (parameters : List Parameter) : Written String := do
  let parts ← parameters.mapM fun (key, value) => do
    pure ("/" ++ (← key.display) ++ "=" ++ (← value.text))
  pure (start ++ String.join parts)

/-- Capabilities with one more defined: in the place of the one of its name, if there is one. -/
def putCapability (c : Capability) : List Capability → List Capability
  | [] => [c]
  | old :: rest => if old.name = c.name then c :: rest else old :: putCapability c rest

/-- The capability that is put in is the one of its name, and the others stay. -/
theorem find?_putCapability (c : Capability) (name : String) (table : List Capability) :
    (putCapability c table).find? (·.name = name) =
      if c.name = name then some c else table.find? (·.name = name) := by
  induction table with
  | nil => by_cases h : c.name = name <;> simp [putCapability, h]
  | cons old rest ih =>
    by_cases h : old.name = c.name
    · by_cases h' : c.name = name <;> simp [putCapability, h, h']
    · by_cases h' : old.name = name
      · subst h'
        simp [putCapability, h, Ne.symm h]
      · simp [putCapability, h, h', ih]

/-- The method of a name; of several the last one counts. -/
def method? (methods : List Method) (name : String) : Option Method :=
  methods.reverse.find? (·.name = name)

/-- The capabilities of a new environment: the inherited ones with their newest handlers, and then
its own. -/
def extendCapabilities (inherited : List Capability) (methods : List Method) : List Capability :=
  let rebound := inherited.map fun c =>
    match method? methods c.name with
    | some method => { c with handler := method.handler }
    | none => c
  methods.foldl
    (fun table own =>
      match method? methods own.name with
      | some ⟨name, some arity, handler⟩ => putCapability ⟨name, arity, handler⟩ table
      | _ => table)
    rebound

/-- The environment that an extension makes of another. -/
def extend (e : Environment) (x : Extension) : Environment :=
  { className := x.className
    id := x.id?.getD e.id
    imageArity := x.imageArity?.getD e.imageArity
    parameters := x.parameters?.getD e.parameters
    image := fun key value =>
      match x.imageRules.find? (·.isFor key) with
      | some rule => rule.apply value
      | none => e.image key value
    imageOfAll? :=
      match x.imageStart? with
      | some start => some fun parameters => do pure (.ok (← spellOut start parameters))
      | none => e.imageOfAll?
    capabilities := extendCapabilities e.capabilities x.methods }

end Environment

end GradingScript
