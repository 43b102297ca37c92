import GradingScript.Number.Basic

/-!
# Terms

A script is read into terms, and its variables are bound to terms.  Some terms are plain data: nil,
booleans, numbers, strings and lists of terms.  The others are nodes, which stand at a line of the
script: literals, names, atoms, lists, keyword arguments and the statements.  One type holds both,
because a variable may be bound to a node, a node may hold data in the place of a node, and a
rejected term of any kind is shown in an error.
-/

namespace GradingScript

/-- A datum or a node. -/
inductive Term where
  | nil
  | bool (value : Bool)
  | number (value : Number)
  | string (value : String)
  | list (items : List Term)
  /-- A datum as it stands in a script. -/
  | literal (value : Term) (line : Int)
  /-- A bare name, which stands for a variable. -/
  | identifier (name : String) (line : Int)
  /-- A symbol `:name`. -/
  | atom (name : String) (line : Int)
  /-- A list `[item, ...]` as it stands in a script. -/
  | listNode (items : List Term) (line : Int)
  /-- An argument `key: value`. -/
  | keyword (key : String) (value : Term) (line : Int)
  /-- A statement `@name arg, ...`, which sets a field of the configuration. -/
  | directive (name : String) (line : Int) (args : List Term)
  /-- A statement `name = value`. -/
  | assignment (name : String) (value : Term) (line : Int)
  /-- A statement `name arg, ...`. -/
  | call (name : String) (line : Int) (args : List Term)
  /-- A statement `keyword "label" do ... end`. -/
  | block (label : String) (line : Int) (children : List Term) (keyword : String)
  deriving Repr, Inhabited

namespace Term

/-- The line of a node, and 0 for plain data. -/
def line : Term → Int
  | .nil | .bool _ | .number _ | .string _ | .list _ => 0
  | .literal _ line | .identifier _ line | .atom _ line | .listNode _ line => line
  | .keyword _ _ line | .directive _ line _ | .assignment _ _ line => line
  | .call _ line _ | .block _ line _ _ => line

mutual

/-- The datum that a literal or a list of literals stands for.  Other terms stand for
themselves. -/
def plain : Term → Term
  | .literal value _ => value
  | .listNode items _ => .list (plainAll items)
  | t => t

/-- `plain` on every term of a list. -/
def plainAll : List Term → List Term
  | [] => []
  | t :: ts => t.plain :: plainAll ts

end

theorem plainAll_eq_map (ts : List Term) : plainAll ts = ts.map plain := by
  induction ts with
  | nil => rfl
  | cons t ts ih => simp [plainAll, ih]

@[simp] theorem plain_literal (value : Term) (line : Int) :
    plain (.literal value line) = value := by
  simp [plain]

@[simp] theorem plain_listNode (items : List Term) (line : Int) :
    plain (.listNode items line) = .list (items.map plain) := by
  simp [plain, plainAll_eq_map]

/-- The datum with the other sign.  A boolean counts as one or zero; other data than that and
numbers have no sign. -/
def neg? : Term → Option Term
  | .number value => some (.number value.neg)
  | .bool value => some (.number (.int (if value then -1 else 0)))
  | _ => none

/-- Whether a term is an argument with a key. -/
def isKeyword : Term → Bool
  | .keyword .. => true
  | _ => false

end Term

end GradingScript
