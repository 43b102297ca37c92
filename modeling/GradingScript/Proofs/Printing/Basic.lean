import GradingScript.Script

/-!
# Printed scripts

A script is printed statement by statement, each on lines of its own: a directive as `@name args`,
a call as `name args`, an assignment as `name = value`, a block as `keyword "label" do`, its
statements and `end`.  Arguments are separated by a comma and a blank, with parentheses around them
or without; a list stands in brackets.  Strings are escaped no more than needed, and integers are
decimal.

Not every term has a text.  Names have to be written as names, and the words that the language
reserves can be keys and atoms but nothing else; an integer has at most as many digits as are read
back; and every part has to stand where the language allows it.  Lines are not printed.
-/

namespace GradingScript

namespace Printing

/-- The words that are not free to be names. -/
def reservedWords : List String :=
  ["true", "false", "nil", "do", "end"]

/-- What follows the first character of a name: `[A-Za-z0-9_]*[?!]?`. -/
def continuesName : List Char → Bool
  | [] => true
  | ['?'] | ['!'] => true
  | c :: cs => (c.isAlphanum || c = '_') && continuesName cs

/-- A name: `[A-Za-z_][A-Za-z0-9_]*[?!]?`. -/
def isName (name : String) : Bool :=
  match name.toList with
  | [] => false
  | first :: cs => (first.isAlpha || first = '_') && continuesName cs

/-- A name that is no reserved word. -/
def isFreeName (name : String) : Bool :=
  isName name && !reservedWords.contains name

/-- A character of a string, behind a backslash if it would end the string or escape another. -/
def escaped (c : Char) : List Char :=
  if c = '\\' ∨ c = '"' then ['\\', c] else [c]

/-- A string in double quotes. -/
def quoted (value : String) : String :=
  String.ofList ('"' :: value.toList.flatMap escaped ++ ['"'])

/-- Where a term stands. -/
inductive Role where
  | value
  | argument
  | statement
  deriving DecidableEq, Repr

/-- How arguments stand behind their head: in parentheses or bare, and behind a blank or not. -/
structure Layout where
  inParens : Bool
  afterBlank : Bool
  deriving DecidableEq, Repr

/-- Arguments behind their head.  Bare arguments always stand behind a blank, if there are any. -/
def Layout.arrange (layout : Layout) (isEmpty : Bool) (args : String) : String :=
  match layout.inParens, layout.afterBlank with
  | true, true => " (" ++ args ++ ")"
  | true, false => "(" ++ args ++ ")"
  | false, true => " " ++ args
  | false, false => if isEmpty then "" else " " ++ args

end Printing

namespace Term

open Printing

/-- Whether a datum can be written: a string, a boolean, nil, or an integer that is not too long. -/
def isWritableDatum : Term → Bool
  | .string _ | .bool _ | .nil => true
  | .number (.int i) => Number.isShort i
  | _ => false

mutual

/-- Whether a term can be written where it stands. -/
def isWritable (role : Role) : Term → Bool
  | .literal value _ => value.isWritableDatum
  | .identifier name _ => role ≠ .statement && isFreeName name
  | .atom name _ => isName name
  | .listNode items _ => areWritable .argument items
  | .keyword key value _ => role = .argument && isName key && isWritable .value value
  | .directive name _ args => role = .statement && isFreeName name && areWritable .argument args
  | .assignment name value _ => role = .statement && isFreeName name && isWritable .value value
  | .call name _ args => role = .statement && isFreeName name && areWritable .argument args
  | .block _ _ children kind =>
    role = .statement && isFreeName kind && areWritable .statement children
  | _ => false

/-- Whether all terms of a list can be written where they stand. -/
def areWritable (role : Role) : List Term → Bool
  | [] => true
  | t :: ts => isWritable role t && areWritable role ts

end

/-- The text of a datum. -/
def printDatum : Term → String
  | .string value => quoted value
  | .number (.int i) => Digits.ofInt i
  | .bool value => if value then "true" else "false"
  | .nil => "nil"
  | _ => ""

mutual

/-- The text of a term.  The layout of a head's arguments is chosen for each statement. -/
def print (layout : Term → Layout) : Term → String
  | .literal value _ => value.printDatum
  | .identifier name _ => name
  | .atom name _ => ":" ++ name
  | .listNode items _ => "[" ++ printItems layout items ++ "]"
  | .keyword key value _ => key ++ ": " ++ print layout value
  | .directive name line args =>
    "@" ++ name ++
      (layout (.directive name line args)).arrange args.isEmpty (printItems layout args)
  | .assignment name value _ => name ++ " = " ++ print layout value
  | .call name line args =>
    name ++ (layout (.call name line args)).arrange args.isEmpty (printItems layout args)
  | .block label _ children kind =>
    kind ++ " " ++ quoted label ++ " do\n" ++ printLines layout true children ++ "end"
  | _ => ""

/-- Terms with a comma and a blank between them. -/
def printItems (layout : Term → Layout) : List Term → String
  | [] => ""
  | [t] => print layout t
  | t :: ts => print layout t ++ ", " ++ printItems layout ts

/-- Statements on lines of their own, with a line feed behind the last one or without. -/
def printLines (layout : Term → Layout) (closed : Bool) : List Term → String
  | [] => ""
  | [t] => print layout t ++ if closed then "\n" else ""
  | t :: ts => print layout t ++ "\n" ++ printLines layout closed ts

end

end Term

/-- The text of a script. -/
def Script.print (layout : Term → Printing.Layout) (closed : Bool) (script : Script) : String :=
  Term.printLines layout closed script

end GradingScript
