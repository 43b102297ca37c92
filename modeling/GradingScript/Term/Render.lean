import GradingScript.Term.Basic
import GradingScript.Text.Quoted

/-!
# Texts of terms

A term is dumped with all of its fields, or rendered as it would stand in a script.
-/

/-!
## Dumps of terms

A dump shows every field of a term by name, as in `Call(name='f', line=2, args=())`.  It is the
form in which an error shows a statement that stands where a value should.
-/

namespace GradingScript

/-- Parts in parentheses; a single part is followed by a comma. -/
def groupText : List String → String
  | [] => "()"
  | [part] => "(" ++ part ++ ",)"
  | parts => "(" ++ ", ".intercalate parts ++ ")"

/-- A kind with named fields. -/
def recordText (kind : String) (fields : List (String × String)) : String :=
  kind ++ "(" ++ ", ".intercalate (fields.map fun (name, text) => name ++ "=" ++ text) ++ ")"

namespace Term

mutual

/-- The dump of a term. -/
def dump : Term → Written String
  | .nil => pure "None"
  | .bool value => pure (if value then "True" else "False")
  | .number value => value.text
  | .string value => pure (Text.quoted value)
  | .list items => do pure ("[" ++ ", ".intercalate (← dumpAll items) ++ "]")
  | .literal value line => do
      pure (recordText "Literal" [("value", ← value.dump), ("line", ← Number.intText line)])
  | .identifier name line => do
      pure (recordText "Identifier"
        [("name", Text.quoted name), ("line", ← Number.intText line)])
  | .atom name line => do
      pure (recordText "Atom" [("name", Text.quoted name), ("line", ← Number.intText line)])
  | .listNode items line => do
      pure (recordText "ListNode"
        [("items", groupText (← dumpAll items)), ("line", ← Number.intText line)])
  | .keyword key value line => do
      pure (recordText "Keyword"
        [("key", Text.quoted key), ("value", ← value.dump), ("line", ← Number.intText line)])
  | .directive name line args => do
      pure (recordText "Directive"
        [("name", Text.quoted name), ("line", ← Number.intText line),
          ("args", groupText (← dumpAll args))])
  | .assignment name value line => do
      pure (recordText "Assignment"
        [("name", Text.quoted name), ("value", ← value.dump), ("line", ← Number.intText line)])
  | .call name line args => do
      pure (recordText "Call"
        [("name", Text.quoted name), ("line", ← Number.intText line),
          ("args", groupText (← dumpAll args))])
  | .block label line children kind => do
      pure (recordText "Block"
        [("name", Text.quoted label), ("line", ← Number.intText line),
          ("children", groupText (← dumpAll children)), ("keyword", Text.quoted kind)])

/-- The dumps of a list of terms. -/
def dumpAll : List Term → Written (List String)
  | [] => pure []
  | t :: ts => do pure ((← t.dump) :: (← dumpAll ts))

end

/-- A string as it is, and any other term as its dump. -/
def display : Term → Written String
  | .string value => pure value
  | t => t.dump

end Term

end GradingScript

/-!
## Rendered terms

A term is rendered as it would stand in a script, for the token of an error and for the argument of
a command.  A string is bare, unless it is asked for in quotes; inside a list and behind a key it
is always in quotes.  A statement is no value and shows as its dump.
-/

namespace GradingScript.Term

mutual

/-- The text of a term, with a string in quotes if `inQuotes`. -/
def render (inQuotes : Bool) : Term → Written String
  | .nil => pure "nil"
  | .bool value => pure (if value then "true" else "false")
  | .number value => value.text
  | .string value => pure (if inQuotes then "\"" ++ value ++ "\"" else value)
  | .list items => do pure ("[" ++ ", ".intercalate (← renderItems items) ++ "]")
  | .literal value _ => value.render inQuotes
  | .identifier name _ => pure name
  | .atom name _ => pure (":" ++ name)
  | .listNode items _ => do pure ("[" ++ ", ".intercalate (← renderItems items) ++ "]")
  | .keyword key value _ => do pure (key ++ ": " ++ (← value.render true))
  | .directive name line args => dump (.directive name line args)
  | .assignment name value line => dump (.assignment name value line)
  | .call name line args => dump (.call name line args)
  | .block label line children kind => dump (.block label line children kind)

/-- The texts of the items of a list. -/
def renderItems : List Term → Written (List String)
  | [] => pure []
  | t :: ts => do pure ((← t.render true) :: (← renderItems ts))

end

/-- The text of a term with a string shown bare. -/
abbrev text (t : Term) : Written String :=
  t.render false

end GradingScript.Term
