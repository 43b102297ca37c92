import GradingScript.Configuration
import GradingScript.Text.Quoted

/-!
# Configurations as JSON

A configuration is written as a JSON object with its fields in a fixed order, one element to a line,
each indented by the same number of spaces more than what it stands in.  An empty array is closed
on its line, and characters beyond ASCII are written as escapes of UTF-16 units.
-/

namespace GradingScript.Report

/-- What a configuration is made of when it is written. -/
inductive Json where
  | null
  | bool (value : Bool)
  /-- A number, by its text. -/
  | number (text : String)
  | string (value : String)
  | array (items : List Json)
  | object (fields : List (String × Json))
  deriving Repr

namespace Json

/-- The escape of a UTF-16 unit. -/
def unitEscape (unit : Nat) : List Char :=
  '\\' :: 'u' :: Text.hex 4 unit

/-- How a character stands in a string. -/
def escapeChar (c : Char) : List Char :=
  if c = '"' then ['\\', '"']
  else if c = '\\' then ['\\', '\\']
  else if c = '\n' then ['\\', 'n']
  else if c = '\r' then ['\\', 'r']
  else if c = '\t' then ['\\', 't']
  else if c = '\x0c' then ['\\', 'f']
  else if c = '\x08' then ['\\', 'b']
  else if 0x20 ≤ c.toNat ∧ c.toNat < 0x7F then [c]
  else if c.toNat < 0x10000 then unitEscape c.toNat
  else
    unitEscape (0xD800 + (c.toNat - 0x10000) / 0x400)
      ++ unitEscape (0xDC00 + (c.toNat - 0x10000) % 0x400)

/-- A string between quotes. -/
def stringText (text : String) : String :=
  String.ofList ('"' :: text.toList.flatMap escapeChar ++ ['"'])

/-- A line break, and the indentation of what stands so deep. -/
def lineBreak (indent depth : Nat) : String :=
  String.ofList ('\n' :: List.replicate (indent * depth) ' ')

mutual

/-- The text of a value that stands so deep. -/
def text (indent depth : Nat) : Json → String
  | .null => "null"
  | .bool value => if value then "true" else "false"
  | .number text => text
  | .string value => stringText value
  | .array [] => "[]"
  | .array items =>
    "[" ++ ",".intercalate (itemTexts indent (depth + 1) items) ++ lineBreak indent depth ++ "]"
  | .object [] => "\x7b\x7d"
  | .object fields =>
    "\x7b" ++ ",".intercalate (fieldTexts indent (depth + 1) fields) ++ lineBreak indent depth
      ++ "\x7d"

/-- The items of an array, each behind a line break. -/
def itemTexts (indent depth : Nat) : List Json → List String
  | [] => []
  | item :: items =>
    (lineBreak indent depth ++ item.text indent depth) :: itemTexts indent depth items

/-- The fields of an object, each behind a line break. -/
def fieldTexts (indent depth : Nat) : List (String × Json) → List String
  | [] => []
  | (name, value) :: fields =>
    (lineBreak indent depth ++ stringText name ++ ": " ++ value.text indent depth)
      :: fieldTexts indent depth fields

end

/-- A string, or null if it is missing. -/
def optional : Option String → Json
  | some text => .string text
  | none => .null

/-- A list of strings. -/
def strings (texts : List String) : Json :=
  .array (texts.map .string)

/-- A command. -/
def ofCommand (c : Command) : Json :=
  .object [("kind", .string c.kind), ("args", strings c.args)]

/-- A step. -/
def ofStep (s : Step) : Json :=
  .object [("name", .string s.name), ("commands", .array (s.commands.map ofCommand))]

/-- The text of a number; not a number and the infinities have names. -/
def numberText : Number → Written String
  | .real .nan => pure "NaN"
  | .real (.infinity negative) => pure (if negative then "-Infinity" else "Infinity")
  | n => n.text

/-- A configuration. -/
def ofConfiguration (c : Configuration) : Written Json := do
  let grade ←
    match c.grade with
    | some grade => do pure (Json.number (← numberText grade))
    | none => pure .null
  pure (.object
    [ ("image", optional c.image)
    , ("environment", optional c.environment)
    , ("required_files", strings c.requiredFiles)
    , ("allowed_file_extensions", strings c.allowedExtensions)
    , ("grade", grade)
    , ("network_access", .bool c.networkAccess)
    , ("steps", .array (c.steps.map ofStep)) ])

end Json

end GradingScript.Report
