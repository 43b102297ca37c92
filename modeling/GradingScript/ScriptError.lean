import GradingScript.Term.Render
import GradingScript.Token.Basic

/-!
# Faults of a script

A fault is the first reason why a text is no script.  It is reported with the line that it belongs
to, a description, and the token that the description speaks of.
-/

namespace GradingScript

/-- Why a text is no script. -/
inductive Fault where
  /-- No token begins with the character. -/
  | character (c : Char)
  /-- Digits that are no number, or run into a word. -/
  | number (text : String)
  /-- A string without its closing quote. -/
  | openString
  /-- A text over several lines without its closing quotes. -/
  | openHeredoc
  /-- Opening quotes with something else behind them on their line. -/
  | heredocStart
  /-- A block without its `end`. -/
  | openBlock
  /-- The script ends within a statement. -/
  | incomplete
  /-- A token stands where it does not fit. -/
  | before (text : String)
  /-- The arguments before `do` are not one string. -/
  | label (keyword : String) (args : List Term)
  /-- A datum that has no negative stands behind a minus sign, in a token that claims to be a
  number.  No text has such a token. -/
  | negation (value : Term)
  /-- There is no token, not even one for the end. -/
  | noTokens
  deriving Repr

namespace Fault

/-- What is wrong. -/
def description : Fault → String
  | .character _ => "unexpected token: "
  | .number _ => "invalid number: "
  | .openString | .openHeredoc | .openBlock => "missing terminator: "
  | .heredocStart => "heredoc start must be followed by a new line after "
  | .incomplete => "syntax error: expression is incomplete"
  | .before _ => "syntax error before: "
  | .label keyword _ => keyword ++ " name must be a string: "
  | .negation _ => "not a number: "
  | .noTokens => "no tokens"

/-- What it is wrong with. -/
def token : Fault → Written String
  | .character c => pure c.toString
  | .number text => pure text
  | .openString => pure "\""
  | .openHeredoc | .heredocStart => pure "\"\"\""
  | .openBlock => pure "end"
  | .incomplete => pure ""
  | .before text => pure text
  | .label _ [arg] => arg.text
  | .label _ args => (Term.list args).text
  | .negation value => value.text
  | .noTokens => pure ""

/-- The fault of a token that does not fit where it stands. -/
def ofToken (t : Token) : Fault :=
  match t.lexeme with
  | .eof => .incomplete
  | .newline => .before "newline"
  | lexeme => .before (if t.text = "" then lexeme.kind else t.text)

end Fault

/-- A fault and its line. -/
structure ScriptError where
  line : Int
  fault : Fault
  deriving Repr

namespace ScriptError

/-- The error of a token that does not fit where it stands. -/
def unexpected (t : Token) : ScriptError :=
  ⟨t.line, .ofToken t⟩

/-- The error on one line of text. -/
def message (e : ScriptError) : Written String := do
  pure ("line " ++ (← Number.intText e.line) ++ ": " ++ e.fault.description ++ (← e.fault.token))

end ScriptError

end GradingScript
