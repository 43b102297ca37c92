import GradingScript.Term.Basic

/-!
# Tokens

A token is a lexeme with the line that it begins on and the text that it was read from.  A lexeme
that stands for a datum says of which kind it is, and in a token that was read from a text the
datum is of that kind.  A token that was made otherwise may pair any kind with any datum.
-/

namespace GradingScript

/-- The punctuation marks. -/
inductive Mark where
  | at
  | equals
  | comma
  | minus
  | openParen
  | closeParen
  | openBracket
  | closeBracket
  deriving DecidableEq, Repr

namespace Mark

/-- The character that a mark is written with. -/
def char : Mark → Char
  | .at => '@'
  | .equals => '='
  | .comma => ','
  | .minus => '-'
  | .openParen => '('
  | .closeParen => ')'
  | .openBracket => '['
  | .closeBracket => ']'

/-- The mark that a character writes. -/
def ofChar? : Char → Option Mark
  | '@' => some .at
  | '=' => some .equals
  | ',' => some .comma
  | '-' => some .minus
  | '(' => some .openParen
  | ')' => some .closeParen
  | '[' => some .openBracket
  | ']' => some .closeBracket
  | _ => none

end Mark

/-- The kinds of lexemes that stand for a datum. -/
inductive LiteralKind where
  | string
  | number
  | true
  | false
  | nil
  deriving DecidableEq, Repr

namespace LiteralKind

/-- The name of a kind. -/
def name : LiteralKind → String
  | .string => "string"
  | .number => "number"
  | .true => "true"
  | .false => "false"
  | .nil => "nil"

/-- Whether a datum is of a kind. -/
def admits : LiteralKind → Term → Bool
  | .string, .string _ => Bool.true
  | .number, .number _ => Bool.true
  | .true, .bool value => value
  | .false, .bool value => !value
  | .nil, .nil => Bool.true
  | _, _ => Bool.false

end LiteralKind

/-- What a token is. -/
inductive Lexeme where
  /-- A string, a number, or one of the words `true`, `false` and `nil`. -/
  | literal (kind : LiteralKind) (value : Term)
  | name (value : String)
  /-- A name with a colon right behind it and nothing but blanks after that. -/
  | key (name : String)
  /-- A name with a colon right before it. -/
  | atom (name : String)
  | do
  | end
  | mark (mark : Mark)
  /-- The end of a line, or a semicolon. -/
  | newline
  /-- The end of the script. -/
  | eof
  /-- A kind of token that no script has; it fits nowhere. -/
  | foreign (kind : String)
  deriving Repr

namespace Lexeme

/-- The lexeme of a string. -/
def ofString (value : String) : Lexeme :=
  .literal .string (.string value)

/-- The lexeme of a number. -/
def ofNumber (value : Number) : Lexeme :=
  .literal .number (.number value)

/-- The name of a lexeme's kind. -/
def kind : Lexeme → String
  | .literal kind _ => kind.name
  | .name _ => "name"
  | .key _ => "key"
  | .atom _ => "atom"
  | .do => "do"
  | .end => "end"
  | .mark m => m.char.toString
  | .newline => "newline"
  | .eof => "eof"
  | .foreign kind => kind

/-- Whether a lexeme's datum is of its kind. -/
def isTyped : Lexeme → Bool
  | .literal kind value => kind.admits value
  | _ => true

/-- The lexeme that a word is: one of the reserved words, or a name. -/
def ofWord : String → Lexeme
  | "true" => .literal .true (.bool true)
  | "false" => .literal .false (.bool false)
  | "nil" => .literal .nil .nil
  | "do" => .do
  | "end" => .end
  | word => .name word

@[simp] theorem isTyped_ofWord (word : String) : (ofWord word).isTyped = true := by
  unfold ofWord
  split <;> rfl

end Lexeme

/-- A lexeme in its place. -/
structure Token where
  lexeme : Lexeme
  line : Int
  text : String
  deriving Repr

namespace Token

/-- Whether a token ends a script. -/
def isEof (t : Token) : Bool :=
  match t.lexeme with
  | .eof => true
  | _ => false

theorem isEof_iff {t : Token} : t.isEof = true ↔ t.lexeme = .eof := by
  unfold isEof
  split <;> simp_all

/-- Tokens that break off without the end of a script are followed by a token that fits nowhere, in
the place of the last. -/
def closed (tokens : List Token) : List Token :=
  match tokens.getLast? with
  | some last =>
    if tokens.any isEof then tokens
    else tokens ++ [{ last with lexeme := .foreign last.lexeme.kind }]
  | none => tokens

end Token

end GradingScript
