import GradingScript.Text.CharClass
import GradingScript.Text.Lines
import GradingScript.Token.Numeral

/-!
# The tokens of a text

A text falls into pieces: the spans of its tokens, and between them blanks, comments, and line
feeds hidden by a backslash.  Which piece begins a text depends on nothing before it.  The tokens
are the lexemes of the pieces, each on the line that its piece begins on, and the end of the script
after them.  A fault belongs to the line on which the faulty piece begins.
-/

/-!
## Quoted strings

A string stands between double quotes, where a backslash announces a special character and hides a
line feed, or over several lines between triple quotes, whose last line tells how far the others
are indented.
-/

namespace GradingScript.Quote

/-- The character that a letter behind a backslash stands for. -/
def unescape : Char → Char
  | 'n' => '\n'
  | 't' => '\t'
  | 'r' => '\r'
  | 's' => ' '
  | '0' => '\x00'
  | c => c

/-- Reads a string behind its opening quote: its value and how many characters it takes, closing
quote included.  There is none if the closing quote is missing. -/
def read : List Char → Option (List Char × Nat)
  | [] => none
  | '"' :: _ => some ([], 1)
  | '\\' :: '\n' :: cs => (read cs).map fun (value, more) => (value, more + 2)
  | '\\' :: c :: cs => (read cs).map fun (value, more) => (unescape c :: value, more + 2)
  | c :: cs => (read cs).map fun (value, more) => (c :: value, more + 1)

/-- How many characters stand before the first triple quote, if there is one. -/
def tripleQuote? : List Char → Option Nat
  | '"' :: '"' :: '"' :: _ => some 0
  | _ :: cs => (tripleQuote? cs).map (· + 1)
  | [] => none

/-- A line without the indentation.  A line that is not indented as far loses the blanks that it
begins with. -/
def unindent (indentation line : List Char) : List Char :=
  if indentation.isPrefixOf line then line.drop indentation.length
  else line.dropWhile Text.isBlank

/-- The text that lines between triple quotes stand for.  The last line, which the closing quotes
stand on, is the indentation if it is blank, and is a line of the text if not; every line of the
text ends in a line feed. -/
def blockText (body : List Char) : List Char :=
  let lines := Text.lines body
  let last := lines.getLastD []
  if Text.isBlankLine last then
    lines.dropLast.flatMap fun line => unindent last line ++ ['\n']
  else
    lines.flatMap fun line => line ++ ['\n']

end GradingScript.Quote

/-! ## Pieces -/

namespace GradingScript

/-- The piece that begins a text: the token that it is, if it is one, and how many characters it
takes after the first. -/
structure Piece where
  lexeme? : Option Lexeme
  /-- The text of the token. -/
  text : String
  more : Nat
  deriving Repr

namespace Piece

/-- A piece that is no token. -/
def gap (more : Nat) : Piece :=
  ⟨none, "", more⟩

/-- A piece whose token is written as the piece is. -/
def plain (lexeme : Lexeme) (first : Char) (cs : List Char) (more : Nat) : Piece :=
  ⟨some lexeme, String.ofList (first :: cs.take more), more⟩

/-- A character that a name begins with. -/
def startsName (c : Char) : Bool :=
  c.isAlpha || c = '_'

/-- How many characters continue a name: letters, digits and underscores, and a question or
exclamation mark at the end. -/
def nameLength (cs : List Char) : Nat :=
  let word := (cs.takeWhile fun c => c.isAlphanum || c = '_').length
  match cs.drop word with
  | '?' :: _ | '!' :: _ => word + 1
  | _ => word

/-- Whether a colon behind a name makes it a key: only blanks or the end may follow. -/
def closesKey : List Char → Bool
  | [] => true
  | c :: _ => c = ' ' || c = '\t' || c = '\r' || c = '\n'

/-- A name, a reserved word or a key. -/
def readWord (first : Char) (cs : List Char) : Piece :=
  let length := nameLength cs
  let word := String.ofList (first :: cs.take length)
  match cs.drop length with
  | ':' :: rest =>
    if closesKey rest then plain (.key word) first cs (length + 1)
    else plain (.ofWord word) first cs length
  | _ => plain (.ofWord word) first cs length

/-- An atom, behind its colon. -/
def readAtom (cs : List Char) : Except Fault Piece :=
  match cs with
  | first :: rest =>
    if startsName first then
      let length := nameLength rest
      .ok (plain (.atom (String.ofList (first :: rest.take length))) ':' cs (length + 1))
    else .error (.character ':')
  | [] => .error (.character ':')

/-- A string over several lines, behind its triple quote.  Nothing but blanks may follow the
triple quote on its line. -/
def readHeredoc (cs : List Char) : Except Fault Piece :=
  let opening := (cs.takeWhile (· ≠ '\n')).length
  match cs.drop opening with
  | [] => .error .heredocStart
  | _ :: rest =>
    if Text.isBlankLine (cs.take opening) then
      match Quote.tripleQuote? rest with
      | none => .error .openHeredoc
      | some length =>
        let value := String.ofList (Quote.blockText (rest.take length))
        -- Two more quotes, the rest of the line, its line feed, the text, and three quotes.
        .ok ⟨some (.ofString value), "\"\"\"", 2 + opening + 1 + length + 3⟩
    else .error .heredocStart

/-- A string, behind its opening quote. -/
def readQuote (cs : List Char) : Except Fault Piece :=
  match cs with
  | '"' :: '"' :: rest => readHeredoc rest
  | _ =>
    match Quote.read cs with
    | some (value, more) => .ok (plain (.ofString (String.ofList value)) '"' cs more)
    | none => .error .openString

/-- Reads the piece that begins a text. -/
def read (first : Char) (cs : List Char) : Except Fault Piece :=
  match first with
  | ' ' | '\t' | '\r' => .ok (gap 0)
  | '#' => .ok (gap (cs.takeWhile (· ≠ '\n')).length)
  | '\n' | ';' => .ok (plain .newline first cs 0)
  | '"' => readQuote cs
  | ':' => readAtom cs
  | '\\' =>
    match cs with
    | '\n' :: _ => .ok (gap 1)
    | _ => .error (.character first)
  | _ =>
    if first.isDigit then do
      let (value, more) ← Numeral.read first cs
      .ok (plain (.ofNumber value) first cs more)
    else if startsName first then .ok (readWord first cs)
    else
      match Mark.ofChar? first with
      | some mark => .ok (plain (.mark mark) first cs 0)
      | none => .error (.character first)

end Piece

end GradingScript

/-! ## Scanning -/

namespace GradingScript.Token

/-- The token of a piece that begins on the given line. -/
def ofPiece? (line : Nat) (piece : Piece) : Option Token :=
  piece.lexeme?.map fun lexeme => ⟨lexeme, line, piece.text⟩

/-- The tokens of a text that begins on the given line. -/
def scan (line : Nat) : List Char → Except ScriptError (List Token)
  | [] => .ok [⟨.eof, line, ""⟩]
  | first :: cs =>
    match Piece.read first cs with
    | .error fault => .error ⟨line, fault⟩
    | .ok piece =>
      (scan (line + Text.lineFeeds (first :: cs.take piece.more)) (cs.drop piece.more)).map
        ((ofPiece? line piece).toList ++ ·)
termination_by cs => cs.length
decreasing_by
  simp only [List.length_drop, List.length_cons]
  omega

@[simp] theorem scan_nil (line : Nat) : scan line [] = .ok [⟨.eof, line, ""⟩] := by
  rw [scan]

/-- A faulty piece ends the scan on its line. -/
theorem scan_cons_error {line : Nat} {first : Char} {cs : List Char} {fault : Fault}
    (h : Piece.read first cs = .error fault) : scan line (first :: cs) = .error ⟨line, fault⟩ := by
  rw [scan, h]

/-- The scan goes on behind a piece, on the line that the piece ends on. -/
theorem scan_cons_ok {line : Nat} {first : Char} {cs : List Char} {piece : Piece}
    (h : Piece.read first cs = .ok piece) :
    scan line (first :: cs) =
      (scan (line + Text.lineFeeds (first :: cs.take piece.more)) (cs.drop piece.more)).map
        ((ofPiece? line piece).toList ++ ·) := by
  rw [scan, h]

/-- The tokens of a text, which begins on line 1. -/
def ofText (text : String) : Except ScriptError (List Token) :=
  scan 1 text.toList

end GradingScript.Token
