import GradingScript.ScriptError
import GradingScript.Token.Scan

/-!
# Scripts

A script is the list of its statements.  They are read token by token.  Between two tokens the
reader knows the blocks that are open, the statements read so far in the innermost of them, and the
place within the current statement.  A line feed ends a statement, except behind a comma and inside
brackets or parentheses.

A token that no script could have at its place is refused at once, so an error always tells of the
first token that cannot be read on from.
-/

namespace GradingScript

/-- The beginning of a directive or of a call. -/
structure Head where
  isDirective : Bool
  name : String
  line : Int
  deriving DecidableEq, Repr

namespace Head

/-- The statement that a head with arguments makes. -/
def statement (head : Head) (args : List Term) : Term :=
  if head.isDirective then .directive head.name head.line args
  else .call head.name head.line args

end Head

/-- What becomes of a value that is no argument. -/
inductive Target where
  /-- It is a statement by itself. -/
  | statement
  /-- It is assigned to a variable. -/
  | assignment (name : String) (line : Int)
  deriving DecidableEq, Repr

/-- The key of an argument, and its line. -/
abbrev Key := String × Int

/-- Puts the key, if there is one, before the value of an argument. -/
def withKey : Option Key → Term → Term
  | none, value => value
  | some (key, line), value => .keyword key value line

/-- An open sequence of arguments. -/
inductive Sequence where
  /-- The arguments of a head without parentheses. -/
  | bare (head : Head)
  /-- The arguments of a head in parentheses. -/
  | parens (head : Head)
  /-- A list that began on a line and is no argument. -/
  | list (target : Target) (line : Int)
  /-- A list that began on a line and is itself an argument, behind a key perhaps, of the outer
  sequence, whose earlier arguments are kept last first. -/
  | inner (outer : Sequence) (before : List Term) (key : Option Key) (line : Int)
  deriving Repr

namespace Sequence

/-- The mark that closes a sequence, if one does. -/
def closing : Sequence → Option Mark
  | .bare _ => none
  | .parens _ => some .closeParen
  | .list .. | .inner .. => some .closeBracket

/-- Whether a lexeme is the mark that closes a sequence. -/
def isClosedBy (sequence : Sequence) : Lexeme → Bool
  | .mark m => sequence.closing = some m
  | _ => false

end Sequence

/-- Where a value goes. -/
inductive Slot where
  | whole (target : Target)
  | argument (sequence : Sequence) (before : List Term) (key : Option Key)
  deriving Repr

namespace Slot

/-- The sequence of a list that stands in a slot. -/
def list (line : Int) : Slot → Sequence
  | .whole target => .list target line
  | .argument sequence before key => .inner sequence before key line

end Slot

/-- A place within a statement. -/
inductive Place where
  /-- A statement may begin. -/
  | start
  /-- A statement is complete, and its line is to end. -/
  | ended
  /-- The name of a directive is to follow. -/
  | directive (line : Int)
  /-- A head is complete, and arguments may follow. -/
  | headed (head : Head)
  /-- An argument is to follow, or the end of a closed sequence. -/
  | argument (sequence : Sequence) (before : List Term)
  /-- An argument is complete. -/
  | between (sequence : Sequence) (before : List Term)
  /-- A value is to follow. -/
  | value (slot : Slot)
  /-- A number is to follow, behind a minus sign. -/
  | negative (line : Int) (slot : Slot)
  /-- A head is complete with all of its arguments. -/
  | complete (head : Head) (args : List Term)
  deriving Repr

/-- An open block. -/
structure OpenBlock where
  keyword : String
  label : String
  line : Int
  /-- The line of its `do`. -/
  opened : Int
  /-- The statements before it, last first. -/
  before : List Term
  deriving Repr

/-- What is known between two tokens. -/
structure Reader where
  /-- The open blocks, innermost first. -/
  blocks : List OpenBlock
  /-- The statements of the innermost block, or of the script, last first. -/
  statements : List Term
  place : Place
  deriving Repr

namespace Reader

/-- Before the first token. -/
def empty : Reader :=
  ⟨[], [], .start⟩

/-- The reader at another place of the same statement. -/
def goto (r : Reader) (place : Place) : Reader :=
  { r with place := place }

/-- The reader after a statement. -/
def push (r : Reader) (statement : Term) : Reader :=
  { r with statements := statement :: r.statements, place := .ended }

/-- Puts a value where it goes. -/
def fill (r : Reader) (slot : Slot) (value : Term) : Reader :=
  match slot with
  | .whole .statement => r.push value
  | .whole (.assignment name line) => r.push (.assignment name value line)
  | .argument sequence before key => r.goto (.between sequence (withKey key value :: before))

/-- Closes a sequence whose closing mark has been read. -/
def close (r : Reader) (sequence : Sequence) (before : List Term) : Reader :=
  match sequence with
  | .bare head | .parens head => r.goto (.complete head before.reverse)
  | .list target line => r.fill (.whole target) (.listNode before.reverse line)
  | .inner outer earlier key line =>
    r.fill (.argument outer earlier key) (.listNode before.reverse line)

/-- A value, or its first token. -/
def readValue (r : Reader) (slot : Slot) (t : Token) : Except ScriptError Reader :=
  match t.lexeme with
  | .literal _ value => .ok (r.fill slot (.literal value t.line))
  | .atom name => .ok (r.fill slot (.atom name t.line))
  | .name name => .ok (r.fill slot (.identifier name t.line))
  | .mark .minus => .ok (r.goto (.negative t.line slot))
  | .mark .openBracket => .ok (r.goto (.argument (slot.list t.line) []))
  | _ => .error (.unexpected t)

/-- An argument, or its first token. -/
def readArgument (r : Reader) (sequence : Sequence) (before : List Term) (t : Token) :
    Except ScriptError Reader :=
  match t.lexeme with
  | .key key => .ok (r.goto (.value (.argument sequence before (some (key, t.line)))))
  | _ => r.readValue (.argument sequence before none) t

/-- The token behind a statement: the end of its line, or of the block that it ends. -/
def readEnd (r : Reader) (t : Token) : Except ScriptError Reader :=
  match t.lexeme with
  | .newline => .ok (r.goto .start)
  | .end =>
    match r.blocks with
    | [] => .error (.unexpected t)
    | b :: outer =>
      .ok ⟨outer, .block b.label b.line r.statements.reverse b.keyword :: b.before, .ended⟩
  | _ => .error (.unexpected t)

/-- The token behind a head with all of its arguments: `do` behind a call opens a block, whose
label is its only argument, and anything else ends the statement. -/
def readComplete (r : Reader) (head : Head) (args : List Term) (t : Token) :
    Except ScriptError Reader :=
  match t.lexeme, head.isDirective with
  | .do, false =>
    match args with
    | [.literal (.string label) _] =>
      .ok ⟨⟨head.name, label, head.line, t.line, r.statements⟩ :: r.blocks, [], .start⟩
    | _ => .error ⟨head.line, .label head.name args⟩
  | _, _ => (r.push (head.statement args)).readEnd t

/-- Whether a token may begin an argument without parentheses. -/
def startsArgument : Lexeme → Bool
  | .literal .. | .name _ | .key _ | .atom _ | .mark .openBracket | .mark .minus => true
  | _ => false

/-- The token behind a head. -/
def readHeaded (r : Reader) (head : Head) (t : Token) : Except ScriptError Reader :=
  match t.lexeme, head.isDirective with
  | .mark .openParen, _ => .ok (r.goto (.argument (.parens head) []))
  | .mark .equals, false => .ok (r.goto (.value (.whole (.assignment head.name head.line))))
  | lexeme, _ =>
    if startsArgument lexeme then r.readArgument (.bare head) [] t else r.readComplete head [] t

/-- The first token of a statement, or the end of a line or of a block. -/
def readStart (r : Reader) (t : Token) : Except ScriptError Reader :=
  match t.lexeme with
  | .newline | .end => r.readEnd t
  | .mark .at => .ok (r.goto (.directive t.line))
  | .name name => .ok (r.goto (.headed ⟨false, name, t.line⟩))
  | _ => r.readValue (.whole .statement) t

/-- Reads one token. -/
def step (r : Reader) (t : Token) : Except ScriptError Reader :=
  match r.place with
  | .start => r.readStart t
  | .ended => r.readEnd t
  | .directive line =>
    match t.lexeme with
    | .name name => .ok (r.goto (.headed ⟨true, name, line⟩))
    | _ => .error (.unexpected t)
  | .headed head => r.readHeaded head t
  | .argument sequence before =>
    match t.lexeme with
    -- Here a line feed stands behind a comma or an opening mark, and ends nothing.
    | .newline => .ok r
    | lexeme =>
      if sequence.isClosedBy lexeme then .ok (r.close sequence before)
      else r.readArgument sequence before t
  | .between sequence before =>
    match t.lexeme, sequence with
    | .mark .comma, _ => .ok (r.goto (.argument sequence before))
    -- Without a closing mark, whatever is no comma ends the arguments.
    | _, .bare head => r.readComplete head before.reverse t
    | .newline, _ => .ok r
    | lexeme, _ =>
      if sequence.isClosedBy lexeme then .ok (r.close sequence before)
      else .error (.unexpected t)
  | .value slot => r.readValue slot t
  | .negative line slot =>
    match t.lexeme with
    | .literal .number value =>
      match value.neg? with
      | some value => .ok (r.fill slot (.literal value line))
      | none => .error ⟨t.line, .negation value⟩
    | _ => .error (.unexpected t)
  | .complete head args => r.readComplete head args t

/-- The statements read, if the current one may end here. -/
def settled? (r : Reader) : Option (List Term) :=
  match r.place with
  | .start | .ended => some r.statements.reverse
  | .headed head => some (head.statement [] :: r.statements).reverse
  | .between (.bare head) before =>
    some (head.statement before.reverse :: r.statements).reverse
  | .complete head args => some (head.statement args :: r.statements).reverse
  | _ => none

/-- The script that ends here.  A block that is still open is missing its `end` where a statement
might begin; elsewhere it is the statement that the script breaks off. -/
def finish (r : Reader) (eof : Token) : Except ScriptError (List Term) :=
  match r.blocks, r.place with
  | [], _ =>
    match r.settled? with
    | some statements => .ok statements
    | none => .error (.unexpected eof)
  | b :: _, .start => .error ⟨b.opened, .openBlock⟩
  | _ :: _, _ => .error (.unexpected eof)

/-- Reads tokens up to the end of the script. -/
def run (r : Reader) : List Token → Except ScriptError (List Term)
  | [] => r.finish ⟨.eof, 0, ""⟩
  | t :: ts =>
    if t.isEof then r.finish t
    else
      match r.step t with
      | .error e => .error e
      | .ok r => r.run ts

end Reader

/-! ## Scripts from tokens and from text -/

/-- The statements of a script, in the order of the text. -/
abbrev Script := List Term

namespace Script

/-- Reads the statements that tokens spell, up to the token that ends the script. -/
def ofTokens (tokens : List Token) : Except ScriptError Script :=
  if tokens.isEmpty then .error ⟨0, .noTokens⟩ else Reader.empty.run tokens

/-- Reads the statements of a text. -/
def ofText (text : String) : Except ScriptError Script := do
  ofTokens (← Token.ofText text)

end Script

end GradingScript
