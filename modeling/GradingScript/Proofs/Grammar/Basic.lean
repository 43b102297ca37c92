import GradingScript.Script

/-!
# The grammar of scripts

The grammar says which lists of tokens spell which terms, without saying how they are read:

* a value is a string, a number with or without a minus sign, a boolean, nil, an atom, a name, or
  a list in brackets;
* an argument is a value, perhaps behind a key; in brackets and parentheses line feeds may stand
  around it, and the last one may be followed by a comma;
* a statement is a directive, an assignment, a call, a block, or a value that no name begins;
* statements are separated by line feeds, and a block holds statements as the script does.

Every node stands on the line of the first token that spells it.  Repetitions grow at their end, so
a derivation follows the order in which tokens arrive.
-/

namespace GradingScript.Grammar

/-- Any number of line feeds. -/
def Newlines (ts : List Token) : Prop :=
  ∀ t ∈ ts, t.lexeme = .newline

@[simp] theorem newlines_nil : Newlines [] := by
  simp [Newlines]

theorem Newlines.append {ts us : List Token} (hts : Newlines ts) (hus : Newlines us) :
    Newlines (ts ++ us) := by
  intro t ht
  rcases List.mem_append.1 ht with ht | ht
  · exact hts t ht
  · exact hus t ht

theorem newlines_singleton {t : Token} (ht : t.lexeme = .newline) : Newlines [t] := by
  simp [Newlines, ht]

/-- Whether the first token is a name. -/
def StartsWithName (ts : List Token) : Prop :=
  ∃ t ∈ ts.head?, ∃ name, t.lexeme = .name name

mutual

/-- A value: `STRING | NUMBER | true | false | nil | '-' NUMBER | ATOM | NAME | '[' seq ']'`. -/
inductive Value : List Token → Term → Prop
  | literal {t : Token} {kind : LiteralKind} {value : Term}
      (ht : t.lexeme = .literal kind value) : Value [t] (.literal value t.line)
  | negative {minus t : Token} {value negated : Term} (hminus : minus.lexeme = .mark .minus)
      (ht : t.lexeme = .literal .number value) (hneg : value.neg? = some negated) :
      Value [minus, t] (.literal negated minus.line)
  | atom {t : Token} {name : String} (ht : t.lexeme = .atom name) : Value [t] (.atom name t.line)
  | name {t : Token} {name : String} (ht : t.lexeme = .name name) :
      Value [t] (.identifier name t.line)
  | list {opening closing : Token} {ts : List Token} {items : List Term}
      (hopening : opening.lexeme = .mark .openBracket) (hitems : Enclosed ts items)
      (hclosing : closing.lexeme = .mark .closeBracket) :
      Value (opening :: ts ++ [closing]) (.listNode items opening.line)

/-- An argument: `KEY value | value`. -/
inductive Argument : List Token → Term → Prop
  | keyword {t : Token} {key : String} {ts : List Token} {value : Term}
      (ht : t.lexeme = .key key) (hvalue : Value ts value) :
      Argument (t :: ts) (.keyword key value t.line)
  | value {ts : List Token} {value : Term} (hvalue : Value ts value) : Argument ts value

/-- The items of a closed sequence: `arg NL* (',' NL* arg NL*)*`. -/
inductive Items : List Token → List Term → Prop
  | one {ts nls : List Token} {arg : Term} (harg : Argument ts arg) (hnls : Newlines nls) :
      Items (ts ++ nls) [arg]
  | more {ts nls us nls' : List Token} {comma : Token} {args : List Term} {arg : Term}
      (hargs : Items ts args) (hcomma : comma.lexeme = .mark .comma) (hnls : Newlines nls)
      (harg : Argument us arg) (hnls' : Newlines nls') :
      Items (ts ++ comma :: nls ++ us ++ nls') (args ++ [arg])

/-- What stands in brackets or parentheses:
`seq = NL* [arg NL* (',' NL* arg NL*)* [',' NL*]]`. -/
inductive Enclosed : List Token → List Term → Prop
  | empty {nls : List Token} (hnls : Newlines nls) : Enclosed nls []
  | items {nls ts : List Token} {args : List Term} (hnls : Newlines nls) (hargs : Items ts args) :
      Enclosed (nls ++ ts) args
  | trailing {nls ts nls' : List Token} {comma : Token} {args : List Term} (hnls : Newlines nls)
      (hargs : Items ts args) (hcomma : comma.lexeme = .mark .comma) (hnls' : Newlines nls') :
      Enclosed (nls ++ ts ++ comma :: nls') args

end

/-- Arguments without parentheses: `arg (',' NL* arg)*`. -/
inductive Bare : List Token → List Term → Prop
  | one {ts : List Token} {arg : Term} (harg : Argument ts arg) : Bare ts [arg]
  | more {ts nls us : List Token} {comma : Token} {args : List Term} {arg : Term}
      (hargs : Bare ts args) (hcomma : comma.lexeme = .mark .comma) (hnls : Newlines nls)
      (harg : Argument us arg) : Bare (ts ++ comma :: nls ++ us) (args ++ [arg])

/-- The arguments of a directive, a call or a block: none, `'(' seq ')'`, or bare ones. -/
inductive Arguments : List Token → List Term → Prop
  | none : Arguments [] []
  | parens {opening closing : Token} {ts : List Token} {args : List Term}
      (hopening : opening.lexeme = .mark .openParen) (hargs : Enclosed ts args)
      (hclosing : closing.lexeme = .mark .closeParen) : Arguments (opening :: ts ++ [closing]) args
  | bare {ts : List Token} {args : List Term} (hargs : Bare ts args) : Arguments ts args

mutual

/-- A statement: `'@' NAME args | NAME '=' value | NAME args | NAME args 'do' body 'end'`, where the
arguments before `do` are one string, or a value that no name begins. -/
inductive Statement : List Token → Term → Prop
  | directive {at' name : Token} {n : String} {ts : List Token} {args : List Term}
      (hat : at'.lexeme = .mark .at) (hname : name.lexeme = .name n) (hargs : Arguments ts args) :
      Statement (at' :: name :: ts) (.directive n at'.line args)
  | assignment {name equals : Token} {n : String} {ts : List Token} {value : Term}
      (hname : name.lexeme = .name n) (hequals : equals.lexeme = .mark .equals)
      (hvalue : Value ts value) : Statement (name :: equals :: ts) (.assignment n value name.line)
  | call {name : Token} {n : String} {ts : List Token} {args : List Term}
      (hname : name.lexeme = .name n) (hargs : Arguments ts args) :
      Statement (name :: ts) (.call n name.line args)
  | block {name opening closing : Token} {n label : String} {line : Int} {ts us : List Token}
      {children : List Term} (hname : name.lexeme = .name n)
      (hlabel : Arguments ts [.literal (.string label) line]) (hopening : opening.lexeme = .do)
      (hchildren : Body us children) (hclosing : closing.lexeme = .end) :
      Statement (name :: ts ++ opening :: us ++ [closing]) (.block label name.line children n)
  | value {ts : List Token} {value : Term} (hvalue : Value ts value)
      (hname : ¬ StartsWithName ts) : Statement ts value

/-- Statements that line feeds separate: `stmt (NL+ stmt)*`. -/
inductive Lines : List Token → List Term → Prop
  | one {ts : List Token} {statement : Term} (hstatement : Statement ts statement) :
      Lines ts [statement]
  | more {ts nls us : List Token} {statements : List Term} {statement : Term}
      (hlines : Lines ts statements) (hnls : Newlines nls) (hne : nls ≠ [])
      (hstatement : Statement us statement) : Lines (ts ++ nls ++ us) (statements ++ [statement])

/-- What a block and a script consist of: `NL* [stmt (NL+ stmt)* NL*]`. -/
inductive Body : List Token → List Term → Prop
  | empty {nls : List Token} (hnls : Newlines nls) : Body nls []
  | lines {nls ts nls' : List Token} {statements : List Term} (hnls : Newlines nls)
      (hlines : Lines ts statements) (hnls' : Newlines nls') : Body (nls ++ ts ++ nls') statements

end

/-- Tokens spell a script: its body, and the token that ends it. -/
inductive Spells : List Token → Script → Prop
  | mk {ts : List Token} {eof : Token} {script : Script} (hbody : Body ts script)
      (heof : eof.lexeme = .eof) : Spells (ts ++ [eof]) script

/-- The last token, and no other, ends the script. -/
def Terminated (ts : List Token) : Prop :=
  ∃ body eof, ts = body ++ [eof] ∧ eof.lexeme = .eof ∧ ∀ t ∈ body, t.lexeme ≠ .eof

/-!
## Derivations that grow at the front

Repetitions may also grow at the front, as a text does that is read or written piece by piece from
where it stands.
-/

/-! ### Arguments -/

theorem Bare.cons {ts us : List Token} {comma : Token} {arg : Term} {args : List Term}
    (harg : Argument ts arg) (hcomma : comma.lexeme = .mark .comma) (hargs : Bare us args) :
    Bare (ts ++ comma :: us) (arg :: args) := by
  induction hargs with
  | one hlast => simpa using Bare.more (.one harg) hcomma newlines_nil hlast
  | more _ hcomma' hnls hlast ih => simpa using Bare.more ih hcomma' hnls hlast

/-- Bare arguments may stand in brackets as they are. -/
theorem Bare.items {ts : List Token} {args : List Term} (h : Bare ts args) : Items ts args := by
  induction h with
  | one harg => simpa using Items.one harg newlines_nil
  | more _ hcomma hnls harg ih => simpa using Items.more ih hcomma hnls harg newlines_nil

theorem Bare.enclosed {ts : List Token} {args : List Term} (h : Bare ts args) :
    Enclosed ts args :=
  .items newlines_nil h.items

/-! ### Statements -/

theorem Lines.cons {ts nls us : List Token} {statement : Term} {statements : List Term}
    (hstatement : Statement ts statement) (hnls : Newlines nls) (hne : nls ≠ [])
    (hlines : Lines us statements) : Lines (ts ++ nls ++ us) (statement :: statements) := by
  cases hlines with
  | one hlast => exact .more (.one hstatement) hnls hne hlast
  | @more us nls' vs statements last hbefore hnls' hne' hlast =>
      have hfront := Lines.cons hstatement hnls hne hbefore
      simpa using Lines.more hfront hnls' hne' hlast
termination_by statements.length

theorem Body.statement {ts : List Token} {statement : Term} (h : Statement ts statement) :
    Body ts [statement] := by
  simpa using Body.lines newlines_nil (.one h) newlines_nil

theorem Body.newline {nl : Token} {ts : List Token} {statements : List Term}
    (hnl : nl.lexeme = .newline) (h : Body ts statements) : Body (nl :: ts) statements := by
  cases h with
  | empty hnls => exact .empty ((newlines_singleton hnl).append hnls)
  | lines hnls hlines hnls' => exact .lines ((newlines_singleton hnl).append hnls) hlines hnls'

theorem Body.cons {ts us : List Token} {nl : Token} {statement : Term} {statements : List Term}
    (hstatement : Statement ts statement) (hnl : nl.lexeme = .newline)
    (h : Body us statements) : Body (ts ++ nl :: us) (statement :: statements) := by
  cases h with
  | empty hnls =>
      exact .lines newlines_nil (.one hstatement) ((newlines_singleton hnl).append hnls)
  | @lines nls us nls' statements hnls hlines hnls' =>
      have hfront := Lines.cons hstatement ((newlines_singleton hnl).append hnls) (by simp) hlines
      simpa using Body.lines newlines_nil hfront hnls'

/-- A value that is no name does not begin with one. -/
theorem Value.not_startsWithName {ts : List Token} {value : Term} (h : Value ts value)
    (hname : ∀ name line, value ≠ .identifier name line) : ¬ StartsWithName ts := by
  rintro ⟨t, ht, name, hlexeme⟩
  cases h with
  | name ht' => exact hname _ _ rfl
  | _ =>
      cases ht
      simp_all

end GradingScript.Grammar
