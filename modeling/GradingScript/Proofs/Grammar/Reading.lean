import GradingScript.Proofs.Grammar.Basic
import GradingScript.Proofs.Reader.Steps

/-!
# Derivations are read

Tokens that a nonterminal of the grammar derives lead the reader from the place where they may begin
to the place behind them, with the terms of the derivation.  The lemmas follow the derivation: one
for each nonterminal, from values up to whole bodies.
-/

namespace GradingScript

namespace Sequence

/-- Whether a mark closes the sequence. -/
def IsClosed (sequence : Sequence) : Prop :=
  sequence.closing ≠ none

theorem eq_bare_of_not_isClosed {sequence : Sequence} (h : ¬ sequence.IsClosed) :
    ∃ head, sequence = .bare head := by
  cases sequence with
  | bare head => exact ⟨head, rfl⟩
  | _ => simp [IsClosed, closing] at h

theorem closing_list (slot : Slot) (line : Int) :
    (slot.list line).closing = some .closeBracket := by
  cases slot <;> rfl

theorem isClosedBy_iff {sequence : Sequence} {lexeme : Lexeme} :
    sequence.isClosedBy lexeme = true ↔
      ∃ mark, sequence.closing = some mark ∧ lexeme = .mark mark := by
  cases lexeme <;> simp [isClosedBy, eq_comm]

end Sequence

namespace Reader

@[simp] theorem goto_goto (r : Reader) (p q : Place) : (r.goto p).goto q = r.goto q := rfl

@[simp] theorem goto_place (r : Reader) (p : Place) : (r.goto p).place = p := rfl

@[simp] theorem goto_blocks (r : Reader) (p : Place) : (r.goto p).blocks = r.blocks := rfl

@[simp] theorem goto_statements (r : Reader) (p : Place) :
    (r.goto p).statements = r.statements := rfl

@[simp] theorem fill_goto (r : Reader) (p : Place) (slot : Slot) (value : Term) :
    (r.goto p).fill slot value = r.fill slot value := by
  rcases slot with (_ | _) | _ <;> rfl

/-- A list that is closed fills the slot that it was opened in. -/
theorem close_list (r : Reader) (slot : Slot) (line : Int) (before : List Term) :
    r.close (slot.list line) before = r.fill slot (.listNode before.reverse line) := by
  cases slot <;> rfl

@[simp] theorem close_goto (r : Reader) (p : Place) (sequence : Sequence) (before : List Term) :
    (r.goto p).close sequence before = r.close sequence before := by
  cases sequence <;> simp [close]

/-- Where a line feed does not count, several do not. -/
theorem steps_newlines_of_idle {r : Reader} {nls : List Token} (hnls : Grammar.Newlines nls)
    (hidle : ∀ t, t.lexeme = .newline → r.step t = .ok r) : r.steps nls = .ok r := by
  induction nls with
  | nil => rfl
  | cons t ts ih =>
      rw [steps_cons_of_ok (hidle t (hnls t (by simp)))]
      exact ih fun u hu => hnls u (by simp [hu])

/-- A line feed does not count where an argument is to follow. -/
theorem step_newline_argument {r : Reader} {sequence : Sequence} {before : List Term} {t : Token}
    (hplace : r.place = .argument sequence before) (ht : t.lexeme = .newline) :
    r.step t = .ok r := by
  simp [step, hplace, ht]

theorem steps_newlines_argument {r : Reader} {sequence : Sequence} {before : List Term}
    {nls : List Token} (hplace : r.place = .argument sequence before)
    (hnls : Grammar.Newlines nls) : r.steps nls = .ok r :=
  steps_newlines_of_idle hnls fun _ ht => step_newline_argument hplace ht

/-- A line feed does not count behind an argument of a closed sequence. -/
theorem step_newline_between {r : Reader} {sequence : Sequence} {before : List Term} {t : Token}
    (hplace : r.place = .between sequence before) (hclosed : sequence.IsClosed)
    (ht : t.lexeme = .newline) : r.step t = .ok r := by
  cases sequence with
  | bare head => exact absurd rfl hclosed
  | _ => simp [step, hplace, ht]

theorem steps_newlines_between {r : Reader} {sequence : Sequence} {before : List Term}
    {nls : List Token} (hplace : r.place = .between sequence before) (hclosed : sequence.IsClosed)
    (hnls : Grammar.Newlines nls) : r.steps nls = .ok r :=
  steps_newlines_of_idle hnls fun _ ht => step_newline_between hplace hclosed ht

/-- A comma behind an argument asks for another one. -/
theorem step_comma {r : Reader} {sequence : Sequence} {before : List Term} {t : Token}
    (hplace : r.place = .between sequence before) (ht : t.lexeme = .mark .comma) :
    r.step t = .ok (r.goto (.argument sequence before)) := by
  simp [step, hplace, ht]

/-- A closing mark closes a sequence where an argument might follow. -/
theorem step_closing_argument {r : Reader} {sequence : Sequence} {before : List Term} {t : Token}
    (hplace : r.place = .argument sequence before) (ht : sequence.isClosedBy t.lexeme = true) :
    r.step t = .ok (r.close sequence before) := by
  obtain ⟨mark, -, hmark⟩ := Sequence.isClosedBy_iff.1 ht
  rw [hmark] at ht
  simp [step, hplace, hmark, ht]

/-- A closing mark closes a sequence behind an argument. -/
theorem step_closing_between {r : Reader} {sequence : Sequence} {before : List Term} {t : Token}
    (hplace : r.place = .between sequence before) (ht : sequence.isClosedBy t.lexeme = true) :
    r.step t = .ok (r.close sequence before) := by
  obtain ⟨mark, hclosing, hmark⟩ := Sequence.isClosedBy_iff.1 ht
  rw [hmark] at ht
  cases sequence with
  | bare head => cases hclosing
  | _ =>
      cases hclosing
      simp [step, hplace, hmark, ht]

/-- Behind an argument of a closed sequence nothing else is read. -/
theorem step_between_of_not {r : Reader} {sequence : Sequence} {before : List Term} {t : Token}
    (hplace : r.place = .between sequence before) (hclosed : sequence.IsClosed)
    (hcomma : t.lexeme ≠ .mark .comma) (hnl : t.lexeme ≠ .newline)
    (hclosing : sequence.isClosedBy t.lexeme ≠ true) : r.step t = .error (.unexpected t) := by
  have hnotBare : ∀ head, sequence ≠ .bare head := by
    rintro head rfl
    exact hclosed rfl
  simp only [step, hplace]
  rw [if_neg hclosing]

/-- A token behind bare arguments that is no comma ends them. -/
theorem step_between_bare {r : Reader} {head : Head} {before : List Term} {t : Token}
    (hplace : r.place = .between (.bare head) before) (hcomma : t.lexeme ≠ .mark .comma) :
    r.step t = r.readComplete head before.reverse t := by
  simp only [step, hplace]

/-- Where an argument is to follow, what ends nothing and closes nothing is read as one. -/
theorem step_argument_of_not {r : Reader} {sequence : Sequence} {before : List Term} {t : Token}
    (hplace : r.place = .argument sequence before) (hnl : t.lexeme ≠ .newline)
    (hclosing : sequence.isClosedBy t.lexeme ≠ true) :
    r.step t = r.readArgument sequence before t := by
  simp only [step, hplace]
  rw [if_neg hclosing]

/-- What begins an argument is read as one where one is to follow. -/
theorem step_argument {r : Reader} {sequence : Sequence} {before : List Term} {t : Token}
    (hplace : r.place = .argument sequence before) (ht : startsArgument t.lexeme = true) :
    r.step t = r.readArgument sequence before t := by
  refine step_argument_of_not hplace ?_ ?_
  · intro hnl
    simp [startsArgument, hnl] at ht
  · intro hclosed
    obtain ⟨mark, hmark, hlexeme⟩ := Sequence.isClosedBy_iff.1 hclosed
    rw [hlexeme] at ht
    cases sequence <;> cases hmark <;> simp [startsArgument] at ht

/-- What begins an argument is read as the first one behind a head. -/
theorem step_headed {r : Reader} {head : Head} {t : Token} (hplace : r.place = .headed head)
    (ht : startsArgument t.lexeme = true) : r.step t = r.readArgument (.bare head) [] t := by
  cases hlexeme : t.lexeme with
  | mark m => cases m <;> simp_all [step, readHeaded, startsArgument]
  | _ => simp_all [step, readHeaded]

/-- What begins no arguments and no assignment is read as the end of the arguments. -/
theorem step_headed_of_not {r : Reader} {head : Head} {t : Token} (hplace : r.place = .headed head)
    (hargument : startsArgument t.lexeme ≠ true) (hparen : t.lexeme ≠ .mark .openParen)
    (hequals : ¬ (t.lexeme = .mark .equals ∧ head.isDirective = false)) :
    r.step t = r.readComplete head [] t := by
  obtain ⟨isDirective, name, line⟩ := head
  cases hlexeme : t.lexeme with
  | mark m =>
      cases m <;> cases isDirective <;> simp_all [step, readHeaded, startsArgument]
  | _ => simp_all [step, readHeaded, startsArgument]

/-- Whether a token may begin a value. -/
def startsValue : Lexeme → Bool
  | .literal .. | .name _ | .atom _ | .mark .openBracket | .mark .minus => true
  | _ => false

theorem startsArgument_of_startsValue {lexeme : Lexeme} (h : startsValue lexeme = true) :
    startsArgument lexeme = true := by
  cases lexeme with
  | mark m => cases m <;> simp_all [startsValue, startsArgument]
  | _ => simp_all [startsValue, startsArgument]

/-- What begins a value is no key. -/
theorem readArgument_of_startsValue {r : Reader} {sequence : Sequence} {before : List Term}
    {t : Token} (ht : startsValue t.lexeme = true) :
    r.readArgument sequence before t = r.readValue (.argument sequence before none) t := by
  cases hlexeme : t.lexeme <;> simp_all [readArgument, startsValue]

/-- Tokens are read to the end if the first of them, of a kind that may begin them, is read in a
given way and the others step by step. -/
def ReadsBy (read : Token → Except ScriptError Reader) (begins : Lexeme → Bool) (ts : List Token)
    (r' : Reader) : Prop :=
  ∃ t rest next, ts = t :: rest ∧ begins t.lexeme = true ∧ read t = .ok next ∧
    next.steps rest = .ok r'

theorem ReadsBy.append {read : Token → Except ScriptError Reader} {begins : Lexeme → Bool}
    {ts us : List Token} {r' r'' : Reader} (h : ReadsBy read begins ts r')
    (hus : r'.steps us = .ok r'') : ReadsBy read begins (ts ++ us) r'' := by
  obtain ⟨t, rest, next, rfl, ht, hread, hrest⟩ := h
  exact ⟨t, rest ++ us, next, rfl, ht, hread, by rw [steps_append_of_ok hrest, hus]⟩

/-- Where the first token is read in that way, the tokens are read step by step. -/
theorem ReadsBy.steps {read : Token → Except ScriptError Reader} {begins : Lexeme → Bool}
    {ts : List Token} {r r' : Reader} (h : ReadsBy read begins ts r')
    (hstep : ∀ t, begins t.lexeme = true → r.step t = read t) : r.steps ts = .ok r' := by
  obtain ⟨t, rest, next, rfl, ht, hread, hrest⟩ := h
  rw [steps_cons_of_ok ((hstep t ht).trans hread), hrest]

end Reader

namespace Grammar

open Reader

/-! ## Values and arguments -/

mutual

/-- A value fills the slot that its first token is read for. -/
theorem Value.read {ts : List Token} {value : Term} (h : Value ts value) (r : Reader)
    (slot : Slot) : ReadsBy (r.readValue slot) startsValue ts (r.fill slot value) := by
  cases h with
  | @literal t kind value ht =>
      exact ⟨t, [], _, rfl, by simp [startsValue, ht], by simp [readValue, ht], rfl⟩
  | @negative minus t value negated hminus ht hneg =>
      refine ⟨minus, [t], r.goto (.negative minus.line slot), rfl, by simp [startsValue, hminus],
        by simp [readValue, hminus], ?_⟩
      rw [steps_singleton]
      simp [step, ht, hneg]
  | @atom t name ht =>
      exact ⟨t, [], _, rfl, by simp [startsValue, ht], by simp [readValue, ht], rfl⟩
  | @name t name ht =>
      exact ⟨t, [], _, rfl, by simp [startsValue, ht], by simp [readValue, ht], rfl⟩
  | @list opening closing ts items hopening hitems hclosing =>
      refine ⟨opening, ts ++ [closing], r.goto (.argument (slot.list opening.line) []), rfl,
        by simp [startsValue, hopening], by simp [readValue, hopening], ?_⟩
      have hclosed : (slot.list opening.line).isClosedBy closing.lexeme = true :=
        Sequence.isClosedBy_iff.2 ⟨_, Sequence.closing_list slot opening.line, hclosing⟩
      rw [hitems.read _ rfl hclosed, close_list]
      simp
termination_by 4 * ts.length + 0

/-- An argument stands behind the ones before it in its sequence. -/
theorem Argument.read {ts : List Token} {arg : Term} (h : Argument ts arg) (r : Reader)
    (sequence : Sequence) (before : List Term) :
    ReadsBy (r.readArgument sequence before) startsArgument ts
      (r.goto (.between sequence (arg :: before))) := by
  cases h with
  | @keyword t key ts value ht hvalue =>
      let slot : Slot := .argument sequence before (some (key, t.line))
      have hsteps : (r.goto (.value slot)).steps ts =
          .ok (r.goto (.between sequence (.keyword key value t.line :: before))) :=
        (hvalue.read (r.goto (.value slot)) slot).steps fun u _ => rfl
      exact ⟨t, ts, r.goto (.value slot), rfl, by simp [startsArgument, ht],
        by simp [readArgument, ht, slot], hsteps⟩
  | @value ts value hvalue =>
      obtain ⟨t, rest, next, rfl, ht, hread, hrest⟩ :=
        hvalue.read r (.argument sequence before none)
      exact ⟨t, rest, next, rfl, startsArgument_of_startsValue ht,
        (readArgument_of_startsValue ht).trans hread, hrest⟩
termination_by 4 * ts.length + 1

/-- The items of a closed sequence lead behind the last one. -/
theorem Items.read {ts : List Token} {args : List Term} (h : Items ts args) (r : Reader)
    {sequence : Sequence} (hplace : r.place = .argument sequence []) (hclosed : sequence.IsClosed) :
    r.steps ts = .ok (r.goto (.between sequence args.reverse)) := by
  cases h with
  | @one ts nls arg harg hnls =>
      have hlast : r.steps ts = .ok (r.goto (.between sequence [arg])) :=
        (harg.read r sequence []).steps fun t ht => step_argument hplace ht
      rw [steps_append_of_ok hlast, steps_newlines_between rfl hclosed hnls]
      rfl
  | @more ts nls us nls' comma args arg hargs hcomma hnls harg hnls' =>
      have hbefore := hargs.read r hplace hclosed
      have hnext : r.steps (ts ++ comma :: nls) =
          .ok (r.goto (.argument sequence args.reverse)) := by
        rw [steps_append_of_ok hbefore, steps_cons_of_ok (step_comma rfl hcomma),
          steps_newlines_argument rfl hnls, goto_goto]
      have hlast : (r.goto (.argument sequence args.reverse)).steps us =
          .ok (r.goto (.between sequence (arg :: args.reverse))) :=
        (harg.read _ sequence args.reverse).steps fun t ht => step_argument rfl ht
      rw [List.append_assoc, steps_append_of_ok hnext, steps_append_of_ok hlast,
        steps_newlines_between rfl hclosed hnls']
      simp
termination_by 4 * ts.length + 2

/-- What stands in brackets or parentheses is read up to the mark that closes them. -/
theorem Enclosed.read {ts : List Token} {args : List Term} (h : Enclosed ts args) (r : Reader)
    {sequence : Sequence} {closing : Token} (hplace : r.place = .argument sequence [])
    (hclosing : sequence.isClosedBy closing.lexeme = true) :
    r.steps (ts ++ [closing]) = .ok (r.close sequence args.reverse) := by
  have hclosed : sequence.IsClosed := by
    obtain ⟨mark, hmark, -⟩ := Sequence.isClosedBy_iff.1 hclosing
    simp [Sequence.IsClosed, hmark]
  cases h with
  | empty hnls =>
      rw [steps_concat (steps_newlines_argument hplace hnls)]
      exact step_closing_argument hplace hclosing
  | @items nls ts args hnls hargs =>
      have hread : r.steps (nls ++ ts) = .ok (r.goto (.between sequence args.reverse)) := by
        rw [steps_append_of_ok (steps_newlines_argument hplace hnls), hargs.read r hplace hclosed]
      rw [steps_concat hread, step_closing_between rfl hclosing, close_goto]
  | @trailing nls ts nls' comma args hnls hargs hcomma hnls' =>
      have hread : r.steps (nls ++ ts) = .ok (r.goto (.between sequence args.reverse)) := by
        rw [steps_append_of_ok (steps_newlines_argument hplace hnls), hargs.read r hplace hclosed]
      have hnext : r.steps (nls ++ ts ++ comma :: nls') =
          .ok (r.goto (.argument sequence args.reverse)) := by
        rw [steps_append_of_ok hread, steps_cons_of_ok (step_comma rfl hcomma),
          steps_newlines_argument rfl hnls', goto_goto]
      rw [steps_concat hnext, step_closing_argument rfl hclosing, close_goto]
termination_by 4 * ts.length + 3

end

/-! ## Heads -/

/-- Bare arguments lead behind the last one. -/
theorem Bare.read {ts : List Token} {args : List Term} (h : Bare ts args) (r : Reader)
    (head : Head) : ReadsBy (r.readArgument (.bare head) []) startsArgument ts
      (r.goto (.between (.bare head) args.reverse)) := by
  induction h with
  | one harg => exact harg.read r (.bare head) []
  | @more ts nls us comma args arg hargs hcomma hnls harg ih =>
      have hnext : (r.goto (.between (.bare head) args.reverse)).steps (comma :: nls) =
          .ok (r.goto (.argument (.bare head) args.reverse)) := by
        rw [steps_cons_of_ok (step_comma rfl hcomma), steps_newlines_argument rfl hnls, goto_goto]
      have hlast : (r.goto (.argument (.bare head) args.reverse)).steps us =
          .ok (r.goto (.between (.bare head) (arg :: args.reverse))) :=
        (harg.read _ (.bare head) args.reverse).steps fun t ht => step_argument rfl ht
      simpa using (ih.append hnext).append hlast

/-- The arguments of a head complete it. -/
theorem Arguments.read {ts : List Token} {args : List Term} (h : Arguments ts args) (r : Reader)
    {head : Head} (hplace : r.place = .headed head) :
    ∃ place, place.completed? = some (head, args) ∧ r.steps ts = .ok (r.goto place) := by
  cases h with
  | none => exact ⟨.headed head, rfl, by rw [← hplace]; rfl⟩
  | @parens opening closing ts args hopening hargs hclosing =>
      refine ⟨.complete head args, rfl, ?_⟩
      have hstep : r.step opening = .ok (r.goto (.argument (.parens head) [])) := by
        simp [step, hplace, readHeaded, hopening]
      have hclosed : (Sequence.parens head).isClosedBy closing.lexeme = true :=
        Sequence.isClosedBy_iff.2 ⟨_, rfl, hclosing⟩
      rw [List.cons_append, steps_cons_of_ok hstep, hargs.read _ rfl hclosed]
      simp [close]
  | bare hargs =>
      refine ⟨.between (.bare head) args.reverse, by simp [Place.completed?], ?_⟩
      exact (hargs.read r head).steps fun t ht => step_headed hplace ht

/-- A directive is read up to its arguments. -/
theorem steps_directive {r : Reader} {at' name : Token} {n : String} (hplace : r.place = .start)
    (hat : at'.lexeme = .mark .at) (hname : name.lexeme = .name n) :
    r.steps [at', name] = .ok (r.goto (.headed ⟨true, n, at'.line⟩)) := by
  have hstep : r.step at' = .ok (r.goto (.directive at'.line)) := by
    simp [step, hplace, readStart, hat]
  rw [steps_cons_of_ok hstep, steps_singleton]
  simp [step, hname]

/-- A call is read up to its arguments. -/
theorem step_call {r : Reader} {name : Token} {n : String} (hplace : r.place = .start)
    (hname : name.lexeme = .name n) :
    r.step name = .ok (r.goto (.headed ⟨false, n, name.line⟩)) := by
  simp [step, hplace, readStart, hname]

/-- The head of a block, its label and `do` open the block. -/
theorem steps_opening {r : Reader} {name opening : Token} {n label : String} {line : Int}
    {ts : List Token} (hplace : r.place = .start) (hname : name.lexeme = .name n)
    (hlabel : Arguments ts [.literal (.string label) line]) (hopening : opening.lexeme = .do) :
    r.steps (name :: ts ++ [opening]) =
      .ok ⟨⟨n, label, name.line, opening.line, r.statements⟩ :: r.blocks, [], .start⟩ := by
  obtain ⟨place, hcompleted, hargs⟩ := hlabel.read (r.goto (.headed ⟨false, n, name.line⟩)) rfl
  rw [List.cons_append, steps_cons_of_ok (step_call hplace hname), steps_concat hargs,
    step_of_completed hcompleted (.inr (.inl hopening))]
  simp [readComplete, hopening]

/-! ## Statements -/

/-- From one reader to another, statements have been read in the innermost block, and the last of
them may end. -/
def Adds (r r' : Reader) (statements : List Term) : Prop :=
  r'.blocks = r.blocks ∧ r'.settled? = some (r.statements.reverse ++ statements)

theorem adds_push (r : Reader) (p : Place) (statement : Term) :
    Adds r ((r.goto p).push statement) [statement] := by
  simp [Adds, push, settled?]

theorem adds_of_completed {r : Reader} {p : Place} {head : Head} {args : List Term}
    (h : p.completed? = some (head, args)) : Adds r (r.goto p) [head.statement args] := by
  refine ⟨rfl, ?_⟩
  rw [settled?_of_completed h]
  simp

/-- Line feeds lead to the next statement. -/
theorem steps_newlines {r : Reader} {statements : List Term} {nls : List Token}
    (h : r.settled? = some statements) (hnls : Newlines nls) (hne : nls ≠ []) :
    r.steps nls = .ok ⟨r.blocks, statements.reverse, .start⟩ := by
  induction nls generalizing r with
  | nil => exact absurd rfl hne
  | cons t ts ih =>
      -- The first line feed ends the statement, and the others stand on empty lines.
      have hstep := step_newline h (hnls t (by simp))
      rw [steps_cons_of_ok hstep]
      by_cases hts : ts = []
      · simp [hts]
      · exact ih (by simp [settled?]) (fun u hu => hnls u (by simp [hu])) hts

/-- Line feeds add nothing. -/
theorem Newlines.adds {nls : List Token} (hnls : Newlines nls) {r r' : Reader}
    {statements : List Term} (h : Adds r r' statements) :
    ∃ r'', r'.steps nls = .ok r'' ∧ Adds r r'' statements := by
  by_cases hne : nls = []
  · exact ⟨r', by simp [hne], h⟩
  · refine ⟨_, steps_newlines h.2 hnls hne, h.1, ?_⟩
    simp [settled?]

mutual

/-- A statement is added where one may begin. -/
theorem Statement.read {ts : List Token} {statement : Term} (h : Statement ts statement)
    (r : Reader) (hplace : r.place = .start) :
    ∃ r', r.steps ts = .ok r' ∧ Adds r r' [statement] := by
  cases h with
  | @directive at' name n ts args hat hname hargs =>
      obtain ⟨place, hcompleted, hread⟩ :=
        hargs.read (r.goto (.headed ⟨true, n, at'.line⟩)) rfl
      refine ⟨r.goto place, ?_, adds_of_completed hcompleted⟩
      have hsteps : r.steps ([at', name] ++ ts) = .ok (r.goto place) := by
        rw [steps_append_of_ok (steps_directive hplace hat hname), hread, goto_goto]
      exact hsteps
  | @assignment name equals n ts value hname hequals hvalue =>
      let slot : Slot := .whole (.assignment n name.line)
      have hstep : (r.goto (.headed ⟨false, n, name.line⟩)).step equals =
          .ok (r.goto (.value slot)) := by
        simp [step, readHeaded, hequals, slot]
      have hread : (r.goto (.value slot)).steps ts = .ok ((r.goto (.value slot)).fill slot value) :=
        (hvalue.read _ slot).steps fun t _ => rfl
      refine ⟨_, ?_, adds_push r (.value slot) (.assignment n value name.line)⟩
      rw [steps_cons_of_ok (step_call hplace hname), steps_cons_of_ok hstep, hread]
      rfl
  | @call name n ts args hname hargs =>
      obtain ⟨place, hcompleted, hread⟩ :=
        hargs.read (r.goto (.headed ⟨false, n, name.line⟩)) rfl
      refine ⟨r.goto place, ?_, adds_of_completed hcompleted⟩
      rw [steps_cons_of_ok (step_call hplace hname), hread, goto_goto]
  | @block name opening closing n label line ts us children hname hlabel hopening hchildren
      hclosing =>
      let b : OpenBlock := ⟨n, label, name.line, opening.line, r.statements⟩
      obtain ⟨inside, hread, hblocks, hsettled⟩ := hchildren.read ⟨b :: r.blocks, [], .start⟩ rfl
      have hend := step_end hsettled hclosing hblocks
      refine ⟨_, ?_, adds_push r .start (.block label name.line children n)⟩
      rw [show name :: ts ++ opening :: us ++ [closing] =
        (name :: ts ++ [opening]) ++ (us ++ [closing]) by simp,
        steps_append_of_ok (steps_opening hplace hname hlabel hopening), steps_concat hread, hend]
      rfl
  | value hvalue hname =>
      refine ⟨_, ?_, adds_push r .start _⟩
      obtain ⟨t, rest, next, rfl, ht, hread, hrest⟩ := hvalue.read r (.whole .statement)
      have hstep : r.step t = r.readValue (.whole .statement) t := by
        -- A name would be read as the head of a call.
        have hnot : ∀ name, t.lexeme ≠ .name name := fun name hlexeme =>
          hname ⟨t, rfl, name, hlexeme⟩
        cases hlexeme : t.lexeme with
        | name name => exact absurd hlexeme (hnot name)
        | mark m => cases m <;> simp_all [step, readStart, startsValue]
        | _ => simp_all [step, readStart, startsValue]
      rw [steps_cons_of_ok (hstep.trans hread), hrest]
      rfl
termination_by 3 * ts.length + 0

/-- Statements on lines of their own are added where one may begin. -/
theorem Lines.read {ts : List Token} {statements : List Term} (h : Lines ts statements)
    (r : Reader) (hplace : r.place = .start) :
    ∃ r', r.steps ts = .ok r' ∧ Adds r r' statements := by
  cases h with
  | one hstatement => exact hstatement.read r hplace
  | @more ts nls us statements statement hlines hnls hne hstatement =>
      -- The line feeds make the statements before them a shorter list of tokens.
      have hpos : 0 < nls.length := List.length_pos_iff.2 hne
      obtain ⟨r₁, hread₁, hblocks₁, hsettled₁⟩ := hlines.read r hplace
      have hnewlines := steps_newlines hsettled₁ hnls hne
      obtain ⟨r₂, hread₂, hblocks₂, hsettled₂⟩ := hstatement.read ⟨r₁.blocks, _, .start⟩ rfl
      refine ⟨r₂, ?_, hblocks₂.trans hblocks₁, ?_⟩
      · rw [List.append_assoc, steps_append_of_ok hread₁, steps_append_of_ok hnewlines, hread₂]
      · simpa using hsettled₂
termination_by 3 * ts.length + 1

/-- A body is added where a statement may begin. -/
theorem Body.read {ts : List Token} {statements : List Term} (h : Body ts statements)
    (r : Reader) (hplace : r.place = .start) :
    ∃ r', r.steps ts = .ok r' ∧ Adds r r' statements := by
  have hstart : Adds r r [] := by
    obtain ⟨blocks, before, place⟩ := r
    cases hplace
    simp [Adds, settled?]
  cases h with
  | empty hnls => exact hnls.adds hstart
  | @lines nls ts nls' statements hnls hlines hnls' =>
      have hbefore : r.steps nls = .ok r := by
        by_cases hne : nls = []
        · simp [hne]
        · rw [steps_newlines hstart.2 hnls hne, ← hstart.1]
          simp [← hplace]
      obtain ⟨r₁, hread, hadds⟩ := hlines.read r hplace
      obtain ⟨r₂, hread', hadds'⟩ := hnls'.adds hadds
      refine ⟨r₂, ?_, hadds'⟩
      rw [List.append_assoc, steps_append_of_ok hbefore, steps_append_of_ok hread, hread']
termination_by 3 * ts.length + 2

end

end Grammar

end GradingScript
