import GradingScript.Proofs.Grammar.Reading
import GradingScript.Proofs.Token.Lines

/-!
# Reading on other lines, behind other statements

A reader that has other statements before those of its script, and whose tokens stand on other
lines, does what the reader of the script alone does: it reads the same terms on those lines, and
gives the same errors there.  Only the statements of the script itself lie behind the others, so a
block that is opened starts anew, and one that is closed comes to lie behind them.
-/

namespace GradingScript

/-! ## Places on other lines -/

def Head.mapLines (f : Int → Int) (head : Head) : Head :=
  ⟨head.isDirective, head.name, f head.line⟩

def Target.mapLines (f : Int → Int) : Target → Target
  | .statement => .statement
  | .assignment name line => .assignment name (f line)

/-- The key of an argument on another line. -/
def mapKey (f : Int → Int) : Option Key → Option Key
  | none => none
  | some (key, line) => some (key, f line)

def Sequence.mapLines (f : Int → Int) : Sequence → Sequence
  | .bare head => .bare (head.mapLines f)
  | .parens head => .parens (head.mapLines f)
  | .list target line => .list (target.mapLines f) (f line)
  | .inner outer before key line =>
    .inner (outer.mapLines f) (before.map (Term.mapLines f)) (mapKey f key) (f line)

def Slot.mapLines (f : Int → Int) : Slot → Slot
  | .whole target => .whole (target.mapLines f)
  | .argument sequence before key =>
    .argument (sequence.mapLines f) (before.map (Term.mapLines f)) (mapKey f key)

def Place.mapLines (f : Int → Int) : Place → Place
  | .start => .start
  | .ended => .ended
  | .directive line => .directive (f line)
  | .headed head => .headed (head.mapLines f)
  | .argument sequence before => .argument (sequence.mapLines f) (before.map (Term.mapLines f))
  | .between sequence before => .between (sequence.mapLines f) (before.map (Term.mapLines f))
  | .value slot => .value (slot.mapLines f)
  | .negative line slot => .negative (f line) (slot.mapLines f)
  | .complete head args => .complete (head.mapLines f) (args.map (Term.mapLines f))

@[simp] theorem Head.statement_mapLines (f : Int → Int) (head : Head) (args : List Term) :
    (head.mapLines f).statement (args.map (Term.mapLines f)) =
      (head.statement args).mapLines f := by
  obtain ⟨isDirective, name, line⟩ := head
  cases isDirective <;> simp [Head.statement, Head.mapLines, Term.mapLines]

@[simp] theorem withKey_mapLines (f : Int → Int) (key : Option Key) (value : Term) :
    withKey (mapKey f key) (value.mapLines f) = (withKey key value).mapLines f := by
  cases key <;> simp [withKey, mapKey, Term.mapLines]

@[simp] theorem Sequence.closing_mapLines (f : Int → Int) (sequence : Sequence) :
    (sequence.mapLines f).closing = sequence.closing := by
  cases sequence <;> rfl

@[simp] theorem Sequence.isClosedBy_mapLines (f : Int → Int) (sequence : Sequence)
    (lexeme : Lexeme) :
    (sequence.mapLines f).isClosedBy (lexeme.mapLines f) = sequence.isClosedBy lexeme := by
  cases sequence <;> cases lexeme <;> rfl

@[simp] theorem Slot.list_mapLines (f : Int → Int) (line : Int) (slot : Slot) :
    (slot.mapLines f).list (f line) = (slot.list line).mapLines f := by
  cases slot <;> rfl

/-! ## The reader behind other statements -/

/-- What lies behind other statements: the statements of the script, but not those of a block. -/
def below (others : List Term) : List OpenBlock → List Term
  | [] => others
  | _ :: _ => []

/-- Open blocks on other lines, the outermost of which lies behind other statements. -/
def OpenBlock.behind (others : List Term) (f : Int → Int) : List OpenBlock → List OpenBlock
  | [] => []
  | b :: outer =>
    ⟨b.keyword, b.label, f b.line, f b.opened,
      b.before.map (Term.mapLines f) ++ below others outer⟩ :: behind others f outer

namespace Reader

/-- The reader on other lines, behind other statements, of which the last comes first. -/
def behind (others : List Term) (f : Int → Int) (r : Reader) : Reader :=
  ⟨OpenBlock.behind others f r.blocks, r.statements.map (Term.mapLines f) ++ below others r.blocks,
    r.place.mapLines f⟩

variable (others : List Term) (f : Int → Int) (r : Reader)

@[simp] theorem place_behind : (r.behind others f).place = r.place.mapLines f := rfl

@[simp] theorem goto_behind (place : Place) :
    (r.behind others f).goto (place.mapLines f) = (r.goto place).behind others f := rfl

@[simp] theorem push_behind (statement : Term) :
    (r.behind others f).push (statement.mapLines f) = (r.push statement).behind others f := rfl

@[simp] theorem fill_behind (slot : Slot) (value : Term) :
    (r.behind others f).fill (slot.mapLines f) (value.mapLines f) =
      (r.fill slot value).behind others f := by
  cases slot with
  | whole target =>
      cases target with
      | statement => rfl
      | assignment name line => exact push_behind others f r (.assignment name value line)
  | argument sequence before key =>
      simp only [fill, Slot.mapLines, withKey_mapLines]
      exact goto_behind others f r (.between sequence (withKey key value :: before))

@[simp] theorem close_behind (sequence : Sequence) (before : List Term) :
    (r.behind others f).close (sequence.mapLines f) (before.map (Term.mapLines f)) =
      (r.close sequence before).behind others f := by
  have hlist : ∀ line, Term.listNode (before.map (Term.mapLines f)).reverse (f line) =
      (Term.listNode before.reverse line).mapLines f := by
    intro line
    simp [Term.mapLines]
  cases sequence with
  | bare head => simp [close, Sequence.mapLines, ← goto_behind, Place.mapLines]
  | parens head => simp [close, Sequence.mapLines, ← goto_behind, Place.mapLines]
  | list target line =>
      simp only [close, Sequence.mapLines, hlist]
      exact fill_behind others f r (.whole target) _
  | inner outer earlier key line =>
      simp only [close, Sequence.mapLines, hlist]
      exact fill_behind others f r (.argument outer earlier key) _

/-! ## One token -/

theorem readValue_behind (slot : Slot) (t : Token) :
    (r.behind others f).readValue (slot.mapLines f) (t.mapLines f) =
      mapOutcome f (behind others f) (r.readValue slot t) := by
  obtain ⟨lexeme, line, text⟩ := t
  cases lexeme with
  | literal kind value =>
      exact congrArg Except.ok (fill_behind others f r slot (.literal value line))
  | name name => exact congrArg Except.ok (fill_behind others f r slot (.identifier name line))
  | atom name => exact congrArg Except.ok (fill_behind others f r slot (.atom name line))
  | mark m =>
      cases m with
      | openBracket =>
          have hplace : Place.argument ((slot.mapLines f).list (f line)) [] =
              (Place.argument (slot.list line) []).mapLines f := by
            simp [Place.mapLines]
          simp only [readValue, Token.mapLines, Lexeme.mapLines, hplace, goto_behind, mapOutcome_ok]
      | _ => rfl
  | _ => rfl

theorem readArgument_behind (sequence : Sequence) (before : List Term) (t : Token) :
    (r.behind others f).readArgument (sequence.mapLines f) (before.map (Term.mapLines f))
        (t.mapLines f) =
      mapOutcome f (behind others f) (r.readArgument sequence before t) := by
  have hvalue := readValue_behind others f r (.argument sequence before none) t
  obtain ⟨lexeme, line, text⟩ := t
  cases lexeme with
  | key key => rfl
  | _ => exact hvalue

theorem readEnd_behind (t : Token) :
    (r.behind others f).readEnd (t.mapLines f) =
      mapOutcome f (behind others f) (r.readEnd t) := by
  obtain ⟨lexeme, line, text⟩ := t
  cases lexeme with
  | «end» =>
      obtain ⟨blocks, statements, place⟩ := r
      cases blocks with
      | nil => rfl
      | cons b outer =>
          -- The block that is closed lies behind what lay before it when it was opened.
          simp [readEnd, behind, Token.mapLines, Lexeme.mapLines, OpenBlock.behind, below,
            Place.mapLines, Term.mapLines]
  | _ => rfl

theorem readComplete_behind (head : Head) (args : List Term) (t : Token) :
    (r.behind others f).readComplete (head.mapLines f) (args.map (Term.mapLines f)) (t.mapLines f) =
      mapOutcome f (behind others f) (r.readComplete head args t) := by
  have hend : ((r.behind others f).push
      ((head.mapLines f).statement (args.map (Term.mapLines f)))).readEnd (t.mapLines f) =
      mapOutcome f (behind others f) ((r.push (head.statement args)).readEnd t) := by
    rw [Head.statement_mapLines, push_behind, readEnd_behind]
  obtain ⟨isDirective, name, line⟩ := head
  obtain ⟨lexeme, tline, text⟩ := t
  cases lexeme with
  | «do» =>
      cases isDirective with
      | true => exact hend
      | false =>
          -- One string opens a block here as there; anything else is refused.
          cases args with
          | nil => rfl
          | cons arg args =>
              cases args with
              | cons arg' args =>
                  cases arg with
                  | literal value _ => cases value <;> rfl
                  | _ => rfl
              | nil =>
                  cases arg with
                  | literal value _ => cases value <;> rfl
                  | _ => rfl
  | _ => exact hend

theorem readHeaded_behind (head : Head) (t : Token) :
    (r.behind others f).readHeaded (head.mapLines f) (t.mapLines f) =
      mapOutcome f (behind others f) (r.readHeaded head t) := by
  have hargument := readArgument_behind others f r (.bare head) [] t
  have hcomplete := readComplete_behind others f r head [] t
  obtain ⟨isDirective, name, line⟩ := head
  obtain ⟨lexeme, tline, text⟩ := t
  cases lexeme with
  | mark m =>
      cases m with
      | openParen => rfl
      | equals =>
          cases isDirective with
          | true => exact hcomplete
          | false => rfl
      | openBracket => exact hargument
      | minus => exact hargument
      | _ => exact hcomplete
  | literal kind value => exact hargument
  | name name => exact hargument
  | key key => exact hargument
  | atom name => exact hargument
  | _ => exact hcomplete

theorem readStart_behind (t : Token) :
    (r.behind others f).readStart (t.mapLines f) =
      mapOutcome f (behind others f) (r.readStart t) := by
  have hend := readEnd_behind others f r t
  have hvalue := readValue_behind others f r (.whole .statement) t
  obtain ⟨lexeme, line, text⟩ := t
  cases lexeme with
  | newline => exact hend
  | «end» => exact hend
  | name name => rfl
  | mark m =>
      cases m with
      | «at» => rfl
      | _ => exact hvalue
  | _ => exact hvalue

variable {r}

theorem step_argument_behind {sequence : Sequence} {before : List Term} (t : Token)
    (hplace : r.place = .argument sequence before) :
    (r.behind others f).step (t.mapLines f) = mapOutcome f (behind others f) (r.step t) := by
  have hplace' : (r.behind others f).place =
      .argument (sequence.mapLines f) (before.map (Term.mapLines f)) := by
    rw [place_behind, hplace, Place.mapLines]
  by_cases hnl : t.lexeme = .newline
  · rw [step_newline_argument hplace hnl, step_newline_argument hplace' (by simp [hnl]),
      mapOutcome_ok]
  by_cases hclosing : sequence.isClosedBy t.lexeme = true
  · rw [step_closing_argument hplace hclosing, step_closing_argument hplace' (by simpa),
      close_behind, mapOutcome_ok]
  · rw [step_argument_of_not hplace hnl hclosing,
      step_argument_of_not hplace' (by simpa) (by simpa using hclosing), readArgument_behind]

theorem step_between_behind {sequence : Sequence} {before : List Term} (t : Token)
    (hplace : r.place = .between sequence before) :
    (r.behind others f).step (t.mapLines f) = mapOutcome f (behind others f) (r.step t) := by
  have hplace' : (r.behind others f).place =
      .between (sequence.mapLines f) (before.map (Term.mapLines f)) := by
    rw [place_behind, hplace, Place.mapLines]
  by_cases hcomma : t.lexeme = .mark .comma
  · rw [step_comma hplace hcomma, step_comma hplace' (by simp [hcomma]), mapOutcome_ok,
      ← goto_behind, Place.mapLines]
  -- Bare arguments, which anything but a comma ends, are read as the end of their head.
  by_cases hclosed : sequence.IsClosed
  · have hclosed' : (sequence.mapLines f).IsClosed := by
      rw [Sequence.IsClosed, Sequence.closing_mapLines]
      exact hclosed
    by_cases hnl : t.lexeme = .newline
    · rw [step_newline_between hplace hclosed hnl,
        step_newline_between hplace' hclosed' (by simp [hnl]), mapOutcome_ok]
    by_cases hclosing : sequence.isClosedBy t.lexeme = true
    · rw [step_closing_between hplace hclosing, step_closing_between hplace' (by simpa),
        close_behind, mapOutcome_ok]
    · rw [step_between_of_not hplace hclosed hcomma hnl hclosing,
        step_between_of_not hplace' hclosed' (by simpa) (by simpa) (by simpa using hclosing),
        ScriptError.unexpected_mapLines, mapOutcome_error]
  · obtain ⟨head, rfl⟩ := Sequence.eq_bare_of_not_isClosed hclosed
    have hcomplete := readComplete_behind others f r head before.reverse t
    rw [List.map_reverse] at hcomplete
    rw [step_between_bare hplace hcomma, step_between_bare hplace' (by simpa), hcomplete]

theorem step_directive_behind {line : Int} (t : Token) (hplace : r.place = .directive line) :
    (r.behind others f).step (t.mapLines f) = mapOutcome f (behind others f) (r.step t) := by
  obtain ⟨blocks, statements, place⟩ := r
  obtain ⟨lexeme, tline, text⟩ := t
  cases hplace
  cases lexeme <;> rfl

theorem step_negative_behind {line : Int} {slot : Slot} (t : Token)
    (hplace : r.place = .negative line slot) :
    (r.behind others f).step (t.mapLines f) = mapOutcome f (behind others f) (r.step t) := by
  have hplace' : (r.behind others f).place = .negative (f line) (slot.mapLines f) := by
    rw [place_behind, hplace, Place.mapLines]
  by_cases hnumber : ∃ value, t.lexeme = .literal .number value
  · obtain ⟨value, hlexeme⟩ := hnumber
    simp only [step, hplace, hplace', Token.lexeme_mapLines, hlexeme, Lexeme.mapLines,
      Term.neg?_mapLines]
    cases hneg : value.neg? with
    | none => rfl
    | some negated =>
        exact congrArg Except.ok (fill_behind others f r slot (.literal negated line))
  · obtain ⟨blocks, statements, place⟩ := r
    obtain ⟨lexeme, tline, text⟩ := t
    cases hplace
    cases lexeme with
    | literal kind value =>
        cases kind with
        | number => exact absurd ⟨value, rfl⟩ hnumber
        | _ => rfl
    | _ => rfl

/-- A token that is read is read the same on another line, behind other statements, and one that is
refused is refused the same. -/
theorem step_behind (r : Reader) (t : Token) :
    (r.behind others f).step (t.mapLines f) = mapOutcome f (behind others f) (r.step t) := by
  cases hplace : r.place with
  | argument sequence before => exact step_argument_behind others f t hplace
  | between sequence before => exact step_between_behind others f t hplace
  | negative line slot => exact step_negative_behind others f t hplace
  | directive line => exact step_directive_behind others f t hplace
  | start => simpa [step, hplace, Place.mapLines] using readStart_behind others f r t
  | ended => simpa [step, hplace, Place.mapLines] using readEnd_behind others f r t
  | headed head => simpa [step, hplace, Place.mapLines] using readHeaded_behind others f r head t
  | value slot => simpa [step, hplace, Place.mapLines] using readValue_behind others f r slot t
  | complete head args =>
      simpa [step, hplace, Place.mapLines] using readComplete_behind others f r head args t

theorem steps_behind (r : Reader) (ts : List Token) :
    (r.behind others f).steps (ts.map (Token.mapLines f)) =
      mapOutcome f (behind others f) (r.steps ts) := by
  induction ts generalizing r with
  | nil => rfl
  | cons t ts ih =>
      have hstep' := step_behind others f r t
      cases hstep : r.step t with
      | error e =>
          rw [hstep, mapOutcome_error] at hstep'
          rw [List.map_cons, steps_cons_of_error hstep', steps_cons_of_error hstep,
            mapOutcome_error]
      | ok r' =>
          rw [hstep, mapOutcome_ok] at hstep'
          rw [List.map_cons, steps_cons_of_ok hstep', steps_cons_of_ok hstep, ih]

/-! ## The end of the script -/

theorem settled?_behind (r : Reader) :
    (r.behind others f).settled? =
      r.settled?.map fun statements =>
        (below others r.blocks).reverse ++ statements.map (Term.mapLines f) := by
  obtain ⟨blocks, statements, place⟩ := r
  cases place with
  | between sequence before =>
      cases sequence with
      | bare head =>
          simp [settled?, behind, Place.mapLines, Sequence.mapLines, ← Head.statement_mapLines]
      | _ => rfl
  | headed head => simp [settled?, behind, Place.mapLines, ← Head.statement_mapLines]
  | complete head args => simp [settled?, behind, Place.mapLines, ← Head.statement_mapLines]
  | start => simp [settled?, behind, Place.mapLines]
  | ended => simp [settled?, behind, Place.mapLines]
  | _ => rfl

/-- Where a script ends alone, it ends behind other statements, and its statements follow them. -/
theorem finish_behind (r : Reader) (eof : Token) :
    (r.behind others f).finish (eof.mapLines f) =
      mapOutcome f (others.reverse ++ ·.map (Term.mapLines f)) (r.finish eof) := by
  have hsettled' := settled?_behind others f r
  cases hblocks : r.blocks with
  | nil =>
      have hblocks' : (r.behind others f).blocks = [] := by simp [behind, hblocks, OpenBlock.behind]
      simp only [finish, hblocks, hblocks', hsettled', below]
      cases r.settled? with
      | none => rw [Option.map_none, ScriptError.unexpected_mapLines, mapOutcome_error]
      | some statements => rfl
  | cons b outer =>
      obtain ⟨blocks, statements, place⟩ := r
      cases hblocks
      cases place with
      | start => rfl
      | _ => exact congrArg Except.error (ScriptError.unexpected_mapLines f eof)

end Reader

end GradingScript
