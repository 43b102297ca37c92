import GradingScript.Proofs.Grammar.FirstRefusal
import GradingScript.Proofs.Grammar.Values
import GradingScript.Proofs.Token.Lines

/-!
# Lines of statements and errors

Every statement stands on the line of its first token, so the lines of statements, and of the
statements in a block behind that of the block, come in the order in which the tokens come.  An
error stands on the line of a token too, and what it shows does not tell which.
-/

namespace GradingScript

/-- The lines on which a statement is reported: its own, and in a block those of the statements that
stand in it directly. -/
def Term.reportLines : Term → List Int
  | .block _ line children _ => line :: children.map Term.line
  | t => [t.line]

namespace Grammar

/-! ## First tokens -/

theorem Value.line {ts : List Token} {value : Term} (h : Value ts value) :
    ts.head?.map Token.line = some value.line := by
  cases h <;> rfl

theorem Statement.line {ts : List Token} {statement : Term} (h : Statement ts statement) :
    ts.head?.map Token.line = some statement.line := by
  cases h with
  | value hvalue => exact hvalue.line
  | _ => rfl

/-- The line of a statement is among those of its tokens. -/
theorem Statement.line_sublist {ts : List Token} {statement : Term} (h : Statement ts statement) :
    [statement.line].Sublist (ts.map Token.line) := by
  have hline : statement.line ∈ (ts.map Token.line).head? := by
    rw [List.head?_map, h.line]
    rfl
  simpa using List.mem_of_mem_head? hline

/-! ## Sequences of statements -/

/-- What is collected from the lines of each statement comes in the order of the tokens. -/
theorem Lines.flatMap_sublist {f : Term → List Int} {ts : List Token} {statements : List Term}
    (h : Lines ts statements)
    (hf : ∀ us statement, Statement us statement → (f statement).Sublist (us.map Token.line)) :
    (statements.flatMap f).Sublist (ts.map Token.line) := by
  cases h with
  | one hstatement => simpa using hf _ _ hstatement
  | @more ts nls us statements statement hlines hnls hne hstatement =>
      have hpos : 0 < nls.length := List.length_pos_iff.2 hne
      have hbefore := hlines.flatMap_sublist hf
      have hall := hbefore.append (hf _ _ hstatement)
      rw [List.flatMap_append, List.flatMap_singleton, List.map_append, List.map_append]
      exact hall.trans ((List.sublist_append_left _ _).append_right _)
termination_by ts.length

theorem Body.flatMap_sublist {f : Term → List Int} {ts : List Token} {statements : List Term}
    (h : Body ts statements)
    (hf : ∀ us statement, Statement us statement → (f statement).Sublist (us.map Token.line)) :
    (statements.flatMap f).Sublist (ts.map Token.line) := by
  cases h with
  | empty hnls => exact List.nil_sublist _
  | lines hnls hlines hnls' =>
      rw [List.map_append, List.map_append, List.append_assoc]
      refine (hlines.flatMap_sublist hf).trans ?_
      exact (List.sublist_append_left _ _).trans (List.sublist_append_right _ _)

theorem Statement.reportLines_sublist {ts : List Token} {statement : Term}
    (h : Statement ts statement) : statement.reportLines.Sublist (ts.map Token.line) := by
  have hline := h.line_sublist
  cases h with
  | @block name opening closing n label line ts us children hname hlabel hopening hchildren =>
      have hinside : (children.map Term.line).Sublist (us.map Token.line) := by
        rw [List.map_eq_flatMap]
        exact hchildren.flatMap_sublist fun _ _ h => h.line_sublist
      -- The statements of the block stand between its `do` and its `end`.
      have hmiddle : (us.map Token.line).Sublist
          ((ts ++ opening :: us ++ [closing]).map Token.line) := by
        simp only [List.map_append, List.map_cons]
        exact ((List.sublist_cons_self _ _).trans (List.sublist_append_right _ _)).trans
          (List.sublist_append_left _ _)
      exact (hinside.trans hmiddle).cons_cons name.line
  | value hvalue hname => cases hvalue <;> exact hline
  | directive => exact hline
  | assignment => exact hline
  | call => exact hline

/-- The lines of a script come in the order of its tokens. -/
theorem Spells.reportLines_sublist {ts : List Token} {script : Script} (h : Spells ts script) :
    (script.flatMap Term.reportLines).Sublist (ts.map Token.line) := by
  cases h with
  | mk hbody heof =>
      rw [List.map_append]
      exact (hbody.flatMap_sublist fun _ _ h => h.reportLines_sublist).trans
        (List.sublist_append_left _ _)

/-! ## Errors -/

/-- An error stands on the line of a token. -/
theorem Refusal.exists_line {ts : List Token} {e : ScriptError} (h : Refusal ts e) :
    ∃ t ∈ ts, e.line = t.line := by
  cases h with
  | @unexpected t ht => exact ⟨t, ht, rfl⟩
  | @label before name n args hbefore hhead =>
      obtain ⟨os, us, blocks, statements, rfl, -, -, -⟩ := hhead
      exact ⟨name, hbefore.subset (by simp), rfl⟩
  | @openBlock before opening hbefore hblock =>
      obtain ⟨os, vs, name, n, label, line, statements, rfl, -, -, -⟩ := hblock
      exact ⟨opening, hbefore.subset (by simp), rfl⟩

end Grammar

/-!
## What errors show

An error of the reader shows a token, or the arguments that stand in the place of a label.  Neither
tells on which line it stands: the arguments are values, and only the text of a statement has lines
in it.
-/

theorem Fault.mapLines_ofToken (f : Int → Int) (t : Token) :
    (Fault.ofToken t).mapLines f = Fault.ofToken t := by
  unfold Fault.ofToken
  split <;> rfl

theorem Fault.token_mapLines_label {keyword : String} {args : List Term} (f : Int → Int)
    (h : ∀ arg ∈ args, arg.isValue = true) :
    ((Fault.label keyword args).mapLines f).token = (Fault.label keyword args).token := by
  have hshow : ∀ arg ∈ args, arg.ShowsNoLines := fun arg harg =>
    Term.showsNoLines_of_isValue (h arg harg)
  cases args with
  | nil => rfl
  | cons arg args =>
      cases args with
      | nil => exact hshow arg (by simp) f false
      | cons arg' args =>
          have hitems := Term.renderItems_mapLines hshow f
          simp only [Fault.mapLines, Fault.token, List.map_cons, Term.text, Term.render] at hitems ⊢
          rw [hitems]

/-- What the error of tokens shows does not tell on which lines they stand. -/
theorem Script.token_mapLines_of_ofTokens {ts : List Token} {e : ScriptError}
    (hend : Grammar.Terminated ts) (htyped : ∀ t ∈ ts, t.lexeme.isTyped = true)
    (herror : Script.ofTokens ts = .error e) (f : Int → Int) :
    (e.fault.mapLines f).token = e.fault.token := by
  -- Only the arguments before a `do` are terms that an error shows.
  cases Grammar.refusal_of_ofTokens hend htyped herror with
  | unexpected => rw [ScriptError.unexpected, Fault.mapLines_ofToken]
  | label hbefore hhead =>
      obtain ⟨os, us, blocks, statements, rfl, -, -, hargs⟩ := hhead
      exact Fault.token_mapLines_label f
        (hargs.holds Term.inherited_isValue Term.negatable_isValue fun u hu =>
          Lexeme.holds_isValue (htyped u (hbefore.subset (by simp [hu]))))
  | openBlock => rfl

end GradingScript
