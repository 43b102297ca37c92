import GradingScript.Proofs.Reader.Steps

/-!
# Refusals

A token is refused because it does not fit where it stands, or because it is a `do` behind a call
whose arguments are not one string.  Where tokens hold the data that their kinds promise there is
no other reason.
-/

namespace GradingScript

namespace Token

/-- What an error shows of a token: its text, but a line feed and a token without a text by
kind. -/
def shown (t : Token) : String :=
  match t.lexeme with
  | .newline => "newline"
  | lexeme => if t.text = "" then lexeme.kind else t.text

end Token

theorem ScriptError.unexpected_of_ne_eof {t : Token} (ht : t.lexeme ≠ .eof) :
    ScriptError.unexpected t = ⟨t.line, .before t.shown⟩ := by
  cases hlexeme : t.lexeme <;> simp_all [ScriptError.unexpected, Fault.ofToken, Token.shown]

theorem ScriptError.unexpected_of_eof {t : Token} (ht : t.lexeme = .eof) :
    ScriptError.unexpected t = ⟨t.line, .incomplete⟩ := by
  simp [ScriptError.unexpected, Fault.ofToken, ht]

namespace Reader

/-- Why a token is refused: it does not fit, or it is a `do` behind a call without a label. -/
def Refuses (r : Reader) (t : Token) (e : ScriptError) : Prop :=
  e = .unexpected t ∨
    t.lexeme = .do ∧ ∃ head args, r.place.completed? = some (head, args) ∧
      head.isDirective = false ∧ e = ⟨head.line, .label head.name args⟩

theorem eq_unexpected_of_readValue {r : Reader} {slot : Slot} {t : Token} {e : ScriptError}
    (h : r.readValue slot t = .error e) : e = .unexpected t := by
  cases hlexeme : t.lexeme with
  | mark m => cases m <;> simp_all [readValue]
  | _ => simp_all [readValue]

theorem eq_unexpected_of_readArgument {r : Reader} {sequence : Sequence} {before : List Term}
    {t : Token} {e : ScriptError} (h : r.readArgument sequence before t = .error e) :
    e = .unexpected t := by
  cases hlexeme : t.lexeme with
  | key key => simp [readArgument, hlexeme] at h
  | _ =>
      simp only [readArgument, hlexeme] at h
      exact eq_unexpected_of_readValue h

theorem eq_unexpected_of_readEnd {r : Reader} {t : Token} {e : ScriptError}
    (h : r.readEnd t = .error e) : e = .unexpected t := by
  cases hlexeme : t.lexeme <;> cases hblocks : r.blocks <;> simp_all [readEnd]

theorem refuses_of_readComplete {r : Reader} {head : Head} {args : List Term} {t : Token}
    {e : ScriptError} (hcompleted : r.place.completed? = some (head, args))
    (h : r.readComplete head args t = .error e) : r.Refuses t e := by
  by_cases hdo : t.lexeme = .do ∧ head.isDirective = false
  · rcases readComplete_do r args hdo.2 hdo.1 with ⟨label, line, -, hok⟩ | herror
    · rw [hok] at h
      cases h
    · rw [herror] at h
      exact .inr ⟨hdo.1, head, args, hcompleted, hdo.2, (Except.error.inj h).symm⟩
  · -- Any other token is read as the end of the statement that the head makes.
    refine .inl (eq_unexpected_of_readEnd (r := r.push (head.statement args)) ?_)
    rw [← h]
    obtain ⟨isDirective, name, line⟩ := head
    cases hlexeme : t.lexeme <;> cases isDirective <;> simp_all [readComplete]

theorem eq_unexpected_of_readStart {r : Reader} {t : Token} {e : ScriptError}
    (h : r.readStart t = .error e) : e = .unexpected t := by
  unfold readStart at h
  split at h
  · exact eq_unexpected_of_readEnd h
  · exact eq_unexpected_of_readEnd h
  · cases h
  · cases h
  · exact eq_unexpected_of_readValue h

/-- A token that holds what its kind promises is refused for one of the two reasons. -/
theorem refuses_of_step {r : Reader} {t : Token} {e : ScriptError}
    (htyped : t.lexeme.isTyped = true) (h : r.step t = .error e) : r.Refuses t e := by
  obtain ⟨blocks, statements, place⟩ := r
  cases place with
  | start => exact .inl (eq_unexpected_of_readStart h)
  | ended => exact .inl (eq_unexpected_of_readEnd h)
  | directive line =>
      simp only [step] at h
      split at h
      · cases h
      · exact .inl (Except.error.inj h).symm
  | headed head =>
      simp only [step, readHeaded] at h
      split at h
      · cases h
      · cases h
      · split at h
        · exact .inl (eq_unexpected_of_readArgument h)
        · exact refuses_of_readComplete rfl h
  | argument sequence before =>
      simp only [step] at h
      split at h
      · cases h
      · split at h
        · cases h
        · exact .inl (eq_unexpected_of_readArgument h)
  | between sequence before =>
      simp only [step] at h
      split at h
      · cases h
      · exact refuses_of_readComplete rfl h
      · cases h
      · split at h
        · cases h
        · exact .inl (Except.error.inj h).symm
  | value slot => exact .inl (eq_unexpected_of_readValue h)
  | negative line slot =>
      simp only [step] at h
      split at h
      · next value hlexeme =>
          -- A number that holds a number has a negative.
          have hadmits : LiteralKind.number.admits value = true := by
            simpa [hlexeme, Lexeme.isTyped] using htyped
          cases value <;> simp [LiteralKind.admits, Term.neg?] at hadmits h
      · exact .inl (Except.error.inj h).symm
  | complete head args => exact refuses_of_readComplete rfl h

/-- The end of a script is refused because it does not fit, or because a block is open where a
statement might begin. -/
theorem eq_error_of_finish {r : Reader} {eof : Token} {e : ScriptError}
    (h : r.finish eof = .error e) : e = .unexpected eof ∨
      ∃ b outer, r.blocks = b :: outer ∧ r.place = .start ∧ e = ⟨b.opened, .openBlock⟩ := by
  obtain ⟨blocks, statements, place⟩ := r
  cases blocks with
  | nil =>
      simp only [finish] at h
      split at h
      · cases h
      · exact .inl (Except.error.inj h).symm
  | cons b outer =>
      cases place with
      | start => exact .inr ⟨b, outer, rfl, rfl, (Except.error.inj h).symm⟩
      | _ => exact .inl (Except.error.inj h).symm

end Reader

end GradingScript
