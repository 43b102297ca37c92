import GradingScript.Script

/-!
# Runs of the reader

A run reads tokens one by one and stops at the first that is refused.  Where the statement at hand
may end, the reader knows the statements read so far, and a line feed, an `end` or the end of the
script does with them what it does behind a complete statement.
-/

namespace GradingScript

/-- The head that is complete at a place, with all of its arguments. -/
def Place.completed? : Place → Option (Head × List Term)
  | .headed head => some (head, [])
  | .between (.bare head) before => some (head, before.reverse)
  | .complete head args => some (head, args)
  | _ => none

namespace Reader

/-- Reads tokens one by one, none of which ends the script. -/
def steps (r : Reader) : List Token → Except ScriptError Reader
  | [] => .ok r
  | t :: ts =>
    match r.step t with
    | .error e => .error e
    | .ok r => r.steps ts

@[simp] theorem steps_nil (r : Reader) : r.steps [] = .ok r := rfl

theorem steps_cons_of_ok {r r' : Reader} {t : Token} {ts : List Token} (h : r.step t = .ok r') :
    r.steps (t :: ts) = r'.steps ts := by
  simp [steps, h]

theorem steps_cons_of_error {r : Reader} {t : Token} {ts : List Token} {e : ScriptError}
    (h : r.step t = .error e) : r.steps (t :: ts) = .error e := by
  simp [steps, h]

theorem steps_singleton (r : Reader) (t : Token) : r.steps [t] = r.step t := by
  simp only [steps]
  cases r.step t <;> rfl

theorem steps_append_of_ok {r r' : Reader} {ts us : List Token} (h : r.steps ts = .ok r') :
    r.steps (ts ++ us) = r'.steps us := by
  induction ts generalizing r with
  | nil =>
      cases h
      rfl
  | cons t ts ih =>
      cases hstep : r.step t with
      | error e => simp [steps, hstep] at h
      | ok next =>
          rw [steps_cons_of_ok hstep] at h
          rw [List.cons_append, steps_cons_of_ok hstep]
          exact ih h

theorem steps_append_of_error {r : Reader} {ts us : List Token} {e : ScriptError}
    (h : r.steps ts = .error e) : r.steps (ts ++ us) = .error e := by
  induction ts generalizing r with
  | nil => cases h
  | cons t ts ih =>
      cases hstep : r.step t with
      | error e' =>
          rw [steps_cons_of_error hstep] at h
          rw [List.cons_append, steps_cons_of_error hstep, h]
      | ok next =>
          rw [steps_cons_of_ok hstep] at h
          rw [List.cons_append, steps_cons_of_ok hstep]
          exact ih h

/-- Behind tokens that are read, one more token is read from where they lead. -/
theorem steps_concat {r r' : Reader} {ts : List Token} (h : r.steps ts = .ok r') (t : Token) :
    r.steps (ts ++ [t]) = r'.step t := by
  rw [steps_append_of_ok h, steps_singleton]

theorem steps_cons_eq_ok {r r' : Reader} {t : Token} {ts : List Token} :
    r.steps (t :: ts) = .ok r' ↔ ∃ next, r.step t = .ok next ∧ next.steps ts = .ok r' := by
  cases hstep : r.step t with
  | error e => simp [steps_cons_of_error hstep]
  | ok next => simp [steps_cons_of_ok hstep]

/-- A run is one over the tokens in front and one from where they lead. -/
theorem steps_append_eq_ok {r r' : Reader} {ts us : List Token} :
    r.steps (ts ++ us) = .ok r' ↔ ∃ next, r.steps ts = .ok next ∧ next.steps us = .ok r' := by
  cases hsteps : r.steps ts with
  | error e => simp [steps_append_of_error hsteps]
  | ok next => simp [steps_append_of_ok hsteps]

/-- A run that breaks off was refused one token behind tokens that are read. -/
theorem steps_eq_error {r : Reader} {ts : List Token} {e : ScriptError}
    (h : r.steps ts = .error e) :
    ∃ before t behind r', ts = before ++ t :: behind ∧ r.steps before = .ok r' ∧
      r'.step t = .error e := by
  induction ts generalizing r with
  | nil => cases h
  | cons t ts ih =>
      cases hstep : r.step t with
      | error e' =>
          rw [steps_cons_of_error hstep] at h
          cases h
          exact ⟨[], t, ts, r, rfl, rfl, hstep⟩
      | ok next =>
          rw [steps_cons_of_ok hstep] at h
          obtain ⟨before, u, behind, r', rfl, hbefore, hu⟩ := ih h
          exact ⟨t :: before, u, behind, r', rfl, by rw [steps_cons_of_ok hstep, hbefore], hu⟩

/-- A run up to the end of the script reads the tokens before it, and finishes there. -/
theorem run_concat {r : Reader} {ts : List Token} {eof : Token}
    (hts : ∀ t ∈ ts, t.lexeme ≠ .eof) (heof : eof.lexeme = .eof) :
    r.run (ts ++ [eof]) =
      match r.steps ts with
      | .error e => .error e
      | .ok r' => r'.finish eof := by
  induction ts generalizing r with
  | nil => simp [run, Token.isEof, heof]
  | cons t ts ih =>
      have ht : t.isEof = false := by
        rw [← Bool.not_eq_true, Token.isEof_iff]
        exact hts t (by simp)
      have hrest : ∀ u ∈ ts, u.lexeme ≠ .eof := fun u hu => hts u (by simp [hu])
      rw [List.cons_append, run, ht]
      cases hstep : r.step t with
      | error e => simp [steps, hstep]
      | ok next =>
          rw [steps_cons_of_ok hstep]
          exact ih hrest

/-! ## Places where a statement may end -/

theorem settled?_of_completed {r : Reader} {head : Head} {args : List Term}
    (h : r.place.completed? = some (head, args)) :
    r.settled? = some (head.statement args :: r.statements).reverse := by
  obtain ⟨blocks, statements, place⟩ := r
  cases place with
  | between sequence before =>
      cases sequence <;> simp_all [Place.completed?, settled?]
  | _ => simp_all [Place.completed?, settled?]

/-- What follows a complete head and is no argument is read as the end of its arguments. -/
theorem step_of_completed {r : Reader} {head : Head} {args : List Term} {t : Token}
    (h : r.place.completed? = some (head, args))
    (ht : t.lexeme = .newline ∨ t.lexeme = .do ∨ t.lexeme = .end) :
    r.step t = r.readComplete head args t := by
  obtain ⟨blocks, statements, place⟩ := r
  cases place with
  | headed head' =>
      obtain ⟨rfl, rfl⟩ : head' = head ∧ [] = args := by simpa [Place.completed?] using h
      rcases ht with ht | ht | ht <;> simp [step, readHeaded, startsArgument, ht]
  | between sequence before =>
      cases sequence with
      | bare head' =>
          obtain ⟨rfl, rfl⟩ : head' = head ∧ before.reverse = args := by
            simpa [Place.completed?] using h
          rcases ht with ht | ht | ht <;> simp [step, ht]
      | _ => simp [Place.completed?] at h
  | complete head' args' =>
      obtain ⟨rfl, rfl⟩ : head' = head ∧ args' = args := by simpa [Place.completed?] using h
      rfl
  | _ => simp [Place.completed?] at h

/-- Where a statement may end, the reader stands at its beginning, behind it, or behind a complete
head. -/
theorem settled?_cases {r : Reader} {statements : List Term} (h : r.settled? = some statements) :
    (r.place = .start ∨ r.place = .ended) ∧ r.statements = statements.reverse ∨
      ∃ head args, r.place.completed? = some (head, args) ∧
        head.statement args :: r.statements = statements.reverse := by
  obtain ⟨blocks, before, place⟩ := r
  cases place with
  | start =>
      cases h
      exact .inl ⟨.inl rfl, by simp⟩
  | ended =>
      cases h
      exact .inl ⟨.inr rfl, by simp⟩
  | headed head =>
      cases h
      exact .inr ⟨head, [], rfl, by simp⟩
  | between sequence args =>
      cases sequence with
      | bare head =>
          cases h
          exact .inr ⟨head, args.reverse, rfl, by simp⟩
      | _ => cases h
  | complete head args =>
      cases h
      exact .inr ⟨head, args, rfl, by simp⟩
  | _ => cases h

/-- A line feed where a statement may end leads to the next statement. -/
theorem step_newline {r : Reader} {statements : List Term} {t : Token}
    (h : r.settled? = some statements) (ht : t.lexeme = .newline) :
    r.step t = .ok ⟨r.blocks, statements.reverse, .start⟩ := by
  -- A line feed ends no statement at the beginning of one and behind one.
  rcases settled?_cases h with ⟨hplace | hplace, hstatements⟩ | ⟨head, args, hhead, hstatements⟩
  · simp [step, hplace, readStart, readEnd, goto, ht, hstatements]
  · simp [step, hplace, readEnd, goto, ht, hstatements]
  · rw [step_of_completed hhead (.inl ht), ← hstatements]
    simp [readComplete, readEnd, goto, push, ht]

/-- An `end` where a statement may end closes the innermost block. -/
theorem step_end {r : Reader} {statements : List Term} {t : Token} {b : OpenBlock}
    {outer : List OpenBlock} (h : r.settled? = some statements) (ht : t.lexeme = .end)
    (hblocks : r.blocks = b :: outer) :
    r.step t =
      .ok ⟨outer, .block b.label b.line statements b.keyword :: b.before, .ended⟩ := by
  rcases settled?_cases h with ⟨hplace | hplace, hstatements⟩ | ⟨head, args, hhead, hstatements⟩
  · simp [step, hplace, readStart, readEnd, ht, hblocks, hstatements]
  · simp [step, hplace, readEnd, ht, hblocks, hstatements]
  · rw [step_of_completed hhead (.inr (.inr ht))]
    simp [readComplete, readEnd, push, ht, hblocks, hstatements]

/-- An `end` without an open block is refused. -/
theorem step_end_of_nil {r : Reader} {statements : List Term} {t : Token}
    (h : r.settled? = some statements) (ht : t.lexeme = .end) (hblocks : r.blocks = []) :
    r.step t = .error (.unexpected t) := by
  rcases settled?_cases h with ⟨hplace | hplace, -⟩ | ⟨head, args, hhead, -⟩
  · simp [step, hplace, readStart, readEnd, ht, hblocks]
  · simp [step, hplace, readEnd, ht, hblocks]
  · rw [step_of_completed hhead (.inr (.inr ht))]
    simp [readComplete, readEnd, push, ht, hblocks]

/-- `do` behind a call opens a block if the arguments are one string, and is refused if not. -/
theorem readComplete_do (r : Reader) {head : Head} (args : List Term) {t : Token}
    (hcall : head.isDirective = false) (ht : t.lexeme = .do) :
    (∃ label line, args = [.literal (.string label) line] ∧
      r.readComplete head args t =
        .ok ⟨⟨head.name, label, head.line, t.line, r.statements⟩ :: r.blocks, [], .start⟩) ∨
    r.readComplete head args t = .error ⟨head.line, .label head.name args⟩ := by
  simp only [readComplete, ht, hcall]
  split
  · exact .inl ⟨_, _, rfl, rfl⟩
  · exact .inr rfl

/-- Behind a complete head, what neither ends the statement nor opens a block is refused. -/
theorem readComplete_of_ne (r : Reader) {head : Head} (args : List Term) {t : Token}
    (hnl : t.lexeme ≠ .newline) (hend : t.lexeme ≠ .end)
    (hdo : t.lexeme = .do → head.isDirective = true) :
    r.readComplete head args t = .error (.unexpected t) := by
  obtain ⟨isDirective, name, line⟩ := head
  cases hlexeme : t.lexeme with
  | «do» =>
      -- A directive opens no block, so its `do` is read as the end of its line.
      obtain rfl : isDirective = true := hdo hlexeme
      simp [readComplete, readEnd, hlexeme]
  | newline => exact absurd hlexeme hnl
  | «end» => exact absurd hlexeme hend
  | _ => simp [readComplete, readEnd, hlexeme]

/-- Without open blocks, the script may end where a statement may. -/
theorem finish_of_settled {r : Reader} {statements : List Term} {eof : Token}
    (h : r.settled? = some statements) (hblocks : r.blocks = []) :
    r.finish eof = .ok statements := by
  simp [finish, hblocks, h]

/-- A script ends only where a statement may end, and without open blocks. -/
theorem settled_of_finish {r : Reader} {eof : Token} {script : List Term}
    (h : r.finish eof = .ok script) : r.blocks = [] ∧ r.settled? = some script := by
  cases hblocks : r.blocks with
  | nil =>
      cases hsettled : r.settled? with
      | none => simp [finish, hblocks, hsettled] at h
      | some statements =>
          obtain rfl : statements = script := by simpa [finish, hblocks, hsettled] using h
          exact ⟨rfl, rfl⟩
  | cons b outer =>
      cases hplace : r.place <;> simp [finish, hblocks, hplace] at h

end Reader

end GradingScript
