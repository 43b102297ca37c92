import GradingScript.Proofs.Grammar.Acceptance
import GradingScript.Proofs.Reader.Completion
import GradingScript.Proofs.Reader.Refusal
import Mathlib.Order.Bounds.Defs

/-!
# The first token that cannot be read on from

Whatever is read can be completed to a script, so the token that is refused is the first at which
no script goes on as the tokens do.  Which error it gives depends on nothing but the grammar: on
whether the tokens before it are a name with arguments, or end in a block where a statement might
begin.
-/

namespace GradingScript.Grammar

/-- Terminated tokens that are read as a script. -/
def Accepted (ts : List Token) : Prop :=
  Terminated ts ∧ ∃ script, Script.ofTokens ts = .ok script

/-- The tokens end in `NAME args`, where the name begins a statement. -/
def EndsInHead (ts : List Token) (name : Token) (n : String) (args : List Term) : Prop :=
  ∃ os us blocks statements, ts = os ++ name :: us ∧ Opening os blocks statements ∧
    name.lexeme = .name n ∧ Arguments us args

/-- The tokens end in an open block, which the given `do` has opened, where a statement may begin:
behind `do`, or behind the line feed that ended a statement. -/
def EndsInBlock (ts : List Token) (opening : Token) : Prop :=
  ∃ os vs name n label line statements, ts = os ++ opening :: vs ∧ opening.lexeme = .do ∧
    EndsInHead os name n [.literal (.string label) line] ∧ Lead vs statements

/-! ## What the grammar says is where the reader stands -/

theorem Lead.read {ts : List Token} {statements : List Term} (h : Lead ts statements) (r : Reader)
    (hplace : r.place = .start) :
    r.steps ts = .ok ⟨r.blocks, statements.reverse ++ r.statements, .start⟩ := by
  induction h with
  | nil =>
      obtain ⟨blocks, before, place⟩ := r
      cases hplace
      rfl
  | newline hlead hnl ih =>
      rw [Reader.steps_concat ih]
      simp [Reader.step, Reader.readStart, Reader.readEnd, Reader.goto, hnl]
  | @statement ts us statements statement nl hlead hstatement hnl ih =>
      obtain ⟨r', hread, hblocks, hsettled⟩ :=
        hstatement.read ⟨r.blocks, statements.reverse ++ r.statements, .start⟩ rfl
      have hsteps : r.steps (ts ++ us) = .ok r' := by rw [Reader.steps_append_of_ok ih, hread]
      rw [Reader.steps_concat hsteps, Reader.step_newline hsettled hnl, hblocks]
      simp

theorem Opening.read {ts : List Token} {blocks : List OpenBlock} {statements : List Term}
    (h : Opening ts blocks statements) :
    Reader.empty.steps ts = .ok ⟨blocks, statements.reverse, .start⟩ := by
  induction h with
  | script hlead => simpa [Reader.empty] using hlead.read .empty rfl
  | @block ts us vs blocks before statements name opening n label line houter hname hlabel hopening
      hlead ih =>
      have hblock := steps_opening (r := ⟨blocks, before.reverse, .start⟩) rfl hname hlabel hopening
      have hread := hlead.read
        ⟨⟨n, label, name.line, opening.line, before.reverse⟩ :: blocks, [], .start⟩ rfl
      rw [List.append_assoc, Reader.steps_append_of_ok ih, Reader.steps_append_of_ok hblock, hread]
      simp

theorem EndsInHead.read {ts : List Token} {name : Token} {n : String} {args : List Term}
    (h : EndsInHead ts name n args) : ∃ r, Reader.empty.steps ts = .ok r ∧
      r.place.completed? = some (⟨false, n, name.line⟩, args) := by
  obtain ⟨os, us, blocks, statements, rfl, hopening, hname, hargs⟩ := h
  let r : Reader := ⟨blocks, statements.reverse, .start⟩
  obtain ⟨place, hcompleted, hread⟩ := hargs.read (r.goto (.headed ⟨false, n, name.line⟩)) rfl
  refine ⟨r.goto place, ?_, hcompleted⟩
  rw [Reader.steps_append_of_ok hopening.read, Reader.steps_cons_of_ok (step_call rfl hname), hread]
  rfl

theorem EndsInBlock.opening {ts : List Token} {opening : Token} (h : EndsInBlock ts opening) :
    ∃ b blocks statements, Opening ts (b :: blocks) statements ∧ b.opened = opening.line := by
  obtain ⟨_, vs, name, n, label, line, statements, rfl, hdo, hhead, hlead⟩ := h
  obtain ⟨os, us, blocks, before, rfl, hopening, hname, hargs⟩ := hhead
  have hblock := Opening.block hopening hname hargs hdo hlead
  exact ⟨_, blocks, statements, by simpa using hblock, rfl⟩

/-! ## Where the reader stands is what the grammar says -/

theorem Reads.endsInHead {r : Reader} {ts : List Token} {head : Head} {args : List Term}
    (h : Reads r ts) (hcompleted : r.place.completed? = some (head, args))
    (hcall : head.isDirective = false) :
    ∃ name, EndsInHead ts name head.name args ∧ name.line = head.line := by
  cases h with
  | start => cases hcompleted
  | ended => cases hcompleted
  | @within ts us blocks statements p hopening hwithin =>
      obtain ⟨os, vs, rfl, hhead, hargs⟩ := hwithin.completed hcompleted
      cases hhead with
      | directive => cases hcall
      | @call name n hname =>
          exact ⟨name, ⟨ts, vs, blocks, statements, by simp, hopening, hname, hargs⟩, rfl⟩

theorem Reads.endsInBlock {r : Reader} {ts : List Token} {b : OpenBlock} {outer : List OpenBlock}
    (h : Reads r ts) (hplace : r.place = .start) (hblocks : r.blocks = b :: outer) :
    ∃ opening, EndsInBlock ts opening ∧ b.opened = opening.line := by
  have hopening : ∃ statements, Opening ts (b :: outer) statements := by
    cases h with
    | start hopening =>
        cases hblocks
        exact ⟨_, hopening⟩
    | ended => cases hplace
    | within hopening hwithin =>
        cases hplace
        cases hwithin
  obtain ⟨statements, hopening⟩ := hopening
  cases hopening with
  | @block os us vs _ before _ name opening n label line houter hname hlabel hdo hlead =>
      exact ⟨opening, ⟨os ++ name :: us, vs, name, n, label, line, statements, by simp, hdo,
        ⟨os, us, outer, before, rfl, houter, hname, hlabel⟩, hlead⟩, rfl⟩

/-- Why tokens are no script: one of them does not fit, a block has no label, or a block has no
`end`. -/
inductive Refusal (ts : List Token) : ScriptError → Prop
  | unexpected {t : Token} (ht : t ∈ ts) : Refusal ts (.unexpected t)
  | label {before : List Token} {name : Token} {n : String} {args : List Term}
      (hbefore : before <+: ts) (hhead : EndsInHead before name n args) :
      Refusal ts ⟨name.line, .label n args⟩
  | openBlock {before : List Token} {opening : Token} (hbefore : before <+: ts)
      (hblock : EndsInBlock before opening) : Refusal ts ⟨opening.line, .openBlock⟩

/-- There is no other reason. -/
theorem refusal_of_ofTokens {ts : List Token} {e : ScriptError} (hend : Terminated ts)
    (htyped : ∀ t ∈ ts, t.lexeme.isTyped = true) (herror : Script.ofTokens ts = .error e) :
    Refusal ts e := by
  obtain ⟨body, eof, rfl, heof, hbody⟩ := hend
  rw [ofTokens_concat hbody heof] at herror
  cases hsteps : Reader.empty.steps body with
  | error e' =>
      obtain rfl : e' = e := by simpa [hsteps] using herror
      obtain ⟨before, t, behind, r, rfl, hbefore, ht⟩ := Reader.steps_eq_error hsteps
      rcases Reader.refuses_of_step (htyped t (by simp)) ht with
        rfl | ⟨-, head, args, hcompleted, hcall, rfl⟩
      · exact .unexpected (by simp)
      · obtain ⟨name, hhead, hline⟩ := (Reads.empty.steps hbefore).endsInHead hcompleted hcall
        rw [← hline]
        exact .label (by simp) hhead
  | ok r =>
      simp only [hsteps] at herror
      rcases Reader.eq_error_of_finish herror with rfl | ⟨b, outer, hblocks, hplace, rfl⟩
      · exact .unexpected (by simp)
      · obtain ⟨opening, hblock, hline⟩ := (Reads.empty.steps hsteps).endsInBlock hplace hblocks
        rw [hline]
        exact .openBlock (List.prefix_append _ _) hblock

/-! ## Prefixes of scripts -/

/-- Tokens that are read begin a script. -/
theorem exists_accepted_of_steps {ts : List Token} {r : Reader} (hts : ∀ t ∈ ts, t.lexeme ≠ .eof)
    (hsteps : Reader.empty.steps ts = .ok r) : ∃ us, Accepted us ∧ ts <+: us := by
  obtain ⟨us, r', script, hus, hcompletion, hblocks, hsettled⟩ := r.completable
  let eof : Token := ⟨.eof, 0, ""⟩
  have hbody : ∀ t ∈ ts ++ us, t.lexeme ≠ .eof := List.forall_mem_append.2 ⟨hts, hus⟩
  refine ⟨ts ++ us ++ [eof], ⟨⟨_, eof, rfl, rfl, hbody⟩, script, ?_⟩, by simp⟩
  rw [ofTokens_concat hbody rfl, Reader.steps_append_of_ok hsteps, hcompletion]
  exact Reader.finish_of_settled hsettled hblocks

/-- Tokens that are refused begin no script. -/
theorem not_prefix_of_error {ts us : List Token} {e : ScriptError}
    (hts : ∀ t ∈ ts, t.lexeme ≠ .eof) (herror : Reader.empty.steps ts = .error e)
    (hus : Accepted us) : ¬ ts <+: us := by
  obtain ⟨⟨body, eof, rfl, heof, hbody⟩, script, hread⟩ := hus
  intro hbegins
  rcases List.prefix_concat_iff.1 hbegins with hall | ⟨behind, rfl⟩
  · exact hts eof (by simp [hall]) heof
  · rw [ofTokens_concat hbody heof, Reader.steps_append_of_error herror] at hread
    cases hread

/-- A script goes on behind none of its ends. -/
theorem eq_of_begins {ts us : List Token} {eof : Token} (heof : eof.lexeme = .eof)
    (hus : Terminated us) (hbegins : ts ++ [eof] <+: us) : us = ts ++ [eof] := by
  obtain ⟨body, eof', rfl, -, hbody⟩ := hus
  rcases List.prefix_concat_iff.1 hbegins with hall | hinside
  · exact hall.symm
  · exact absurd heof (hbody eof (hinside.subset (by simp)))

/-! ## Errors -/

/-- What an error says of the token that no script has behind the tokens before it. -/
structure Reports (e : ScriptError) (before : List Token) (t : Token) : Prop where
  /-- A `do` behind a name with arguments: the block has no label. -/
  label : t.lexeme = .do → ∀ name n args, EndsInHead before name n args →
    e.line = name.line ∧ e.fault.description = n ++ " name must be a string: "
  /-- The end of the script where a statement of a block might begin: the block has no `end`. -/
  openBlock : t.lexeme = .eof → ∀ opening, EndsInBlock before opening →
    e.line = opening.line ∧ e.fault.description = "missing terminator: " ∧
      e.fault.token = .ok "end"
  /-- The end of the script elsewhere: the statement breaks off. -/
  incomplete : t.lexeme = .eof → (¬ ∃ opening, EndsInBlock before opening) →
    e.line = t.line ∧ e.fault.description = "syntax error: expression is incomplete" ∧
      e.fault.token = .ok ""
  /-- Any other token: it does not fit. -/
  unexpected : t.lexeme ≠ .eof →
    ¬ (t.lexeme = .do ∧ ∃ name n args, EndsInHead before name n args) →
    e.line = t.line ∧ e.fault.description = "syntax error before: " ∧ e.fault.token = .ok t.shown

/-- A token within the script that is refused is reported for what it is. -/
theorem reports_of_step {ts : List Token} {r : Reader} {t : Token} {e : ScriptError}
    (ht : t.lexeme ≠ .eof) (htyped : t.lexeme.isTyped = true)
    (hsteps : Reader.empty.steps ts = .ok r) (herror : r.step t = .error e) : Reports e ts t where
  label hdo name n args hhead := by
    obtain ⟨r', hread, hcompleted⟩ := hhead.read
    obtain rfl : r = r' := Except.ok.inj (hsteps.symm.trans hread)
    rw [Reader.step_of_completed hcompleted (.inr (.inl hdo))] at herror
    have hcall : (⟨false, n, name.line⟩ : Head).isDirective = false := rfl
    rcases Reader.readComplete_do r args hcall hdo with ⟨label, line, -, hok⟩ | hrefused
    · rw [hok] at herror
      cases herror
    · rw [hrefused] at herror
      cases herror
      exact ⟨rfl, rfl⟩
  openBlock heof := absurd heof ht
  incomplete heof := absurd heof ht
  unexpected _ hnot := by
    rcases Reader.refuses_of_step htyped herror with rfl | ⟨hdo, head, args, hcompleted, hcall, -⟩
    · rw [ScriptError.unexpected_of_ne_eof ht]
      exact ⟨rfl, rfl, rfl⟩
    · obtain ⟨name, hhead, -⟩ := (Reads.empty.steps hsteps).endsInHead hcompleted hcall
      exact absurd ⟨hdo, name, head.name, args, hhead⟩ hnot

/-- The end of a script that is refused is reported as that of a block or of a statement. -/
theorem reports_of_finish {ts : List Token} {r : Reader} {eof : Token} {e : ScriptError}
    (heof : eof.lexeme = .eof) (hsteps : Reader.empty.steps ts = .ok r)
    (herror : r.finish eof = .error e) : Reports e ts eof where
  label hdo := by
    rw [heof] at hdo
    cases hdo
  openBlock _ opening hblock := by
    obtain ⟨b, outer, statements, hopening, hline⟩ := hblock.opening
    obtain rfl : r = ⟨b :: outer, statements.reverse, .start⟩ :=
      Except.ok.inj (hsteps.symm.trans hopening.read)
    cases herror
    exact ⟨hline, rfl, rfl⟩
  incomplete _ hnot := by
    rcases Reader.eq_error_of_finish herror with rfl | ⟨b, outer, hblocks, hplace, -⟩
    · rw [ScriptError.unexpected_of_eof heof]
      exact ⟨rfl, rfl, rfl⟩
    · obtain ⟨opening, hblock, -⟩ := (Reads.empty.steps hsteps).endsInBlock hplace hblocks
      exact absurd ⟨opening, hblock⟩ hnot
  unexpected hne := absurd heof hne

/-- The tokens that no script begins with are those up to a refused token, or longer. -/
theorem isLeast_of_refused {before behind : List Token} {t : Token} {r : Reader}
    (hbefore : ∀ u ∈ before, u.lexeme ≠ .eof) (hsteps : Reader.empty.steps before = .ok r)
    (ht : ∀ us, Accepted us → ¬ before ++ [t] <+: us) :
    IsLeast {k | ∀ us, Accepted us → ¬ (before ++ t :: behind).take (k + 1) <+: us}
      before.length := by
  constructor
  · intro us hus
    have htake : (before ++ t :: behind).take (before.length + 1) = before ++ [t] := by
      simp [List.take_append, List.take_of_length_le]
    rw [htake]
    exact ht us hus
  · intro k hk
    rcases Nat.lt_or_ge k before.length with hlt | hle
    · obtain ⟨us, hus, hbegins⟩ := exists_accepted_of_steps hbefore hsteps
      refine absurd (List.IsPrefix.trans ?_ hbegins) (hk us hus)
      rw [List.take_append_of_le_length (by omega)]
      exact List.take_prefix _ _
    · exact hle

/-- An error is located at the first token that cannot be read on from: the tokens up to it, and
none shorter, begin no script, and the error is the one that the grammar gives for it. -/
theorem error_at_first_impossible_token {ts : List Token} {e : ScriptError} (hend : Terminated ts)
    (htyped : ∀ t ∈ ts, t.lexeme.isTyped = true) (herror : Script.ofTokens ts = .error e) :
    ∃ k t, ts[k]? = some t ∧
      IsLeast {k | ∀ us, Accepted us → ¬ ts.take (k + 1) <+: us} k ∧ Reports e (ts.take k) t := by
  obtain ⟨body, eof, rfl, heof, hbody⟩ := hend
  rw [ofTokens_concat hbody heof] at herror
  cases hsteps : Reader.empty.steps body with
  | error e' =>
      -- A token within the script is refused.
      obtain rfl : e' = e := by simpa [hsteps] using herror
      obtain ⟨before, t, behind, r, rfl, hbefore, ht⟩ := Reader.steps_eq_error hsteps
      have hne : ∀ u ∈ before ++ [t], u.lexeme ≠ .eof := fun u hu => hbody u (by
        rcases List.mem_append.1 hu with hu | hu <;> simp_all)
      have hrefused : Reader.empty.steps (before ++ [t]) = .error e' := by
        rw [Reader.steps_concat hbefore, ht]
      refine ⟨before.length, t, by simp, ?_, ?_⟩
      · rw [List.append_assoc, List.cons_append]
        exact isLeast_of_refused (fun u hu => hne u (by simp [hu])) hbefore fun us hus =>
          not_prefix_of_error hne hrefused hus
      · have htake : (before ++ t :: behind ++ [eof]).take before.length = before := by simp
        rw [htake]
        exact reports_of_step (hne t (by simp)) (htyped t (by simp)) hbefore ht
  | ok r =>
      -- Every token is read, and the script may not end behind them.
      simp only [hsteps] at herror
      have hrefused : ∀ us, Accepted us → ¬ body ++ [eof] <+: us := by
        rintro us ⟨husend, script, hread⟩ hbegins
        rw [eq_of_begins heof husend hbegins, ofTokens_concat hbody heof, hsteps] at hread
        simp only at hread
        rw [herror] at hread
        cases hread
      refine ⟨body.length, eof, by simp, isLeast_of_refused hbody hsteps hrefused, ?_⟩
      have htake : (body ++ [eof]).take body.length = body := by simp
      rw [htake]
      exact reports_of_finish heof hsteps herror

/-- In a block, a name with a key for its argument is no block's head: the `do` is refused. -/
theorem error_at_do_behind_key :
    let ts : List Token :=
      [⟨.name "step", 1, "step"⟩, ⟨.ofString "a", 1, "\"a\""⟩, ⟨.do, 1, "do"⟩, ⟨.newline, 1, "\n"⟩,
        ⟨.name "run", 2, "run"⟩, ⟨.key "k", 2, "k:"⟩, ⟨.atom "v", 2, ":v"⟩, ⟨.do, 2, "do"⟩,
        ⟨.newline, 2, "\n"⟩, ⟨.eof, 3, ""⟩]
    let e : ScriptError := ⟨2, .label "run" [.keyword "k" (.atom "v" 2) 2]⟩
    Terminated ts ∧ (∀ t ∈ ts, t.lexeme.isTyped = true) ∧ Script.ofTokens ts = .error e ∧
      ∃ k t, ts[k]? = some t ∧
        IsLeast {k | ∀ us, Accepted us → ¬ ts.take (k + 1) <+: us} k ∧
        Reports e (ts.take k) t := by
  intro ts e
  have hend : Terminated ts := by
    refine ⟨ts.dropLast, ⟨.eof, 3, ""⟩, rfl, rfl, ?_⟩
    simp [ts, Lexeme.ofString]
  have htyped : ∀ t ∈ ts, t.lexeme.isTyped = true := by
    simp [ts, Lexeme.isTyped, Lexeme.ofString, LiteralKind.admits]
  have herror : Script.ofTokens ts = .error e := rfl
  exact ⟨hend, htyped, herror, error_at_first_impossible_token hend htyped herror⟩

end GradingScript.Grammar
