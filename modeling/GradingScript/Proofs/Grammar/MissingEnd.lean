import GradingScript.Proofs.Grammar.FirstRefusal
import GradingScript.Proofs.Printing.Reading
import GradingScript.Proofs.Reader.Moves
import GradingScript.Proofs.Token.Lines
import Mathlib

/-!
# Texts that lack an `end`

A text lacks nothing but `end` if it is no script, but becomes one when lines with `end` are put
behind it.  Its error is that of the block that it leaves open, if its last line is ended.  If the
text ends right behind a statement, the error is that of a statement that breaks off, although no
statement does.

* `steps_of_closed_text` is what the lines behind a text tell of the text: it is read up to its end,
  inside of a block, and a statement may end there.
* `error_of_missing_end` is the error.
-/

namespace GradingScript

open Grammar

/-- Lines with `end` to be put behind a text. -/
def closingLines (m : Nat) : String :=
  String.join (List.replicate m "\nend")

/-- The tokens end in a line feed, or in the `do` that opens a block. -/
def Token.EndsLine (ts : List Token) : Prop :=
  ∃ t ∈ ts.getLast?, t.lexeme = .newline ∨ t.lexeme = .do

theorem closingLines_succ (m : Nat) :
    (closingLines (m + 1)).toList = '\n' :: ("end".toList ++ (closingLines m).toList) := by
  rw [closingLines, List.replicate_succ, String.join_cons, String.toList_append]
  rfl

theorem delimited_closingLines (m : Nat) : Delimited (closingLines m).toList := by
  cases m with
  | zero => exact delimited_nil
  | succ m =>
      rw [closingLines_succ]
      exact delimited_cons (by decide)

/-- Behind the tokens of a text stand a line feed and an `end`. -/
theorem Token.exists_scan_closingLines {u : String} {ts : List Token} {eof : Token}
    (h : Token.scan 1 u.toList = .ok (ts ++ [eof])) {m : Nat} {us : List Token}
    (hclosed : Token.scan 1 (u ++ closingLines (m + 1)).toList = .ok us) :
    ∃ nl closing, nl.lexeme = .newline ∧ closing.lexeme = .end ∧ ts ++ [nl, closing] <+: us := by
  have hword : Printing.isName "end" = true := by decide
  obtain ⟨closing, line, hleads, hclosing⟩ :=
    (writes_word hword (delimited_closingLines m)).leads (1 + Text.lineFeeds u.toList + 1)
  rw [Leads] at hleads
  rw [String.toList_append, closingLines_succ, scan_append h, hleads] at hclosed
  obtain ⟨vs, hvs, rfl⟩ := exists_ok_of_map hclosed
  obtain ⟨ws, -, rfl⟩ := exists_ok_of_map hvs
  let nl : Token := ⟨.newline, (1 + Text.lineFeeds u.toList : Nat), "\n"⟩
  refine ⟨nl, closing, rfl, hclosing, ws, ?_⟩
  rw [List.append_assoc]
  rfl

namespace Script

/-- A text that lacks nothing but `end` is read up to its end, inside of a block, and a statement
may end there. -/
theorem steps_of_closed_text {u : String} {ts : List Token} {eof : Token}
    (h : Token.scan 1 u.toList = .ok (ts ++ [eof])) (hts : ∀ t ∈ ts, t.lexeme ≠ .eof) {m : Nat}
    {script : Script} (hclosed : Script.ofText (u ++ closingLines (m + 1)) = .ok script) :
    ∃ r, Reader.empty.steps ts = .ok r ∧ r.settled?.isSome = true ∧ r.blocks ≠ [] := by
  cases hscan : Token.scan 1 (u ++ closingLines (m + 1)).toList with
  | error e =>
      rw [ofText_of_scan_error hscan] at hclosed
      cases hclosed
  | ok us =>
      obtain ⟨nl, closing, hnl, hclosing, hbegins⟩ := Token.exists_scan_closingLines h hscan
      rw [ofText_of_scan hscan] at hclosed
      have haccepted : Accepted us := ⟨(Token.terminated_of_scan hscan).1, script, hclosed⟩
      have hnone : ∀ t ∈ ts ++ [nl, closing], t.lexeme ≠ .eof := by
        refine List.forall_mem_append.2 ⟨hts, ?_⟩
        simp [hnl, hclosing]
      cases hboth : Reader.empty.steps (ts ++ [nl, closing]) with
      | error e => exact absurd hbegins (not_prefix_of_error hnone hboth haccepted)
      | ok r' =>
          obtain ⟨r, hsteps, hclosing'⟩ := Reader.steps_append_eq_ok.1 hboth
          exact ⟨r, hsteps, Reader.settled_of_steps hnl hclosing hclosing'⟩

/-- Behind tokens that lead to where a statement may end, inside of a block, a statement may begin
just when they end a line. -/
theorem place_of_endsLine {ts : List Token} {r : Reader} (h : Reader.empty.steps ts = .ok r)
    (hsettled : r.settled?.isSome = true) (hblocks : r.blocks ≠ []) :
    r.place = .start ↔ Token.EndsLine ts := by
  rcases List.eq_nil_or_concat ts with rfl | ⟨before, t, rfl⟩
  · cases h
    exact absurd rfl hblocks
  · rw [List.concat_eq_append] at h ⊢
    obtain ⟨r', -, hstep⟩ := Reader.steps_append_eq_ok.1 h
    rw [Reader.steps_singleton] at hstep
    rw [Reader.place_of_step hstep hsettled]
    simp [Token.EndsLine]

/-- The error of a text that lacks nothing but `end`. -/
theorem error_of_missing_end {u : String} {ts : List Token} {e : ScriptError}
    (hu : Token.ofText u = .ok ts) (herror : Script.ofText u = .error e) {m : Nat}
    {script : Script} (hclosed : Script.ofText (u ++ closingLines m) = .ok script) :
    ∃ opening, (Token.unclosed ts.dropLast).head? = some opening ∧
      (Token.EndsLine ts.dropLast → e.line = opening.line ∧
        e.fault.description = "missing terminator: " ∧ e.fault.token = .ok "end") ∧
      (¬Token.EndsLine ts.dropLast → e.line = 1 + Text.lineFeeds u.toList ∧
        e.fault.description = "syntax error: expression is incomplete" ∧
        e.fault.token = .ok "") := by
  obtain ⟨body, rfl, hbody⟩ := Token.eq_concat_of_scan hu
  have hnone : ∀ t ∈ body, t.lexeme ≠ .eof := fun t ht => (hbody t ht).2
  cases m with
  | zero =>
      have hsame : u ++ closingLines 0 = u := by simp [closingLines]
      rw [hsame, herror] at hclosed
      cases hclosed
  | succ m =>
      obtain ⟨r, hsteps, hsettled, hblocks⟩ := steps_of_closed_text hu hnone hclosed
      have hplace := place_of_endsLine hsteps hsettled hblocks
      obtain ⟨b, outer, houter⟩ := List.exists_cons_of_ne_nil hblocks
      have hempty : Reader.empty.blocks.map OpenBlock.opened = ([] : List Token).map Token.line :=
        rfl
      have hopened := Reader.opened_of_steps hempty hsteps
      rw [houter, List.map_cons] at hopened
      obtain ⟨opening, others, hunclosed, hline, -⟩ := List.map_eq_cons_iff.1 hopened.symm
      rw [ofText_of_scan hu, ofTokens_concat hnone rfl, hsteps] at herror
      rw [List.dropLast_concat]
      refine ⟨opening, by rw [Token.unclosed, hunclosed, List.head?_cons], ?_, ?_⟩
      · intro hends
        have hstart := hplace.2 hends
        obtain rfl : ⟨b.opened, .openBlock⟩ = e := by
          simpa [Reader.finish, houter, hstart] using herror
        exact ⟨hline.symm, rfl, rfl⟩
      · intro hopen
        have hwithin : r.place ≠ .start := fun hstart => hopen (hplace.1 hstart)
        rcases Reader.eq_error_of_finish herror with rfl | ⟨_, _, -, hstart, -⟩
        · rw [ScriptError.unexpected_of_eof rfl]
          exact ⟨by simp, rfl, rfl⟩
        · exact absurd hstart hwithin

/-- A text that ends in a comment on a line of its own, behind a block that is closed. -/
theorem error_of_missing_end_comment :
    let u := "step \"a\" do\ncase \"b\" do\nend\nrun 1\n# c"
    let ts : List Token := [⟨.name "step", 1, "step"⟩, ⟨.ofString "a", 1, "\"a\""⟩,
      ⟨.do, 1, "do"⟩, ⟨.newline, 1, "\n"⟩, ⟨.name "case", 2, "case"⟩, ⟨.ofString "b", 2, "\"b\""⟩,
      ⟨.do, 2, "do"⟩, ⟨.newline, 2, "\n"⟩, ⟨.end, 3, "end"⟩, ⟨.newline, 3, "\n"⟩,
      ⟨.name "run", 4, "run"⟩, ⟨.ofNumber (.int 1), 4, "1"⟩, ⟨.newline, 4, "\n"⟩, ⟨.eof, 5, ""⟩]
    Token.ofText u = .ok ts ∧ Token.EndsLine ts.dropLast ∧
      Script.ofText (u ++ closingLines 1) = .ok [.block "a" 1
        [.block "b" 2 [] "case", .call "run" 4 [.literal (.number (.int 1)) 4]] "step"] ∧
      ∃ e, Script.ofText u = .error e ∧ e.line = 1 ∧
        e.fault.description = "missing terminator: " ∧ e.fault.token = .ok "end" := by
  intro u ts
  have hu : Token.ofText u = .ok ts := by cbv
  have hends : Token.EndsLine ts.dropLast := ⟨⟨.newline, 4, "\n"⟩, rfl, .inl rfl⟩
  have herror : Script.ofText u = .error ⟨1, .openBlock⟩ := by cbv
  have hclosed : Script.ofText (u ++ closingLines 1) = .ok [.block "a" 1
      [.block "b" 2 [] "case", .call "run" 4 [.literal (.number (.int 1)) 4]] "step"] := by cbv
  obtain ⟨opening, hopening, hblock, -⟩ := error_of_missing_end hu herror hclosed
  obtain rfl : ⟨.do, 1, "do"⟩ = opening := Option.some.inj hopening
  exact ⟨hu, hends, hclosed, _, herror, hblock hends⟩

/-- A text that ends right behind a statement.  Nothing is missing in the statement, but the error
speaks of it, and not of the block. -/
theorem error_of_missing_end_behind_statement :
    let u := "step \"a\" do\n  run \"x\""
    (∃ script, Script.ofText (u ++ closingLines 1) = .ok script) ∧
      ∃ e, Script.ofText u = .error e ∧ e.line = 2 ∧
        e.fault.description = "syntax error: expression is incomplete" := by
  intro u
  have hclosed : Script.ofText (u ++ closingLines 1) =
      .ok [.block "a" 1 [.call "run" 2 [.literal (.string "x") 2]] "step"] := by cbv
  have herror : Script.ofText u = .error ⟨2, .incomplete⟩ := by cbv
  exact ⟨⟨_, hclosed⟩, _, herror, rfl, rfl⟩

end Script

end GradingScript
