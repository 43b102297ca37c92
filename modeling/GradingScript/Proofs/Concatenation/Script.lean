import GradingScript.Proofs.Concatenation.Reading
import GradingScript.Proofs.Grammar.Lines
import GradingScript.Proofs.Token.Lines
import Mathlib

/-!
# Scripts one behind the other

A script that stands behind another one, on lines of its own, is read as it is read alone: its
statements follow those of the other, further down, and an error in it is the same error further
down.
-/

namespace GradingScript

open Grammar

/-- Behind tokens that are a script by themselves and a line feed, tokens are read as they are
alone. -/
theorem Script.ofTokens_behind {ts us : List Token} {script : Script} {eof nl : Token} (k : Int)
    (hts : ∀ t ∈ ts, t.lexeme ≠ .eof) (heof : eof.lexeme = .eof)
    (hread : Script.ofTokens (ts ++ [eof]) = .ok script) (hnl : nl.lexeme = .newline)
    (hus : Terminated us) :
    Script.ofTokens (ts ++ nl :: us.map (Token.shift k)) =
      shiftOutcome k (script ++ ·.map (Term.shift k)) (Script.ofTokens us) := by
  obtain ⟨body, eof', rfl, heof', hbody⟩ := hus
  have hline : Reader.empty.steps (ts ++ [nl]) =
      .ok (Reader.empty.behind script.reverse (· + k)) := by
    obtain ⟨r, hsteps, hfinish⟩ := exists_steps_of_ofTokens hts heof hread
    obtain ⟨hblocks, hsettled⟩ := Reader.settled_of_finish hfinish
    rw [Reader.steps_concat hsteps, Reader.step_newline hsettled hnl, hblocks]
    rfl
  have hbody' : ∀ t ∈ ts ++ nl :: body.map (Token.shift k), t.lexeme ≠ .eof := by
    intro t ht
    rcases List.mem_append.1 ht with ht | ht
    · exact hts t ht
    rcases List.mem_cons.1 ht with rfl | ht
    · simp [hnl]
    · obtain ⟨u, hu, rfl⟩ := List.mem_map.1 ht
      simpa using hbody u hu
  have heof'' : (eof'.shift k).lexeme = .eof := by simp [heof', Lexeme.mapLines]
  rw [List.map_append, List.map_singleton, ← List.cons_append, ← List.append_assoc,
    ofTokens_concat hbody' heof'', ofTokens_concat hbody heof', ← List.singleton_append,
    ← List.append_assoc, Reader.steps_append_of_ok hline, Reader.steps_behind]
  cases Reader.empty.steps body with
  | error e => rfl
  | ok r =>
      have hfinish := Reader.finish_behind script.reverse (· + k) r eof'
      rw [List.reverse_reverse] at hfinish
      exact hfinish

/-- A text behind a script and a line feed is read as it is alone, further down and behind the
statements of the script. -/
theorem Script.ofText_behind {u : String} {script : Script} (hu : Script.ofText u = .ok script)
    (v : String) {k : Nat} (hk : k = 1 + Text.lineFeeds u.toList) :
    Script.ofText (u ++ "\n" ++ v) =
      shiftOutcome k (script ++ ·.map (Term.shift k)) (Script.ofText v) := by
  cases hscan : Token.scan 1 u.toList with
  | error e =>
      rw [ofText_of_scan_error hscan] at hu
      cases hu
  | ok us =>
      obtain ⟨ts, rfl, hts⟩ := Token.eq_concat_of_scan hscan
      rw [ofText_of_scan hscan] at hu
      let nl : Token := ⟨.newline, (1 + Text.lineFeeds u.toList : Nat), "\n"⟩
      have hnl : nl.lexeme = .newline := rfl
      have htext : (u ++ "\n" ++ v).toList = u.toList ++ '\n' :: v.toList := by simp
      have hline : 1 + Text.lineFeeds u.toList + 1 = 1 + k := by omega
      have hboth : Token.scan 1 (u ++ "\n" ++ v).toList =
          (shiftOutcome k (List.map (Token.shift k)) (Token.scan 1 v.toList)).map
            (ts ++ nl :: ·) := by
        rw [htext, Token.scan_append hscan, hline, Token.scan_shift]
      cases hscan' : Token.scan 1 v.toList with
      | error e =>
          rw [hscan'] at hboth
          rw [ofText_of_scan_error hscan', ofText_of_scan_error hboth, shiftOutcome_error]
      | ok vs =>
          rw [hscan'] at hboth
          rw [ofText_of_scan hscan', ofText_of_scan hboth]
          exact ofTokens_behind k (fun t ht => (hts t ht).2) rfl hu hnl
            (Token.terminated_of_scan hscan').1

/-- What the error of a text shows does not tell how far down the text stands. -/
theorem Script.token_shift_of_ofText {text : String} {e : ScriptError}
    (h : Script.ofText text = .error e) (k : Int) : (e.fault.shift k).token = e.fault.token := by
  cases hscan : Token.scan 1 text.toList with
  | error e' =>
      rw [ofText_of_scan_error hscan] at h
      cases h
      exact congrArg Fault.token
        (Fault.mapLines_of_not_speaksOfTerms _ (Token.speaksOfTerms_of_scan hscan))
  | ok ts =>
      obtain ⟨hend, htyped⟩ := Token.terminated_of_scan hscan
      rw [ofText_of_scan hscan] at h
      exact token_mapLines_of_ofTokens hend htyped h _

/-- Scripts compose: a text behind a script and a line feed adds its statements to those of the
script, or gives its error, on lines that are further down by those of the script. -/
theorem Script.ofText_append_newline {u : String} {script : Script}
    (hu : Script.ofText u = .ok script) (v : String) :
    let k : Nat := 1 + Text.lineFeeds u.toList
    (∀ script', Script.ofText v = .ok script' →
      Script.ofText (u ++ "\n" ++ v) = .ok (script ++ script'.map (Term.shift k))) ∧
    (∀ e, Script.ofText v = .error e → ∃ e', Script.ofText (u ++ "\n" ++ v) = .error e' ∧
      e'.line = e.line + k ∧ e'.fault.description = e.fault.description ∧
      e'.fault.token = e.fault.token) := by
  intro k
  have hboth := ofText_behind hu v (k := k) rfl
  constructor
  · intro script' hv
    rw [hboth, hv, shiftOutcome_ok]
  · intro e hv
    rw [hv, shiftOutcome_error] at hboth
    exact ⟨e.shift k, hboth, rfl, Fault.description_shift k e.fault, token_shift_of_ofText hv k⟩

/-- A comment at the end of a script ends with it, and hides nothing of what follows. -/
theorem Script.ofText_append_comment :
    let u := "step \"a\" do\nrun k: -1\nend # b"
    let script : Script := [.block "a" 1 [.call "run" 2
      [.keyword "k" (.literal (.number (.int (-1))) 2) 2]] "step"]
    Script.ofText u = .ok script ∧ Script.ofText "@c [:d]" =
        .ok [.directive "c" 1 [.listNode [.atom "d" 1] 1]] ∧
      Script.ofText (u ++ "\n" ++ "@c [:d]") =
        .ok (script ++ [.directive "c" 4 [.listNode [.atom "d" 4] 4]]) := by
  intro u script
  have hu : Script.ofText u = .ok script := by cbv
  have hv : Script.ofText "@c [:d]" = .ok [.directive "c" 1 [.listNode [.atom "d" 1] 1]] := by cbv
  have hfeeds : Text.lineFeeds u.toList = 2 := by cbv
  have hboth := (ofText_append_newline hu "@c [:d]").1 _ hv
  rw [hfeeds] at hboth
  exact ⟨hu, hv, hboth⟩

end GradingScript
