import GradingScript.Proofs.Grammar.Prefix
import GradingScript.Proofs.Token.Scanned

/-!
# Acceptance

The reader accepts exactly the scripts that the grammar derives, with the statements that the
derivation builds.  Since reading is a function, no tokens spell two scripts.
-/

namespace GradingScript.Grammar

/-- Up to the end of the script tokens are read one by one. -/
theorem ofTokens_concat {ts : List Token} {eof : Token} (hts : ∀ t ∈ ts, t.lexeme ≠ .eof)
    (heof : eof.lexeme = .eof) :
    Script.ofTokens (ts ++ [eof]) =
      match Reader.empty.steps ts with
      | .error e => .error e
      | .ok r => r.finish eof := by
  have hne : (ts ++ [eof]).isEmpty = false := by simp
  rw [Script.ofTokens, hne, if_neg Bool.false_ne_true]
  exact Reader.run_concat hts heof

/-- Without open blocks the statements so far are a body, wherever the last one may end. -/
theorem Reads.body {r : Reader} {ts : List Token} {statements : List Term} (h : Reads r ts)
    (hblocks : r.blocks = []) (hsettled : r.settled? = some statements) : Body ts statements := by
  have hsettled := h.settled hsettled
  rw [hblocks] at hsettled
  rcases hsettled with hopening | ⟨os, us, before, statement, rfl, rfl, hopening, hstatement⟩
  · cases hopening with
    | script hlead => exact hlead.body
  · cases hopening with
    | script hlead => exact hlead.body_concat hstatement

/-- The script that a reader finishes is a body. -/
theorem Reads.body_of_finish {r : Reader} {ts : List Token} {script : Script} {eof : Token}
    (h : Reads r ts) (hfinish : r.finish eof = .ok script) : Body ts script := by
  obtain ⟨hblocks, hsettled⟩ := Reader.settled_of_finish hfinish
  exact h.body hblocks hsettled

/-- Tokens that spell a script are read as that script. -/
theorem ofTokens_of_body {ts : List Token} {script : Script} {eof : Token}
    (hts : ∀ t ∈ ts, t.lexeme ≠ .eof) (heof : eof.lexeme = .eof) (hbody : Body ts script) :
    Script.ofTokens (ts ++ [eof]) = .ok script := by
  obtain ⟨r, hread, hblocks, hsettled⟩ := hbody.read .empty rfl
  rw [ofTokens_concat hts heof, hread]
  exact Reader.finish_of_settled hsettled hblocks

/-- Tokens that are read as a script are all taken before the reader finishes. -/
theorem exists_steps_of_ofTokens {ts : List Token} {script : Script} {eof : Token}
    (hts : ∀ t ∈ ts, t.lexeme ≠ .eof) (heof : eof.lexeme = .eof)
    (hread : Script.ofTokens (ts ++ [eof]) = .ok script) :
    ∃ r, Reader.empty.steps ts = .ok r ∧ r.finish eof = .ok script := by
  rw [ofTokens_concat hts heof] at hread
  cases hsteps : Reader.empty.steps ts with
  | error e => simp [hsteps] at hread
  | ok r => exact ⟨r, rfl, by simpa [hsteps] using hread⟩

/-- Tokens that are read as a script spell it. -/
theorem body_of_ofTokens {ts : List Token} {script : Script} {eof : Token}
    (hts : ∀ t ∈ ts, t.lexeme ≠ .eof) (heof : eof.lexeme = .eof)
    (hread : Script.ofTokens (ts ++ [eof]) = .ok script) : Body ts script := by
  obtain ⟨r, hsteps, hfinish⟩ := exists_steps_of_ofTokens hts heof hread
  exact (Reads.empty.steps hsteps).body_of_finish hfinish

theorem spells_of_ofTokens {ts : List Token} {script : Script} (hend : Terminated ts)
    (hread : Script.ofTokens ts = .ok script) : Spells ts script := by
  obtain ⟨body, eof, rfl, heof, hbody⟩ := hend
  exact .mk (body_of_ofTokens hbody heof hread) heof

/-- The script of a text is spelled by the tokens of the text. -/
theorem spells_of_ofText {text : String} {script : Script} (h : Script.ofText text = .ok script) :
    ∃ ts, Token.scan 1 text.toList = .ok ts ∧ Spells ts script := by
  cases hscan : Token.scan 1 text.toList with
  | error e =>
      rw [Script.ofText_of_scan_error hscan] at h
      cases h
  | ok ts =>
      rw [Script.ofText_of_scan hscan] at h
      exact ⟨ts, rfl, spells_of_ofTokens (Token.terminated_of_scan hscan).1 h⟩

/-- The reader accepts the scripts that the grammar derives and no others, and reads them as they
are derived; there is no more than one way to derive a script.  Anything else is refused. -/
theorem ofTokens_eq_ok_iff_spells {ts : List Token} (hend : Terminated ts) :
    (∀ script, Script.ofTokens ts = .ok script ↔ Spells ts script) ∧
      (∀ script script', Spells ts script → Spells ts script' → script = script') ∧
      ((¬ ∃ script, Spells ts script) → ∃ e, Script.ofTokens ts = .error e) := by
  obtain ⟨body, eof, rfl, heof, hbody⟩ := hend
  have hiff : ∀ script, Script.ofTokens (body ++ [eof]) = .ok script ↔
      Spells (body ++ [eof]) script := by
    intro script
    constructor
    · intro hread
      exact .mk (body_of_ofTokens hbody heof hread) heof
    · intro hspells
      generalize hts : body ++ [eof] = ts at hspells
      cases hspells with
      | @mk body' eof' _ hbody' heof' =>
          obtain ⟨rfl, rfl⟩ : body = body' ∧ eof = eof' := by simpa using hts
          exact ofTokens_of_body hbody heof hbody'
  refine ⟨hiff, ?_, ?_⟩
  · intro script script' hscript hscript'
    have hread := (hiff script).2 hscript
    rw [(hiff script').2 hscript'] at hread
    exact (Except.ok.inj hread).symm
  · intro hnone
    cases hread : Script.ofTokens (body ++ [eof]) with
    | error e => exact ⟨e, rfl⟩
    | ok script => exact absurd ⟨script, (hiff script).1 hread⟩ hnone

/-- A block with a list that ends in a comma, a key and a minus sign. -/
theorem spells_block_with_list :
    let ts : List Token :=
      [⟨.name "step", 1, "step"⟩, ⟨.ofString "a", 1, "\"a\""⟩, ⟨.do, 1, "do"⟩, ⟨.newline, 1, "\n"⟩,
        ⟨.name "run", 2, "run"⟩, ⟨.mark .openBracket, 2, "["⟩, ⟨.key "k", 2, "k:"⟩,
        ⟨.mark .minus, 2, "-"⟩, ⟨.ofNumber (.int 1), 2, "1"⟩, ⟨.mark .comma, 2, ","⟩,
        ⟨.newline, 2, "\n"⟩, ⟨.mark .closeBracket, 3, "]"⟩, ⟨.newline, 3, "\n"⟩, ⟨.end, 4, "end"⟩,
        ⟨.eof, 4, ""⟩]
    let item : Term := .keyword "k" (.literal (.number (.int (-1))) 2) 2
    Terminated ts ∧ Spells ts [.block "a" 1 [.call "run" 2 [.listNode [item] 2]] "step"] := by
  intro ts item
  have hend : Terminated ts := by
    refine ⟨ts.dropLast, ⟨.eof, 4, ""⟩, rfl, rfl, ?_⟩
    simp [ts, Lexeme.ofString, Lexeme.ofNumber]
  exact ⟨hend, ((ofTokens_eq_ok_iff_spells hend).1 _).1 rfl⟩

end GradingScript.Grammar
