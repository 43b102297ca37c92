import GradingScript.Proofs.Token.Lines
import GradingScript.Proofs.Token.Spans

/-!
# Tokens and what follows them

A token is read from some place of a text, and what stands behind it is read as it is alone, further
down by the line feeds of the token.

* `ofText_of_read` is about a text that begins with a token.
* `readBetween_of_ofText` finds the place of any token of a text.
-/

namespace GradingScript.Token

/-- Behind a piece that is a token, the text is read on. -/
theorem scan_of_read {line : Nat} {first : Char} {cs rest : List Char} {lexeme : Lexeme}
    {written : String} (h : Piece.read first (cs ++ rest) = .ok ⟨some lexeme, written, cs.length⟩) :
    scan line (first :: cs ++ rest) =
      (scan (line + Text.lineFeeds (first :: cs)) rest).map (⟨lexeme, line, written⟩ :: ·) := by
  rw [List.cons_append, scan_cons_ok h, List.take_left, List.drop_left]
  rfl

/-- A text that begins with a token gives that token, and behind it what the rest of the text gives
alone, on lines that are further down by the line feeds of the token. -/
theorem ofText_of_read {first : Char} {cs : List Char} {rest : String} {lexeme : Lexeme}
    {written : String}
    (h : Piece.read first (cs ++ rest.toList) = .ok ⟨some lexeme, written, cs.length⟩) :
    let k : Nat := Text.lineFeeds (first :: cs)
    ofText (String.ofList (first :: cs) ++ rest) =
      (shiftOutcome k (List.map (shift k)) (ofText rest)).map (⟨lexeme, 1, written⟩ :: ·) := by
  intro k
  rw [ofText, String.toList_append, String.toList_ofList, scan_of_read h, scan_shift]
  rfl

/-- Behind a token on one line the lines stay as they are. -/
theorem ofText_of_read_line {first : Char} {cs : List Char} {rest : String} {lexeme : Lexeme}
    {written : String}
    (h : Piece.read first (cs ++ rest.toList) = .ok ⟨some lexeme, written, cs.length⟩)
    (hline : '\n' ∉ first :: cs) :
    ofText (String.ofList (first :: cs) ++ rest) =
      (ofText rest).map (⟨lexeme, 1, written⟩ :: ·) := by
  have hfeeds : Text.lineFeeds (first :: cs) = 0 := List.count_eq_zero.2 hline
  rw [ofText, String.toList_append, String.toList_ofList, scan_of_read h, hfeeds]
  rfl

/-- The token `t` is read from a place in a text: what stands in front of the place falls into gaps
and the spans of the tokens `us`, and what stands behind the piece there gives the tokens `vs`. -/
def ReadBetween (us vs : List Token) (t : Token) (cs : List Char) : Prop :=
  ∃ before first rest piece, cs = before ++ first :: rest ∧
    CutUpTo before us (first :: rest) ∧ Piece.read first rest = .ok piece ∧
    ofPiece? (1 + Text.lineFeeds before) piece = some t ∧
    scan (1 + Text.lineFeeds before + Text.lineFeeds (first :: rest.take piece.more))
      (rest.drop piece.more) = .ok vs

/-- Every token of a text is read from a place in it, whatever was read before. -/
theorem CutUpTo.readBetween {before cs : List Char} {ts us vs : List Token} {t : Token}
    (h : CutUpTo before ts cs)
    (hscan : Token.scan (1 + Text.lineFeeds before) cs = .ok (us ++ t :: vs))
    (ht : t.lexeme ≠ .eof) : ReadBetween (ts ++ us) vs t (before ++ cs) := by
  generalize hline : 1 + Text.lineFeeds before = line at hscan
  generalize hws : us ++ t :: vs = ws at hscan
  induction hscan using scan_induction generalizing before ts us with
  | nil line =>
      cases us with
      | nil =>
          cases hws
          exact absurd rfl ht
      | cons u us => simp at hws
  | cons line first cs piece ws hpiece hbehind ih =>
      subst hline
      have hnext := h.piece hpiece
      have happend : before ++ first :: cs.take piece.more ++ cs.drop piece.more =
          before ++ first :: cs := by simp
      -- The token is the first piece, or it stands behind it.
      cases htoken : ofPiece? (1 + Text.lineFeeds before) piece with
      | none =>
          rw [htoken, Option.toList_none] at hws hnext
          rw [List.append_nil] at hnext
          subst hws
          rw [← happend]
          exact ih hnext (by simp [Nat.add_assoc]) rfl
      | some u =>
          rw [htoken, Option.toList_some, List.singleton_append] at hws
          rw [htoken, Option.toList_some] at hnext
          cases us with
          | nil =>
              obtain ⟨rfl, rfl⟩ := List.cons.inj hws
              rw [List.append_nil]
              exact ⟨before, first, cs, piece, rfl, h, hpiece, htoken, hbehind⟩
          | cons u' us =>
              obtain ⟨rfl, rfl⟩ := List.cons.inj hws
              have hlater := ih hnext (by simp [Nat.add_assoc]) rfl
              rwa [happend, List.append_assoc, List.singleton_append] at hlater

theorem readBetween_of_ofText {text : String} {us vs : List Token} {t : Token}
    (h : ofText text = .ok (us ++ t :: vs)) (ht : t.lexeme ≠ .eof) :
    ReadBetween us vs t text.toList :=
  (cutUpTo_nil text.toList).readBetween h ht

end GradingScript.Token
