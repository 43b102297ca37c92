import GradingScript.Proofs.Token.Spans
import GradingScript.Proofs.Token.Truncation
import Mathlib

/-!
# Spacing between tokens

What stands between two tokens does not matter.  The spans of the tokens of a text can be written
with other gaps between them, and the same tokens are read, on other lines.  Between two spans a
blank must stand, since a token may go on with the one behind it: a number with a word, a name with
a colon, a quote with another one.

* `spans` are the spans of a text, and `Respaced` texts have gaps of any kind between them.
* `scan_gap` says that nothing is read from a gap.
* `ofText_respaced` goes through the spans one by one.
-/

namespace GradingScript.Token

open Piece

/-! ## Spans -/

/-- The spans of the tokens of a text, in order.  The end of the script has the empty span. -/
def spans : List Char → List (List Char)
  | [] => [[]]
  | first :: cs =>
    match read first cs with
    | .error _ => []
    | .ok piece =>
      match piece.lexeme? with
      | none => spans (cs.drop piece.more)
      | some _ => (first :: cs.take piece.more) :: spans (cs.drop piece.more)
termination_by cs => cs.length
decreasing_by
  all_goals
    simp only [List.length_drop, List.length_cons]
    omega

@[simp] theorem spans_nil : spans [] = [[]] := by
  rw [spans]

theorem spans_cons_gap {first : Char} {cs : List Char} {piece : Piece}
    (hread : read first cs = .ok piece) (hgap : piece.lexeme? = none) :
    spans (first :: cs) = spans (cs.drop piece.more) := by
  rw [spans, hread]
  simp only [hgap]

theorem spans_cons_token {first : Char} {cs : List Char} {piece : Piece} {lexeme : Lexeme}
    (hread : read first cs = .ok piece) (htoken : piece.lexeme? = some lexeme) :
    spans (first :: cs) = (first :: cs.take piece.more) :: spans (cs.drop piece.more) := by
  rw [spans, hread]
  simp only [htoken]

/-- Spans one behind the other, each behind a gap that begins with a blank. -/
inductive Spaced : List (List Char) → List Char → Prop
  | nil : Spaced [] []
  | cons {blank : Char} {gap span cs : List Char} {behind : List (List Char)}
      (hblank : blank ∈ [' ', '\t', '\r']) (hgap : Gap gap (span ++ cs)) (h : Spaced behind cs) :
      Spaced (span :: behind) (blank :: (gap ++ (span ++ cs)))

/-- Spans with gaps between them that begin with a blank, and any gap in front of the first. -/
inductive Respaced : List (List Char) → List Char → Prop
  | mk {gap span cs : List Char} {behind : List (List Char)} (hgap : Gap gap (span ++ cs))
      (h : Spaced behind cs) : Respaced (span :: behind) (gap ++ (span ++ cs))

theorem Spaced.respaced {all : List (List Char)} {cs : List Char} (h : Spaced all cs)
    (hne : all ≠ []) : Respaced all cs := by
  cases h with
  | nil => exact absurd rfl hne
  | cons hblank hgap h => exact .mk (.blank hblank hgap) h

/-- Behind a span stands a blank, or nothing. -/
theorem Spaced.head {all : List (List Char)} {cs : List Char} (h : Spaced all cs) :
    ∀ c ∈ cs.head?, c ∈ [' ', '\t', '\r'] := by
  cases h with
  | nil => simp
  | cons hblank => simpa using hblank

/-- A token stays as it is in front of a blank. -/
theorem keptBy_of_blank {piece : Piece} {lexeme : Lexeme} {rest : List Char}
    (htoken : piece.lexeme? = some lexeme) (h : ∀ c ∈ rest.head?, c ∈ [' ', '\t', '\r']) :
    piece.KeptBy rest := by
  refine .inr ⟨?_, lexeme, htoken, fun _ _ => ?_⟩
  · intro c hc
    have hblank := h c hc
    simp only [List.mem_cons, List.not_mem_nil, or_false] at hblank
    rcases hblank with rfl | rfl | rfl <;> decide
  · cases rest with
    | nil => rfl
    | cons c rest =>
        have hblank := h c rfl
        simp only [List.mem_cons, List.not_mem_nil, or_false] at hblank
        rcases hblank with rfl | rfl | rfl <;> rfl

/-! ## Gaps -/

theorem scan_cons_gap {line more : Nat} {first : Char} {cs : List Char}
    (h : read first cs = .ok (Piece.gap more)) :
    scan line (first :: cs) =
      scan (line + Text.lineFeeds (first :: cs.take more)) (cs.drop more) := by
  rw [scan_cons_ok h]
  cases hscan : scan (line + Text.lineFeeds (first :: cs.take more)) (cs.drop more) <;>
    simp [Piece.gap, hscan, ofPiece?, Except.map]

/-- Nothing is read from a gap. -/
theorem scan_gap {gap rest : List Char} (h : Gap gap rest) (line : Nat) :
    scan line (gap ++ rest) = scan (line + Text.lineFeeds gap) rest := by
  induction h generalizing line with
  | nil => rfl
  | @blank c gap rest hc _ ih =>
      have hread : read c (gap ++ rest) = .ok (Piece.gap 0) := by
        simp only [List.mem_cons, List.not_mem_nil, or_false] at hc
        rcases hc with rfl | rfl | rfl <;> rfl
      rw [List.cons_append, scan_cons_gap hread, List.drop_zero, ih, List.take_zero, Nat.add_assoc,
        ← Text.lineFeeds_append]
      rfl
  | @comment text gap rest htext hend _ ih =>
      have htake : (text ++ (gap ++ rest)).takeWhile (· ≠ '\n') = text := by
        have hends : ∀ c ∈ (gap ++ rest).head?, decide (c ≠ '\n') = false := by
          intro c hc
          simp [hend c hc]
        have htext' : ∀ c ∈ text, decide (c ≠ '\n') = true := by
          intro c hc
          simpa using fun heq : c = '\n' => htext (heq ▸ hc)
        exact Text.takeWhile_run htext' hends
      have hread : read '#' (text ++ (gap ++ rest)) = .ok (Piece.gap text.length) := by
        show Except.ok (Piece.gap ((text ++ (gap ++ rest)).takeWhile (· ≠ '\n')).length) = _
        rw [htake]
      rw [List.cons_append, List.append_assoc, scan_cons_gap hread, List.drop_left, ih,
        List.take_left, Nat.add_assoc, ← Text.lineFeeds_append]
      rfl
  | @hiddenLineFeed gap rest _ ih =>
      have hread : read '\\' ('\n' :: (gap ++ rest)) = .ok (Piece.gap 1) := rfl
      rw [List.cons_append, List.cons_append, scan_cons_gap hread, List.drop_one, List.tail_cons,
        ih, Nat.add_assoc, ← Text.lineFeeds_append]
      rfl

/-! ## Texts -/

theorem spans_ne_nil_of_scan {line : Nat} {cs : List Char} {ts : List Token}
    (h : scan line cs = .ok ts) : spans cs ≠ [] := by
  induction h using scan_induction with
  | nil line => simp
  | cons line first cs piece us hpiece hbehind ih =>
      cases htoken : piece.lexeme? with
      | none =>
          rw [spans_cons_gap hpiece htoken]
          exact ih
      | some lexeme => simp [spans_cons_token hpiece htoken]

/-- The spans are what the tokens are read from. -/
theorem forall₂_readFrom_spans {before cs : List Char} {ts : List Token}
    (h : scan (1 + Text.lineFeeds before) cs = .ok ts) :
    List.Forall₂ (fun t span => ∃ before, t.ReadFrom before span) ts (spans cs) := by
  generalize hline : 1 + Text.lineFeeds before = line at h
  induction h using scan_induction generalizing before with
  | nil line =>
      rw [spans_nil]
      refine .cons ⟨before, ?_⟩ .nil
      exact ⟨congrArg Nat.cast hline.symm, fun _ => rfl, by simp [tripleQuote], by simp⟩
  | cons line first cs piece us hpiece _ ih =>
      subst hline
      have hline : 1 + Text.lineFeeds (before ++ first :: cs.take piece.more) =
          1 + Text.lineFeeds before + Text.lineFeeds (first :: cs.take piece.more) := by
        simp [Nat.add_assoc]
      have hbehind := ih hline
      cases htoken : piece.lexeme? with
      | none =>
          rw [spans_cons_gap hpiece htoken]
          simpa [ofPiece?, htoken] using hbehind
      | some lexeme =>
          rw [spans_cons_token hpiece htoken, ofPiece?, htoken]
          exact .cons ⟨before, readFrom_of_read hpiece htoken before⟩ hbehind

/-- What a token is, wherever it stands. -/
def content (t : Token) : Lexeme × String :=
  (t.lexeme, t.text)

theorem scan_respaced {line : Nat} {cs : List Char} {ts : List Token} (h : scan line cs = .ok ts)
    {cs' : List Char} (hspaced : Respaced (spans cs) cs') (line' : Nat) :
    ∃ us, scan line' cs' = .ok us ∧ us.map content = ts.map content := by
  induction h using scan_induction generalizing cs' line' with
  | nil line =>
      rw [spans_nil] at hspaced
      cases hspaced with
      | mk hgap hrest =>
          cases hrest with
          | nil =>
              rw [scan_gap hgap]
              exact ⟨_, scan_nil _, rfl⟩
  | cons line first cs piece ts hpiece hbehind ih =>
      cases htoken : piece.lexeme? with
      | none =>
          rw [spans_cons_gap hpiece htoken] at hspaced
          simpa [ofPiece?, htoken] using ih hspaced line'
      | some lexeme =>
          rw [spans_cons_token hpiece htoken] at hspaced
          cases hspaced with
          | @mk gap _ rest _ hgap hrest =>
              have hlength : (cs.take piece.more).length = piece.more :=
                List.length_take_of_le (Piece.read_append hpiece (.inl ⟨[], rfl⟩)).2
              have hread := (Piece.read_append (Piece.read_take hpiece)
                (keptBy_of_blank htoken hrest.head)).1
              obtain ⟨us, hus, hcontent⟩ := ih
                (hrest.respaced (spans_ne_nil_of_scan hbehind))
                (line' + Text.lineFeeds gap + Text.lineFeeds (first :: cs.take piece.more))
              refine ⟨(ofPiece? (line' + Text.lineFeeds gap) piece).toList ++ us, ?_, ?_⟩
              · rw [scan_gap hgap, List.cons_append, scan_cons_ok hread,
                  List.take_left' hlength, List.drop_left' hlength, hus]
                rfl
              · simp [ofPiece?, htoken, content, hcontent]

/-- The spans of a text with other gaps between them are read as the same tokens. -/
theorem ofText_respaced {text text' : String} {ts : List Token} (h : ofText text = .ok ts)
    (hspaced : Respaced (spans text.toList) text'.toList) :
    ∃ us, ofText text' = .ok us ∧ us.map content = ts.map content :=
  scan_respaced h hspaced 1

/-- A key keeps its colon, an atom its own, and a comment ends in front of a line feed. -/
theorem ofText_respaced_key :
    let text := "k:\n1,a:b"
    let text' := "\\\n k:\t# c\n 1 \\\n, a :b #"
    let ts : List Token := [⟨.key "k", 1, "k:"⟩, ⟨.newline, 1, "\n"⟩,
      ⟨.ofNumber (.int 1), 2, "1"⟩, ⟨.mark .comma, 2, ","⟩, ⟨.name "a", 2, "a"⟩,
      ⟨.atom "b", 2, ":b"⟩, ⟨.eof, 2, ""⟩]
    ofText text = .ok ts ∧ Respaced (spans text.toList) text'.toList ∧
      ∃ us, ofText text' = .ok us ∧ us.map content = ts.map content := by
  intro text text' ts
  have htokens : ofText text = .ok ts := by cbv
  have hspans : spans text.toList =
      [['k', ':'], ['\n'], ['1'], [','], ['a'], [':', 'b'], []] := by cbv
  have hspaced : Respaced (spans text.toList) text'.toList := by
    rw [hspans]
    show Respaced _ "\\\n k:\t# c\n 1 \\\n, a :b #".toList
    have hatom : Spaced [[':', 'b'], []] (" :b #".toList) :=
      @Spaced.cons ' ' [] [':', 'b'] _ _ (by simp) (.nil _)
        (@Spaced.cons ' ' ['#'] [] _ _ (by simp)
          (@Gap.comment [] [] _ (by simp) (by simp) (.nil _)) .nil)
    have hcomma : Spaced [[','], ['a'], [':', 'b'], []] (" \\\n, a :b #".toList) :=
      @Spaced.cons ' ' ['\\', '\n'] [','] _ _ (by simp) (.hiddenLineFeed (.nil _))
        (@Spaced.cons ' ' [] ['a'] _ _ (by simp) (.nil _) hatom)
    have hnewline : Spaced [['\n'], ['1'], [','], ['a'], [':', 'b'], []]
        ("\t# c\n 1 \\\n, a :b #".toList) :=
      @Spaced.cons '\t' ['#', ' ', 'c'] ['\n'] _ _ (by simp)
        (@Gap.comment [' ', 'c'] [] _ (by simp) (by simp) (.nil _))
        (@Spaced.cons ' ' [] ['1'] _ _ (by simp) (.nil _) hcomma)
    exact @Respaced.mk ['\\', '\n', ' '] ['k', ':'] _ _
      (.hiddenLineFeed (.blank (by simp) (.nil _))) hnewline
  exact ⟨htokens, hspaced, ofText_respaced htokens hspaced⟩

end GradingScript.Token
