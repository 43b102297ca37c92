import GradingScript.Proofs.Lists
import GradingScript.Proofs.Token.Place
import Mathlib.Data.List.Infix
import Mathlib.Data.List.TakeWhile

/-!
# Strings over several lines

A string over several lines stands between triple quotes, and all of its lines may be indented as
far as the closing quotes are.  It is read as these lines without their indentation, whatever they
begin with themselves.

* `tripleQuote?_lines` finds the closing quotes, and `blockText_body` takes the indentation away.
* `ofText_heredoc` is about the text that begins with the string.
-/

namespace GradingScript

/-- A string over several lines, as it is written. -/
structure Heredoc where
  /-- What stands behind the opening quotes, on their line. -/
  opening : List Char
  /-- What stands in front of every line, and of the closing quotes. -/
  indentation : List Char
  lines : List (List Char)
  blank_opening : ∀ c ∈ opening, Text.isBlank c = true ∧ c ≠ '\n'
  blank_indentation : ∀ c ∈ indentation, Text.isBlank c = true ∧ c ≠ '\n'
  single : ∀ line ∈ lines, '\n' ∉ line
  unquoted : ∀ line ∈ lines, ¬ Token.tripleQuote <:+: line

namespace Heredoc

/-- What stands between the line of the opening quotes and the closing quotes. -/
def body (h : Heredoc) : List Char :=
  h.lines.flatMap (fun line => h.indentation ++ line ++ ['\n']) ++ h.indentation

/-- The string as it is written. -/
def text (h : Heredoc) : String :=
  String.ofList (Token.tripleQuote ++ h.opening ++ '\n' :: h.body ++ Token.tripleQuote)

/-- The string: its lines, each with a line feed at its end. -/
def value (h : Heredoc) : String :=
  String.ofList (h.lines.flatMap fun line => line ++ ['\n'])

end Heredoc

/-! ## The closing quotes -/

namespace Quote

/-- No triple quote begins before the first quote. -/
theorem tripleQuote?_append_of_not_mem {cs : List Char} (h : '"' ∉ cs) (rest : List Char) :
    tripleQuote? (cs ++ rest) = (tripleQuote? rest).map (· + cs.length) := by
  induction cs with
  | nil => simp
  | cons c cs ih =>
      obtain ⟨hc, hcs⟩ : '"' ≠ c ∧ '"' ∉ cs := by simpa using h
      rw [List.cons_append, tripleQuote?_cons fun ds hquote => absurd hquote.symm hc, ih hcs,
        Option.map_map]
      rfl

/-- The quotes that a line ends with do not count together with those on the next one. -/
theorem tripleQuote?_line {line : List Char} (h : ¬ Token.tripleQuote <:+: line)
    (rest : List Char) :
    tripleQuote? (line ++ '\n' :: rest) = (tripleQuote? rest).map (· + (line.length + 1)) := by
  induction line with
  | nil =>
      rw [List.nil_append, tripleQuote?_cons (by simp)]
      rfl
  | cons c line ih =>
      have hquotes : ∀ ds, c = '"' → line ++ '\n' :: rest = '"' :: '"' :: ds → False := by
        rintro ds rfl hds
        match line with
        | [] => simp at hds
        | [_] => simp at hds
        | a :: b :: line =>
            obtain ⟨rfl, rfl, -⟩ : a = '"' ∧ b = '"' ∧ line ++ '\n' :: rest = ds := by
              simpa using hds
            exact h ⟨[], line, rfl⟩
      have hline : ¬ Token.tripleQuote <:+: line :=
        fun hpart => h (hpart.trans (List.suffix_cons c line).isInfix)
      rw [List.cons_append, tripleQuote?_cons hquotes, ih hline, Option.map_map]
      rfl

/-- The closing quotes are the first triple quote behind the lines. -/
theorem tripleQuote?_lines {indentation : List Char} {lines : List (List Char)}
    (hindentation : '"' ∉ indentation) (h : ∀ line ∈ lines, ¬ Token.tripleQuote <:+: line)
    (rest : List Char) :
    let body := lines.flatMap (fun line => indentation ++ line ++ ['\n']) ++ indentation
    tripleQuote? (body ++ (Token.tripleQuote ++ rest)) = some body.length := by
  intro body
  induction lines with
  | nil =>
      have hclosing : tripleQuote? (Token.tripleQuote ++ rest) = some 0 := rfl
      rw [show body = indentation from rfl, tripleQuote?_append_of_not_mem hindentation, hclosing,
        Option.map_some, Nat.zero_add]
  | cons line lines ih =>
      rw [List.forall_mem_cons] at h
      have hbody : body = indentation ++ (line ++ '\n' ::
          (lines.flatMap (fun line => indentation ++ line ++ ['\n']) ++ indentation)) := by
        simp [body]
      rw [hbody, List.append_assoc, List.append_assoc, List.cons_append,
        tripleQuote?_append_of_not_mem hindentation, tripleQuote?_line h.1, ih h.2,
        Option.map_some, Option.map_some]
      simp only [List.length_append, List.length_cons]
      congr 1
      omega

/-! ## The lines -/

theorem unindent_append (indentation line : List Char) :
    unindent indentation (indentation ++ line) = line := by
  rw [unindent, if_pos (by simp), List.drop_left]

end Quote

namespace Heredoc

variable (h : Heredoc)

theorem not_mem_indentation : '\n' ∉ h.indentation :=
  fun hmem => (h.blank_indentation '\n' hmem).2 rfl

theorem quote_not_mem_indentation : '"' ∉ h.indentation := by
  intro hmem
  exact absurd (h.blank_indentation '"' hmem).1 (by decide)

/-- The lines between the quotes are those of the string, indented, and the one of the closing
quotes. -/
theorem lines_body :
    Text.lines h.body = h.lines.map (h.indentation ++ ·) ++ [h.indentation] := by
  have hbody : h.body =
      (h.lines.map (h.indentation ++ ·)).flatMap (fun line => line ++ ['\n']) ++ h.indentation := by
    simp [body, List.flatMap_map]
  have hlines : ∀ line ∈ h.lines.map (h.indentation ++ ·), '\n' ∉ line := by
    simp only [List.forall_mem_map, List.mem_append, not_or]
    exact fun line hline => ⟨h.not_mem_indentation, h.single line hline⟩
  rw [Text.lines, hbody, Text.split_flatMap_append hlines,
    Text.split_of_not_mem h.not_mem_indentation]

theorem blockText_body : String.ofList (Quote.blockText h.body) = h.value := by
  have hblank : Text.isBlankLine h.indentation = true :=
    List.all_eq_true.2 fun c hc => (h.blank_indentation c hc).1
  simp only [Quote.blockText, h.lines_body, List.getLastD_concat, hblank, if_true,
    List.dropLast_concat, List.flatMap_map, Quote.unindent_append]
  rfl

theorem lineFeeds_body : Text.lineFeeds h.body = h.lines.length := by
  have hlength := Text.length_split '\n' h.body
  have hlines := congrArg List.length h.lines_body
  simp only [Text.lines, hlength, List.length_append, List.length_map, List.length_singleton,
    Nat.add_right_cancel_iff] at hlines
  exact hlines

/-! ## The text -/

/-- What is written behind the first quote. -/
def behindQuote : List Char :=
  '"' :: '"' :: (h.opening ++ '\n' :: (h.body ++ Token.tripleQuote))

theorem text_eq : h.text = String.ofList ('"' :: h.behindQuote) := by
  simp [text, behindQuote, Token.tripleQuote]

theorem lineFeeds_text : Text.lineFeeds h.text.toList = h.lines.length + 1 := by
  have hopening : Text.lineFeeds h.opening = 0 :=
    List.count_eq_zero.2 fun hmem => (h.blank_opening '\n' hmem).2 rfl
  have hquotes : Text.lineFeeds Token.tripleQuote = 0 := rfl
  have hfeed : Text.lineFeeds ('\n' :: (h.body ++ Token.tripleQuote)) =
      Text.lineFeeds (h.body ++ Token.tripleQuote) + 1 := List.count_cons_self
  rw [text, String.toList_ofList]
  simp only [Text.lineFeeds_append, hopening, hquotes, hfeed, h.lineFeeds_body,
    List.append_assoc, List.cons_append]
  omega

theorem read_behindQuote (rest : List Char) :
    Piece.read '"' (h.behindQuote ++ rest) =
      .ok ⟨some (.ofString h.value), "\"\"\"", h.behindQuote.length⟩ := by
  have hopening : (h.opening ++ '\n' :: (h.body ++ (Token.tripleQuote ++ rest))).takeWhile
      (· ≠ '\n') = h.opening :=
    Text.takeWhile_run (fun c hc => decide_eq_true (h.blank_opening c hc).2) (by simp)
  have hblank : Text.isBlankLine h.opening = true :=
    List.all_eq_true.2 fun c hc => (h.blank_opening c hc).1
  have hclosing : Quote.tripleQuote? (h.body ++ (Token.tripleQuote ++ rest)) =
      some h.body.length :=
    Quote.tripleQuote?_lines h.quote_not_mem_indentation h.unquoted rest
  have hlength : 2 + h.opening.length + 1 + h.body.length + 3 = h.behindQuote.length := by
    simp only [behindQuote, Token.tripleQuote, List.length_cons, List.length_append,
      List.length_nil]
    omega
  have hcs : h.behindQuote ++ rest =
      '"' :: '"' :: (h.opening ++ '\n' :: (h.body ++ (Token.tripleQuote ++ rest))) := by
    simp [behindQuote]
  rw [hcs]
  show Piece.readHeredoc _ = _
  simp only [Piece.readHeredoc, hopening, List.drop_left, List.take_left, hblank, if_true,
    hclosing, h.blockText_body, hlength]

end Heredoc

namespace Token

/-- A text that begins with a string over several lines gives the string, and behind it what the
rest of the text gives alone, further down by its lines and that of the opening quotes. -/
theorem ofText_heredoc (h : Heredoc) (rest : String) :
    let k : Nat := h.lines.length + 1
    ofText (h.text ++ rest) =
      (shiftOutcome k (List.map (shift k)) (ofText rest)).map
        (⟨.ofString h.value, 1, "\"\"\""⟩ :: ·) := by
  intro k
  have hfeeds : Text.lineFeeds ('"' :: h.behindQuote) = k := by
    have htext := h.lineFeeds_text
    rwa [h.text_eq, String.toList_ofList] at htext
  rw [h.text_eq, ofText_of_read (h.read_behindQuote rest.toList), hfeeds]

/-- Lines that are empty, begin with blanks of their own, or end with quotes, and text right behind
the closing quotes. -/
theorem ofText_heredoc_indented :
    let h : Heredoc :=
      { opening := [' ']
        indentation := ['\t', ' ']
        lines := [[], [' ', ' ', 'a'], ['b', '"', '"']]
        blank_opening := List.forall_mem_singleton.2 (by decide)
        blank_indentation :=
          List.forall_mem_cons.2 ⟨by decide, List.forall_mem_singleton.2 (by decide)⟩
        single := by decide
        unquoted := by decide }
    h.text = "\"\"\" \n\t \n\t   a\n\t b\"\"\n\t \"\"\"" ∧ h.value = "\n  a\nb\"\"\n" ∧
      ofText "\"\"\" \n\t \n\t   a\n\t b\"\"\n\t \"\"\"\"c\"" =
        .ok [⟨.ofString "\n  a\nb\"\"\n", 1, "\"\"\""⟩, ⟨.ofString "c", 5, "\"c\""⟩,
          ⟨.eof, 5, ""⟩] := by
  intro h
  have htext : h.text = "\"\"\" \n\t \n\t   a\n\t b\"\"\n\t \"\"\"" := by decide
  have hvalue : h.value = "\n  a\nb\"\"\n" := by decide
  have hrest : ofText "\"c\"" = .ok [⟨.ofString "c", 1, "\"c\""⟩, ⟨.eof, 1, ""⟩] := by cbv
  have hboth := ofText_heredoc h "\"c\""
  rw [hrest, hvalue, htext] at hboth
  exact ⟨htext, hvalue, hboth⟩

end Token

end GradingScript
