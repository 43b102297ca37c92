import GradingScript.Proofs.Token.Scanned

/-!
# The spans of tokens

A text falls into the spans of its tokens and the gaps between them, so that nothing of it is lost.
A gap is made of blanks, comments, and line feeds hidden by a backslash.  The line of a token counts
the line feeds in front of its span, whatever they belong to: the end of a statement, a gap, or a
string over several lines.  The same holds of a text that is no script, up to the place where its
error is found.

* `Cut` is the division into gaps and spans, with the line and the text of every token.
* `faithful_read` says that one piece accounts for all that it takes.
* `ofText_spans` puts the pieces together.
-/

namespace GradingScript.Token

/-! ## Gaps and spans -/

/-- What stands between two tokens, in front of the rest of the text.  A comment reaches up to a
line feed or the end of the text. -/
inductive Gap : List Char → List Char → Prop
  | nil (rest : List Char) : Gap [] rest
  | blank {c : Char} {gap rest : List Char} (hc : c ∈ [' ', '\t', '\r']) (h : Gap gap rest) :
      Gap (c :: gap) rest
  | comment {text gap rest : List Char} (htext : '\n' ∉ text)
      (hend : ∀ c ∈ (gap ++ rest).head?, c = '\n') (h : Gap gap rest) :
      Gap ('#' :: (text ++ gap)) rest
  | hiddenLineFeed {gap rest : List Char} (h : Gap gap rest) : Gap ('\\' :: '\n' :: gap) rest

/-- What a string over several lines begins and ends with. -/
def tripleQuote : List Char :=
  ['"', '"', '"']

/-- The token `t` is read from the span `span`, with `before` in front of it.  The text of a token
is its span, but for a string over several lines, whose text is its quotes alone.  Only the end of
the script takes no room. -/
structure ReadFrom (before span : List Char) (t : Token) : Prop where
  line : t.line = (1 + Text.lineFeeds before : Nat)
  text : ¬ tripleQuote <+: span → t.text.toList = span
  block : tripleQuote <+: span → t.text.toList = tripleQuote ∧
    ∃ value inner, t.lexeme = .ofString value ∧ span = tripleQuote ++ inner ++ tripleQuote
  empty : span = [] ↔ t.lexeme = .eof

/-- The text `before`, with `rest` behind it, falls into gaps and the spans of the tokens `ts`: a
gap and a span for each token, in order. -/
inductive Cut : List Char → List Token → List Char → Prop
  | start (rest : List Char) : Cut [] [] rest
  | token {before gap span rest : List Char} {ts : List Token} {t : Token}
      (h : Cut before ts (gap ++ (span ++ rest))) (hgap : Gap gap (span ++ rest))
      (ht : t.ReadFrom (before ++ gap) span) : Cut (before ++ gap ++ span) (ts ++ [t]) rest

/-- The text `before`, with `rest` behind it, falls into gaps and the spans of the tokens `ts`, and
a gap behind the last of them. -/
def CutUpTo (before : List Char) (ts : List Token) (rest : List Char) : Prop :=
  ∃ spans gap, before = spans ++ gap ∧ Cut spans ts (gap ++ rest) ∧ Gap gap rest

/-- What a fault speaks of begins the text: the character that begins no token, the digits of a
number, or the opening quotes. -/
def Begins : Fault → List Char → Prop
  | .character c, text => text.head? = some c
  | .number digits, text => (∀ c ∈ text.head?, c.isDigit = true) ∧ digits.toList <+: text
  | .openString, text => text.head? = some '"' ∧ ¬ tripleQuote <+: text
  | .openHeredoc, text => tripleQuote <+: text
  | .heredocStart, text => tripleQuote <+: text
  | _, _ => False

/-- Two gaps in a row are a gap. -/
theorem Gap.append {gap gap' rest : List Char} (h : Gap gap (gap' ++ rest)) (h' : Gap gap' rest) :
    Gap (gap ++ gap') rest := by
  generalize hbehind : gap' ++ rest = behind at h
  induction h with
  | nil => exact h'
  | blank hc _ ih => exact .blank hc (ih hbehind)
  | comment htext hend _ ih =>
      subst hbehind
      rw [List.cons_append, List.append_assoc]
      exact .comment htext (by rwa [List.append_assoc]) (ih rfl)
  | hiddenLineFeed _ ih => exact .hiddenLineFeed (ih hbehind)

end GradingScript.Token

namespace GradingScript.Piece

open Token

/-! ## Pieces -/

/-- A piece accounts for the characters `span` that it takes: they are a gap, or the text of its
token. -/
def AccountsFor (span rest : List Char) (piece : Piece) : Prop :=
  match piece.lexeme? with
  | none => Gap span rest
  | some lexeme =>
    (¬ tripleQuote <+: span → piece.text.toList = span) ∧
      (tripleQuote <+: span → piece.text.toList = tripleQuote ∧
        ∃ value inner, lexeme = .ofString value ∧ span = tripleQuote ++ inner ++ tripleQuote)

/-- What reading a piece gives, at the text that it begins: a piece that accounts for what it
takes, or a fault that speaks of what the text begins with. -/
def Faithful (first : Char) (cs : List Char) : Except Fault Piece → Prop
  | .ok piece => piece.AccountsFor (first :: cs.take piece.more) (cs.drop piece.more)
  | .error fault => Begins fault (first :: cs)

theorem not_tripleQuote_of_ne {first : Char} (h : first ≠ '"') (cs : List Char) :
    ¬ tripleQuote <+: first :: cs := by
  intro hquotes
  obtain ⟨hfirst, -⟩ := List.cons_prefix_cons.1 hquotes
  exact h hfirst.symm

theorem accountsFor_plain {lexeme : Lexeme} {first : Char} {cs : List Char} {more : Nat}
    (h : ¬ tripleQuote <+: first :: cs.take more) :
    (plain lexeme first cs more).AccountsFor (first :: cs.take more) (cs.drop more) :=
  ⟨fun _ => by simp [plain], fun hquotes => absurd hquotes h⟩

theorem faithful_plain {lexeme : Lexeme} {first : Char} (h : first ≠ '"') (cs : List Char)
    (more : Nat) : Faithful first cs (.ok (plain lexeme first cs more)) :=
  accountsFor_plain (not_tripleQuote_of_ne h _)

theorem faithful_blank {first : Char} (h : first ∈ [' ', '\t', '\r']) (cs : List Char) :
    Faithful first cs (.ok (gap 0)) :=
  .blank h (.nil cs)

/-- A comment takes all up to the next line feed. -/
theorem faithful_comment (cs : List Char) :
    Faithful '#' cs (.ok (gap (cs.takeWhile (· ≠ '\n')).length)) := by
  have htake : cs.take (cs.takeWhile (· ≠ '\n')).length = cs.takeWhile (· ≠ '\n') :=
    (List.prefix_iff_eq_take.1 (List.takeWhile_prefix _)).symm
  have hdrop : cs.drop (cs.takeWhile (· ≠ '\n')).length = cs.dropWhile (· ≠ '\n') := by
    have happend := List.takeWhile_append_dropWhile (p := (· ≠ '\n')) (l := cs)
    calc cs.drop (cs.takeWhile (· ≠ '\n')).length
        = (cs.takeWhile (· ≠ '\n') ++ cs.dropWhile (· ≠ '\n')).drop
            (cs.takeWhile (· ≠ '\n')).length := by rw [happend]
      _ = cs.dropWhile (· ≠ '\n') := List.drop_left
  have htext : '\n' ∉ cs.takeWhile (· ≠ '\n') := by
    intro hmem
    simpa using List.all_eq_true.1 List.all_takeWhile _ hmem
  have hend : ∀ c ∈ (cs.dropWhile (· ≠ '\n')).head?, c = '\n' := by
    intro c hc
    have hhead := List.head?_dropWhile_not (· ≠ '\n') cs
    rw [hc] at hhead
    simpa using hhead
  have hgap : Gap ('#' :: (cs.takeWhile (· ≠ '\n') ++ [])) (cs.dropWhile (· ≠ '\n')) :=
    .comment htext hend (.nil _)
  simpa only [Faithful, AccountsFor, gap, htake, hdrop, List.append_nil] using hgap

theorem faithful_readWord {first : Char} (h : first ≠ '"') (cs : List Char) :
    Faithful first cs (.ok (readWord first cs)) := by
  unfold readWord
  simp only
  split
  · split
    · exact faithful_plain h cs _
    · exact faithful_plain h cs _
  · exact faithful_plain h cs _

theorem faithful_readAtom (cs : List Char) : Faithful ':' cs (readAtom cs) := by
  unfold readAtom
  split
  · split
    · exact faithful_plain (by decide) _ _
    · rfl
  · rfl

/-- The closing quotes stand where they are found. -/
theorem eq_append_of_tripleQuote? {cs : List Char} {length : Nat}
    (h : Quote.tripleQuote? cs = some length) :
    cs.take (length + 3) = cs.take length ++ tripleQuote := by
  induction cs using Quote.tripleQuote?.induct generalizing length with
  | case1 cs =>
      obtain rfl : 0 = length := by simpa [Quote.tripleQuote?] using h
      rfl
  | case2 c cs hquotes ih =>
      rw [Quote.tripleQuote?.eq_2 _ _ hquotes, Option.map_eq_some_iff] at h
      obtain ⟨length', htriple, rfl⟩ := h
      rw [Nat.add_right_comm, List.take_succ_cons, List.take_succ_cons, List.cons_append,
        ih htriple]
  | case3 => simp [Quote.tripleQuote?] at h

theorem faithful_readHeredoc (cs : List Char) :
    Faithful '"' ('"' :: '"' :: cs) (readHeredoc cs) := by
  have hquotes : tripleQuote <+: '"' :: '"' :: '"' :: cs := ⟨cs, rfl⟩
  unfold readHeredoc
  simp only
  split
  · exact hquotes
  · next c rest hrest =>
      split
      · split
        · exact hquotes
        · next length hlength =>
            generalize hopening : (cs.takeWhile (· ≠ '\n')).length = opening at hrest
            -- The quotes, the rest of their line, its end, the text, and the quotes again.
            have hspan : ('"' :: '"' :: cs).take (2 + opening + 1 + length + 3) =
                '"' :: '"' :: (cs.take opening ++ c :: rest.take length) ++ tripleQuote := by
              have hmore : 2 + opening + 1 + length + 3 = opening + (length + 3 + 1) + 1 + 1 := by
                omega
              rw [hmore, List.take_succ_cons, List.take_succ_cons, List.take_add, hrest,
                List.take_succ_cons, eq_append_of_tripleQuote? hlength]
              simp
            have hopens : tripleQuote <+: '"' :: ('"' :: '"' :: cs).take
                (2 + opening + 1 + length + 3) := ⟨_, congrArg ('"' :: ·) hspan.symm⟩
            refine ⟨fun hnot => absurd hopens hnot, fun _ => ⟨by simp [tripleQuote], ?_⟩⟩
            exact ⟨_, _, rfl, congrArg ('"' :: ·) hspan⟩
      · exact hquotes

/-- A string on one line begins with a single quote, or is empty. -/
theorem not_tripleQuote_of_not {cs : List Char} (h : ∀ ds, cs = '"' :: '"' :: ds → False)
    (n : Nat) : ¬ tripleQuote <+: '"' :: cs.take n := by
  rintro ⟨ds, hds⟩
  have htake : cs.take n = '"' :: '"' :: ds := (List.cons.inj hds).2.symm
  have hcs : cs.take n ++ cs.drop n = cs := List.take_append_drop n cs
  rw [htake] at hcs
  exact h (ds ++ cs.drop n) hcs.symm

theorem faithful_readQuote (cs : List Char) : Faithful '"' cs (readQuote cs) := by
  unfold readQuote
  split
  · exact faithful_readHeredoc _
  · next htriple =>
      split
      · next value more hread =>
          exact accountsFor_plain (not_tripleQuote_of_not htriple _)
      · refine ⟨rfl, ?_⟩
        simpa using not_tripleQuote_of_not htriple cs.length

/-- A number is rejected for the digits that it is read from, or for these and one character
more. -/
theorem digits_of_readNumeral {first : Char} {cs : List Char} {fault : Fault}
    (h : Numeral.read first cs = .error fault) :
    ∃ digits, fault = .number digits ∧ digits.toList <+: first :: cs := by
  have hfinish : ∀ form more,
      Numeral.read.finish form (first :: cs.take more) more = .error fault →
        ∃ digits, fault = .number digits ∧ digits.toList <+: first :: cs := by
    intro form more hfinish
    simp only [Numeral.read.finish] at hfinish
    split at hfinish
    · cases hfinish
    · cases hfinish
      refine ⟨_, rfl, ?_⟩
      rw [String.toList_ofList]
      exact List.cons_prefix_cons.2 ⟨rfl, List.take_prefix _ _⟩
  simp only [Numeral.read] at h
  split at h
  · next c behind hbehind =>
      split at h
      · cases h
        refine ⟨_, rfl, behind, ?_⟩
        rw [String.toList_ofList, List.append_assoc, List.cons_append, List.singleton_append,
          ← hbehind, List.take_append_drop]
      · exact hfinish _ _ h
  · exact hfinish _ _ h

/-- A piece that is read accounts for what it takes, and a fault speaks of what stands there. -/
theorem faithful_read (first : Char) (cs : List Char) : Faithful first cs (read first cs) := by
  unfold read
  split
  · exact faithful_blank (by simp) cs
  · exact faithful_blank (by simp) cs
  · exact faithful_blank (by simp) cs
  · exact faithful_comment cs
  · exact faithful_plain (by decide) cs 0
  · exact faithful_plain (by decide) cs 0
  · exact faithful_readQuote cs
  · exact faithful_readAtom cs
  · split
    · exact Gap.hiddenLineFeed (.nil _)
    · rfl
  · next hblank _ _ _ _ _ hquote _ _ =>
      have hne : first ≠ '"' := fun h => hquote h
      split
      · next hdigit =>
          cases hnumber : Numeral.read first cs with
          | error fault =>
              obtain ⟨digits, rfl, hdigits⟩ := digits_of_readNumeral hnumber
              exact ⟨by simpa using hdigit, hdigits⟩
          | ok result => exact faithful_plain hne cs _
      · split
        · exact faithful_readWord hne cs
        · split
          · exact faithful_plain hne cs 0
          · rfl

end GradingScript.Piece

namespace GradingScript.Token

open Piece

/-! ## Texts -/

theorem cutUpTo_nil (rest : List Char) : CutUpTo [] [] rest :=
  ⟨[], [], rfl, .start rest, .nil rest⟩

/-- A piece that is a token is the span of that token. -/
theorem readFrom_of_read {first : Char} {cs : List Char} {piece : Piece} {lexeme : Lexeme}
    (hread : read first cs = .ok piece) (htoken : piece.lexeme? = some lexeme)
    (before : List Char) :
    ReadFrom before (first :: cs.take piece.more)
      ⟨lexeme, (1 + Text.lineFeeds before : Nat), piece.text⟩ := by
  have hfaithful := faithful_read first cs
  have hlexical := lexical_read first cs
  rw [hread] at hfaithful hlexical
  simp only [Faithful, AccountsFor, htoken] at hfaithful
  have hne := (hlexical lexeme htoken).2
  exact ⟨rfl, hfaithful.1, hfaithful.2, by simp [hne]⟩

/-- A piece that is read goes on with the gap in front of it, or is the span of the next token. -/
theorem CutUpTo.piece {before : List Char} {ts : List Token} {first : Char} {cs : List Char}
    {piece : Piece} (h : CutUpTo before ts (first :: cs)) (hread : read first cs = .ok piece) :
    CutUpTo (before ++ first :: cs.take piece.more)
      (ts ++ (ofPiece? (1 + Text.lineFeeds before) piece).toList) (cs.drop piece.more) := by
  obtain ⟨spans, gap, rfl, hcut, hgap⟩ := h
  have hcs : first :: cs = (first :: cs.take piece.more) ++ cs.drop piece.more := by simp
  rw [hcs] at hcut hgap
  cases htoken : piece.lexeme? with
  | none =>
      have hfaithful := faithful_read first cs
      rw [hread] at hfaithful
      simp only [Faithful, AccountsFor, htoken] at hfaithful
      rw [ofPiece?, htoken, Option.map_none, Option.toList_none, List.append_nil,
        List.append_assoc]
      refine ⟨spans, gap ++ first :: cs.take piece.more, rfl, ?_, hgap.append hfaithful⟩
      rwa [List.append_assoc]
  | some lexeme =>
      rw [ofPiece?, htoken, Option.map_some, Option.toList_some]
      exact ⟨_, [], (List.append_nil _).symm,
        .token hcut hgap (readFrom_of_read hread htoken (spans ++ gap)), .nil _⟩

/-- The tokens of a text cover it, whatever was read before it. -/
theorem CutUpTo.scan {before : List Char} {ts : List Token} {cs : List Char} {us : List Token}
    (h : CutUpTo before ts cs) (hscan : Token.scan (1 + Text.lineFeeds before) cs = .ok us) :
    Cut (before ++ cs) (ts ++ us) [] := by
  generalize hline : 1 + Text.lineFeeds before = line at hscan
  induction hscan using scan_induction generalizing before ts with
  | nil line =>
      subst hline
      obtain ⟨spans, gap, rfl, hcut, hgap⟩ := h
      have heof : ReadFrom (spans ++ gap) [] ⟨.eof, _, ""⟩ :=
        ⟨rfl, fun _ => rfl, fun hquotes => by simp [tripleQuote] at hquotes, by simp⟩
      exact .token hcut hgap heof
  | cons line first cs piece us hpiece _ ih =>
      subst hline
      have hcut := ih (h.piece hpiece) (by simp [Nat.add_assoc])
      simpa [List.append_assoc] using hcut

/-- An error of the scan stands where a piece cannot be read, and all before it is covered. -/
theorem CutUpTo.scan_error {before : List Char} {ts : List Token} {cs : List Char}
    {e : ScriptError} (h : CutUpTo before ts cs) (hts : ∀ t ∈ ts, t.lexeme ≠ .eof)
    (hscan : Token.scan (1 + Text.lineFeeds before) cs = .error e) :
    ∃ before' first rest ts', before ++ cs = before' ++ first :: rest ∧
      CutUpTo before' ts' (first :: rest) ∧ (∀ t ∈ ts', t.lexeme ≠ .eof) ∧
      read first rest = .error e.fault ∧ e.line = (1 + Text.lineFeeds before' : Nat) := by
  generalize hline : 1 + Text.lineFeeds before = line at hscan
  induction hscan using scan_error_induction generalizing before ts with
  | first line first cs fault herror =>
      exact ⟨before, first, cs, ts, rfl, h, hts, herror, by rw [hline]⟩
  | behind line first cs piece e hpiece _ ih =>
      subst hline
      have hlexical := lexical_read first cs
      rw [hpiece] at hlexical
      have hts' : ∀ t ∈ ts ++ (ofPiece? (1 + Text.lineFeeds before) piece).toList,
          t.lexeme ≠ .eof := by
        intro t ht
        rcases List.mem_append.1 ht with ht | ht
        · exact hts t ht
        · exact (hlexical _ (mem_ofPiece? ht).1).2
      have herror := ih (h.piece hpiece) hts' (by simp [Nat.add_assoc])
      simpa [List.append_assoc] using herror

/-- Nothing of a text is lost, and lines are exact.  A text that can be read falls into gaps and
the spans of its tokens, of which the last one and no other is the end of the script.  The error of
any other text is found where a character begins no token, or a number or a string that begins
there cannot be read; its line is that of this place, and all in front of it falls into gaps and
spans. -/
theorem ofText_spans (text : String) :
    match ofText text with
    | .ok ts => Cut text.toList ts [] ∧ Grammar.Terminated ts
    | .error e => ∃ before first rest ts, text.toList = before ++ first :: rest ∧
        CutUpTo before ts (first :: rest) ∧ (∀ t ∈ ts, t.lexeme ≠ .eof) ∧
        read first rest = .error e.fault ∧ Begins e.fault (first :: rest) ∧
        e.line = (1 + Text.lineFeeds before : Nat) := by
  cases hscan : ofText text with
  | ok ts => exact ⟨(cutUpTo_nil text.toList).scan hscan, (terminated_of_scan hscan).1⟩
  | error e =>
      obtain ⟨before, first, rest, ts, htext, hcut, hts, hread, hline⟩ :=
        (cutUpTo_nil text.toList).scan_error (by simp) hscan
      have hbegins := faithful_read first rest
      rw [hread] at hbegins
      exact ⟨before, first, rest, ts, htext, hcut, hts, hread, hbegins, hline⟩

/-- Line feeds count in a string, raw or hidden, and behind a comment; a semicolon does not. -/
example : ofText "\"a\nb\\\n\";# c\n&" = .error ⟨4, .character '&'⟩ := by cbv

end GradingScript.Token
