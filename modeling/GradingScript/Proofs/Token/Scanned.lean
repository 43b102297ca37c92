import GradingScript.Proofs.Grammar.Basic

/-!
# The tokens of a text

What a text is cut into is fit for the reader: the tokens end once, and each holds a datum of the
kind that it says.  An error on the way speaks of the text alone.

* `lexical_read` is about one piece of a text.
* `scan_induction` and `scan_error_induction` go through a text piece by piece, to its end or to the
  piece that cannot be read.
* `terminated_of_scan`, `lines_of_scan` and their like are about the text as a whole.
-/

namespace GradingScript

/-- Whether a fault speaks of terms. -/
def Fault.speaksOfTerms : Fault → Bool
  | .label .. | .negation _ => true
  | _ => false

theorem exists_ok_of_map {α β : Type} {f : α → β} {x : Except ScriptError α} {b : β}
    (h : x.map f = .ok b) : ∃ a, x = .ok a ∧ f a = b := by
  cases x with
  | error e => cases h
  | ok a => exact ⟨a, rfl, Except.ok.inj h⟩

/-! ## Pieces -/

namespace Piece

/-- What reading a piece gives has nothing to do with terms: a datum is of the kind that it is said
to be, and a fault speaks of no terms.  No piece is the end of a script. -/
def Lexical : Except Fault Piece → Prop
  | .ok piece =>
    ∀ lexeme, piece.lexeme? = some lexeme → lexeme.isTyped = true ∧ lexeme ≠ .eof
  | .error fault => fault.speaksOfTerms = false

theorem lexical_gap (more : Nat) : Lexical (.ok (gap more)) := by
  intro lexeme hlexeme
  cases hlexeme

theorem lexical_some {lexeme : Lexeme} {text : String} {more : Nat}
    (htyped : lexeme.isTyped = true) (hne : lexeme ≠ .eof) :
    Lexical (.ok ⟨some lexeme, text, more⟩) := by
  intro lexeme' hlexeme
  cases hlexeme
  exact ⟨htyped, hne⟩

theorem lexical_readWord (first : Char) (cs : List Char) : Lexical (.ok (readWord first cs)) := by
  have hword : ∀ word text more, Lexical (.ok ⟨some (.ofWord word), text, more⟩) := by
    intro word text more
    refine lexical_some (Lexeme.isTyped_ofWord word) ?_
    unfold Lexeme.ofWord
    split <;> simp
  unfold readWord
  simp only
  split
  · split
    · -- A key, which has the text of any word.
      exact lexical_some rfl (by simp)
    · exact hword _ _ _
  · exact hword _ _ _

theorem lexical_readAtom (cs : List Char) : Lexical (readAtom cs) := by
  unfold readAtom
  split
  · split
    · exact lexical_some rfl (by simp)
    · rfl
  · rfl

theorem lexical_readHeredoc (cs : List Char) : Lexical (readHeredoc cs) := by
  unfold readHeredoc
  simp only
  split
  · rfl
  · split
    · split
      · rfl
      · exact lexical_some rfl (by simp [Lexeme.ofString])
    · rfl

theorem lexical_readQuote (cs : List Char) : Lexical (readQuote cs) := by
  unfold readQuote
  split
  · exact lexical_readHeredoc _
  · split
    · exact lexical_some rfl (by simp [Lexeme.ofString])
    · rfl

theorem speaksOfTerms_of_readNumeral {first : Char} {cs : List Char} {fault : Fault}
    (h : Numeral.read first cs = .error fault) : fault.speaksOfTerms = false := by
  have hfinish : ∀ form numeral more,
      Numeral.read.finish form numeral more = .error fault → fault.speaksOfTerms = false := by
    intro form numeral more hfinish
    simp only [Numeral.read.finish] at hfinish
    split at hfinish
    · cases hfinish
    · cases hfinish
      rfl
  simp only [Numeral.read] at h
  split at h
  · split at h
    · cases h
      rfl
    · exact hfinish _ _ _ h
  · exact hfinish _ _ _ h

theorem lexical_read (first : Char) (cs : List Char) : Lexical (read first cs) := by
  unfold read
  split
  · exact lexical_gap 0
  · exact lexical_gap 0
  · exact lexical_gap 0
  · exact lexical_gap _
  · exact lexical_some rfl (by simp)
  · exact lexical_some rfl (by simp)
  · exact lexical_readQuote cs
  · exact lexical_readAtom cs
  · split
    · exact lexical_gap 1
    · rfl
  · split
    · cases hnumber : Numeral.read first cs with
      | error fault => exact speaksOfTerms_of_readNumeral hnumber
      | ok result => exact lexical_some rfl (by simp [Lexeme.ofNumber])
    · split
      · exact lexical_readWord first cs
      · split
        · exact lexical_some rfl (by simp)
        · rfl

end Piece

/-! ## Tokens -/

namespace Token

theorem mem_ofPiece? {line : Nat} {piece : Piece} {t : Token}
    (h : t ∈ (ofPiece? line piece).toList) : piece.lexeme? = some t.lexeme ∧ t.line = line := by
  obtain ⟨lexeme, hlexeme, rfl⟩ : ∃ lexeme, piece.lexeme? = some lexeme ∧
      ⟨lexeme, line, piece.text⟩ = t := by
    simpa [ofPiece?] using h
  exact ⟨hlexeme, rfl⟩

/-- The line feeds of a text are those of its first piece and those behind it. -/
theorem lineFeeds_cons_take_drop (first : Char) (cs : List Char) (more : Nat) :
    Text.lineFeeds (first :: cs.take more) + Text.lineFeeds (cs.drop more) =
      Text.lineFeeds (first :: cs) := by
  rw [← Text.lineFeeds_append, List.cons_append, List.take_append_drop]

theorem scan_cons_of_ok {line : Nat} {first : Char} {cs : List Char} {piece : Piece}
    {us : List Token} (hpiece : Piece.read first cs = .ok piece)
    (h : scan (line + Text.lineFeeds (first :: cs.take piece.more)) (cs.drop piece.more) = .ok us) :
    scan line (first :: cs) = .ok ((ofPiece? line piece).toList ++ us) := by
  rw [scan_cons_ok hpiece, h]
  rfl

theorem scan_cons_of_error {line : Nat} {first : Char} {cs : List Char} {piece : Piece}
    {e : ScriptError} (hpiece : Piece.read first cs = .ok piece)
    (h : scan (line + Text.lineFeeds (first :: cs.take piece.more)) (cs.drop piece.more) =
      .error e) : scan line (first :: cs) = .error e := by
  rw [scan_cons_ok hpiece, h]
  rfl

/-- What is true of a text without characters, and of a text if it is true of what stands behind its
first piece, is true of every text that can be read. -/
@[elab_as_elim]
theorem scan_induction
    {motive : ∀ (line : Nat) (cs : List Char) (ts : List Token), scan line cs = .ok ts → Prop}
    {line : Nat} {cs : List Char} {ts : List Token} (h : scan line cs = .ok ts)
    (nil : ∀ line, motive line [] _ (scan_nil line))
    (cons : ∀ line first cs piece us (hpiece : Piece.read first cs = .ok piece)
      (hbehind : scan (line + Text.lineFeeds (first :: cs.take piece.more)) (cs.drop piece.more) =
        .ok us), motive _ _ us hbehind →
      motive line (first :: cs) _ (scan_cons_of_ok hpiece hbehind)) :
    motive line cs ts h := by
  induction line, cs using scan.induct generalizing ts with
  | case1 line =>
      obtain rfl := Except.ok.inj ((scan_nil line).symm.trans h)
      exact nil line
  | case2 line first cs fault herror =>
      have hok := (scan_cons_error herror).symm.trans h
      cases hok
  | case3 line first cs piece hpiece ih =>
      obtain ⟨us, hbehind, rfl⟩ := exists_ok_of_map ((scan_cons_ok hpiece).symm.trans h)
      exact cons line first cs piece us hpiece hbehind (ih hbehind)

/-- What is true of a text whose first piece cannot be read, and of a text if it is true of what
stands behind its first piece, is true of every text that cannot be read. -/
@[elab_as_elim]
theorem scan_error_induction
    {motive : ∀ (line : Nat) (cs : List Char) (e : ScriptError), scan line cs = .error e → Prop}
    {line : Nat} {cs : List Char} {e : ScriptError} (h : scan line cs = .error e)
    (first : ∀ line first cs fault (herror : Piece.read first cs = .error fault),
      motive line (first :: cs) _ (scan_cons_error herror))
    (behind : ∀ line first cs piece e (hpiece : Piece.read first cs = .ok piece)
      (hbehind : scan (line + Text.lineFeeds (first :: cs.take piece.more)) (cs.drop piece.more) =
        .error e), motive _ _ e hbehind →
      motive line (first :: cs) e (scan_cons_of_error hpiece hbehind)) :
    motive line cs e h := by
  induction line, cs using scan.induct with
  | case1 line =>
      have herror := (scan_nil line).symm.trans h
      cases herror
  | case2 line c cs fault herror =>
      obtain rfl := Except.error.inj ((scan_cons_error herror).symm.trans h)
      exact first line c cs fault herror
  | case3 line c cs piece hpiece ih =>
      cases hbehind : scan (line + Text.lineFeeds (c :: cs.take piece.more))
          (cs.drop piece.more) with
      | error e' =>
          obtain rfl := Except.error.inj ((scan_cons_of_error hpiece hbehind).symm.trans h)
          exact behind line c cs piece e' hpiece hbehind (ih hbehind)
      | ok ts =>
          have herror := (scan_cons_of_ok hpiece hbehind).symm.trans h
          cases herror

/-- The tokens of a text: its last one, and no other, ends the script, on the last line. -/
theorem eq_concat_of_scan {line : Nat} {cs : List Char} {ts : List Token}
    (h : scan line cs = .ok ts) :
    ∃ body, ts = body ++ [⟨.eof, (line + Text.lineFeeds cs : Nat), ""⟩] ∧
      ∀ t ∈ body, t.lexeme.isTyped = true ∧ t.lexeme ≠ .eof := by
  induction h using scan_induction with
  | nil line => exact ⟨[], by simp, by simp⟩
  | cons line first cs piece us hpiece hbehind ih =>
      obtain ⟨body, rfl, hbody⟩ := ih
      refine ⟨(ofPiece? line piece).toList ++ body, ?_, List.forall_mem_append.2 ⟨?_, hbody⟩⟩
      · rw [List.append_assoc, Nat.add_assoc, lineFeeds_cons_take_drop]
      · intro t ht
        have hlexical := Piece.lexical_read first cs
        rw [hpiece] at hlexical
        exact hlexical _ (mem_ofPiece? ht).1

/-- The tokens of a text end once, and hold data of the kinds that they are said to be. -/
theorem terminated_of_scan {line : Nat} {cs : List Char} {ts : List Token}
    (h : scan line cs = .ok ts) :
    Grammar.Terminated ts ∧ ∀ t ∈ ts, t.lexeme.isTyped = true := by
  obtain ⟨body, rfl, hbody⟩ := eq_concat_of_scan h
  refine ⟨⟨body, _, rfl, rfl, fun t ht => (hbody t ht).2⟩, List.forall_mem_append.2 ⟨?_, ?_⟩⟩
  · intro t ht
    exact (hbody t ht).1
  · intro t ht
    rw [List.mem_singleton.1 ht]
    rfl

/-- An error of the scan speaks of no terms. -/
theorem speaksOfTerms_of_scan {line : Nat} {cs : List Char} {e : ScriptError}
    (h : scan line cs = .error e) : e.fault.speaksOfTerms = false := by
  induction h using scan_error_induction with
  | first line first cs fault herror =>
      have hlexical := Piece.lexical_read first cs
      rwa [herror] at hlexical
  | behind line first cs piece e hpiece hbehind ih => exact ih

/-! ## Lines -/

/-- A line of a text that begins on the given line. -/
def IsLineOf (line : Nat) (cs : List Char) (l : Int) : Prop :=
  line ≤ l ∧ l ≤ line + Text.lineFeeds cs

theorem isLineOf_first (line : Nat) (cs : List Char) : IsLineOf line cs line :=
  ⟨Int.le_refl _, by omega⟩

/-- What stands behind the first piece of a text stands on a line of the text, and not above the
piece. -/
theorem IsLineOf.of_drop {line more : Nat} {first : Char} {cs : List Char} {l : Int}
    (h : IsLineOf (line + Text.lineFeeds (first :: cs.take more)) (cs.drop more) l) :
    IsLineOf line (first :: cs) l := by
  have hfeeds := lineFeeds_cons_take_drop first cs more
  unfold IsLineOf at h ⊢
  omega

/-- The tokens of a text stand on its lines, in order. -/
theorem lines_of_scan {line : Nat} {cs : List Char} {ts : List Token}
    (h : scan line cs = .ok ts) :
    (ts.map Token.line).Pairwise (· ≤ ·) ∧ ∀ t ∈ ts, IsLineOf line cs t.line := by
  induction h using scan_induction with
  | nil line => exact ⟨by simp, by simpa using isLineOf_first line []⟩
  | cons line first cs piece us hpiece hbehind ih =>
      obtain ⟨hsorted, hlines⟩ := ih
      have hfirst : ∀ t ∈ (ofPiece? line piece).toList, t.line = line :=
        fun t ht => (mem_ofPiece? ht).2
      constructor
      · have hpieceSorted : ((ofPiece? line piece).toList.map Token.line).Pairwise (· ≤ ·) := by
          cases ofPiece? line piece <;> simp
        rw [List.map_append, List.pairwise_append]
        refine ⟨hpieceSorted, hsorted, ?_⟩
        simp only [List.forall_mem_map]
        intro t ht u hu
        have hbehind := (hlines u hu).1
        rw [hfirst t ht]
        omega
      · refine List.forall_mem_append.2 ⟨?_, fun u hu => (hlines u hu).of_drop⟩
        intro t ht
        rw [hfirst t ht]
        exact isLineOf_first line _

/-- So does an error of the scan. -/
theorem isLineOf_of_scan_error {line : Nat} {cs : List Char} {e : ScriptError}
    (h : scan line cs = .error e) : IsLineOf line cs e.line := by
  induction h using scan_error_induction with
  | first line first cs fault herror => exact isLineOf_first line _
  | behind line first cs piece e hpiece hbehind ih => exact ih.of_drop

end Token

theorem Script.ofText_of_scan {text : String} {ts : List Token}
    (h : Token.scan 1 text.toList = .ok ts) : Script.ofText text = Script.ofTokens ts := by
  simp [Script.ofText, Token.ofText, h, Bind.bind, Except.bind]

theorem Script.ofText_of_scan_error {text : String} {e : ScriptError}
    (h : Token.scan 1 text.toList = .error e) : Script.ofText text = .error e := by
  simp [Script.ofText, Token.ofText, h, Bind.bind, Except.bind]

end GradingScript
