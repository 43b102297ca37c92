import GradingScript.Proofs.Term.Value
import GradingScript.Proofs.Token.Delimiter
import GradingScript.Proofs.Token.Scanned

/-!
# Lines of tokens and errors

What changes the lines of tokens leaves all else that they are as it is; the data of tokens that
were read from a text hold no lines.  An error on another line has the same description, and its
fault has the terms that it speaks of on other lines.

* `mapLines` changes the lines of a token, a fault or an error, and `shift` adds to them.
* `scan_shift` is about a text that begins further down, and `scan_append` about one that stands
  behind another one and a line feed.
-/

namespace GradingScript

variable (f : Int → Int)

/-- The lexeme with every line in its datum changed. -/
def Lexeme.mapLines : Lexeme → Lexeme
  | .literal kind value => .literal kind (value.mapLines f)
  | lexeme => lexeme

theorem Lexeme.mapLines_of_isTyped {lexeme : Lexeme} (h : lexeme.isTyped = true) :
    lexeme.mapLines f = lexeme := by
  cases lexeme with
  | literal kind value => rw [mapLines, Term.mapLines_of_admits _ h]
  | _ => rfl

@[simp] theorem Lexeme.mapLines_eq_newline (lexeme : Lexeme) :
    lexeme.mapLines f = .newline ↔ lexeme = .newline := by
  cases lexeme <;> simp [mapLines]

@[simp] theorem Lexeme.mapLines_eq_eof (lexeme : Lexeme) :
    lexeme.mapLines f = .eof ↔ lexeme = .eof := by
  cases lexeme <;> simp [mapLines]

@[simp] theorem Lexeme.mapLines_eq_mark (lexeme : Lexeme) (m : Mark) :
    lexeme.mapLines f = .mark m ↔ lexeme = .mark m := by
  cases lexeme <;> simp [mapLines]

/-- The token with its line, and every line in its datum, changed. -/
def Token.mapLines (t : Token) : Token :=
  ⟨t.lexeme.mapLines f, f t.line, t.text⟩

@[simp] theorem Token.lexeme_mapLines (t : Token) :
    (t.mapLines f).lexeme = t.lexeme.mapLines f := rfl

@[simp] theorem Token.line_mapLines (t : Token) : (t.mapLines f).line = f t.line := rfl

/-- The fault with every line in the terms that it speaks of changed. -/
def Fault.mapLines : Fault → Fault
  | .label keyword args => .label keyword (args.map (Term.mapLines f))
  | .negation value => .negation (value.mapLines f)
  | fault => fault

@[simp] theorem Fault.description_mapLines (fault : Fault) :
    (fault.mapLines f).description = fault.description := by
  cases fault <;> rfl

@[simp] theorem Fault.ofToken_mapLines (t : Token) :
    Fault.ofToken (t.mapLines f) = (Fault.ofToken t).mapLines f := by
  obtain ⟨lexeme, line, text⟩ := t
  cases lexeme <;> rfl

theorem Fault.mapLines_of_not_speaksOfTerms {fault : Fault} (h : fault.speaksOfTerms = false) :
    fault.mapLines f = fault := by
  cases fault <;> simp_all [mapLines, speaksOfTerms]

/-- The error with its line, and every line in its fault, changed. -/
def ScriptError.mapLines (e : ScriptError) : ScriptError :=
  ⟨f e.line, e.fault.mapLines f⟩

@[simp] theorem ScriptError.unexpected_mapLines (t : Token) :
    ScriptError.unexpected (t.mapLines f) = (ScriptError.unexpected t).mapLines f := by
  simp [ScriptError.unexpected, ScriptError.mapLines]

/-- What reading gives on other lines: the error there, or what becomes there of the result. -/
def mapOutcome {α : Type} (g : α → α) : Except ScriptError α → Except ScriptError α
  | .ok result => .ok (g result)
  | .error e => .error (e.mapLines f)

@[simp] theorem mapOutcome_ok {α : Type} (g : α → α) (result : α) :
    mapOutcome f g (.ok result) = .ok (g result) := rfl

@[simp] theorem mapOutcome_error {α : Type} (g : α → α) (e : ScriptError) :
    mapOutcome f g (.error e) = .error (e.mapLines f) := rfl

end GradingScript

/-!
## Moving down

What stands `k` lines further down in a text is the same on other lines: every line that a term
holds, at every depth, grows by `k`, and so do the lines of tokens and of errors.
-/

namespace GradingScript

/-- The token `k` lines further down. -/
abbrev Token.shift (k : Int) : Token → Token :=
  Token.mapLines (· + k)

/-- The fault `k` lines further down. -/
abbrev Fault.shift (k : Int) : Fault → Fault :=
  Fault.mapLines (· + k)

theorem Fault.description_shift (k : Int) (fault : Fault) :
    (fault.shift k).description = fault.description :=
  description_mapLines _ fault

/-- The error `k` lines further down. -/
abbrev ScriptError.shift (k : Int) : ScriptError → ScriptError :=
  ScriptError.mapLines (· + k)

/-- What reading gives `k` lines further down. -/
abbrev shiftOutcome {α : Type} (k : Int) : (α → α) → Except ScriptError α → Except ScriptError α :=
  mapOutcome (· + k)

theorem shiftOutcome_ok {α : Type} (k : Int) (g : α → α) (result : α) :
    shiftOutcome k g (.ok result) = .ok (g result) := rfl

theorem shiftOutcome_error {α : Type} (k : Int) (g : α → α) (e : ScriptError) :
    shiftOutcome k g (.error e) = .error (e.shift k) := rfl

end GradingScript

/-!
## Scanning a text behind another

A text behind another one and a line feed gives the tokens that it gives alone, further down.  The
tokens of the other text stay as they are, without the end of the script.
-/

namespace GradingScript.Token

theorem ofPiece?_shift {line : Nat} {piece : Piece} (k : Nat) (h : Piece.Lexical (.ok piece)) :
    (ofPiece? (line + k) piece).toList = (ofPiece? line piece).toList.map (shift k) := by
  obtain ⟨lexeme?, text, more⟩ := piece
  cases lexeme? with
  | none => rfl
  | some lexeme =>
      have hlexeme := Lexeme.mapLines_of_isTyped (· + (k : Int)) (h lexeme rfl).1
      simp [ofPiece?, mapLines, hlexeme]

/-- A text that begins `k` lines further down gives its tokens, or its error, further down. -/
theorem scan_shift (line k : Nat) (cs : List Char) :
    scan (line + k) cs = shiftOutcome k (List.map (shift k)) (scan line cs) := by
  induction line, cs using scan.induct with
  | case1 line => simp [mapLines, Lexeme.mapLines]
  | case2 line first cs fault herror =>
      have hlexical := Piece.lexical_read first cs
      rw [herror] at hlexical
      have hfault := Fault.mapLines_of_not_speaksOfTerms (· + (k : Int)) hlexical
      rw [scan_cons_error herror, scan_cons_error herror]
      simp [ScriptError.mapLines, hfault]
  | case3 line first cs piece hpiece ih =>
      have hlexical := Piece.lexical_read first cs
      rw [hpiece] at hlexical
      rw [scan_cons_ok hpiece, scan_cons_ok hpiece, Nat.add_right_comm, ih,
        ofPiece?_shift k hlexical]
      cases scan (line + Text.lineFeeds (first :: cs.take piece.more)) (cs.drop piece.more) with
      | error e => rfl
      | ok ts => simp [Except.map]

/-- The text behind a text that is read gives its tokens behind those of the other, and the end of
the line that the other ends on stands between them. -/
theorem scan_append {line : Nat} {cs : List Char} {ts : List Token} {eof : Token}
    (h : scan line cs = .ok (ts ++ [eof])) (v : List Char) :
    scan line (cs ++ '\n' :: v) =
      (scan (line + Text.lineFeeds cs + 1) v).map
        (ts ++ ⟨.newline, (line + Text.lineFeeds cs : Nat), "\n"⟩ :: ·) := by
  generalize hws : ts ++ [eof] = ws at h
  induction h using scan_induction generalizing ts with
  | nil line =>
      obtain rfl : ts = [] := by
        cases ts with
        | nil => rfl
        | cons t ts => simp at hws
      have hread : Piece.read '\n' v = .ok ⟨some .newline, "\n", 0⟩ := rfl
      rw [List.nil_append, scan_cons_ok hread]
      rfl
  | cons line first cs piece us hpiece hbehind ih =>
      -- The last piece of the text stands in front of the line feed, and so does every other.
      obtain ⟨hread, hle⟩ := Piece.read_append hpiece (.inl ⟨v, rfl⟩)
      obtain ⟨body, rfl, -⟩ := eq_concat_of_scan hbehind
      rw [← List.append_assoc] at hws
      obtain ⟨rfl, hlast⟩ := List.append_inj' hws rfl
      cases hlast
      rw [List.cons_append, scan_cons_ok hread, List.take_append_of_le_length hle,
        List.drop_append_of_le_length hle, ih rfl, Nat.add_assoc line, lineFeeds_cons_take_drop]
      cases scan (line + Text.lineFeeds (first :: cs) + 1) v with
      | error e => rfl
      | ok vs => simp [Except.map]

end GradingScript.Token
