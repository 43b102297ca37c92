import GradingScript.Proofs.Token.Scanned

/-!
# What is read from a text

The piece that begins a text is a gap, the end of a line, a string, an atom, a numeral, a word or a
mark, and its first characters say which.

* `Reads` lists the kinds, and `reads_of_read` says that there are no others.
* `exists_piece_of_scan` finds the piece that a token of a text is read from.
-/

namespace GradingScript

namespace Piece

/-- What the piece that begins a text may be. -/
inductive Reads (first : Char) (cs : List Char) : Piece → Prop
  | gap (more : Nat) : Reads first cs (.gap more)
  | newline : Reads first cs (plain .newline first cs 0)
  | string (value text : String) (more : Nat)
      (h : readQuote cs = .ok ⟨some (.ofString value), text, more⟩) :
      Reads first cs ⟨some (.ofString value), text, more⟩
  | atom (name text : String) (more : Nat) : Reads first cs ⟨some (.atom name), text, more⟩
  | number {value : Number} {more : Nat} (hfirst : first.isDigit = true)
      (h : Numeral.read first cs = .ok (value, more)) :
      Reads first cs (plain (.ofNumber value) first cs more)
  | word (hfirst : startsName first = true) : Reads first cs (readWord first cs)
  | mark (m : Mark) : Reads first cs (plain (.mark m) first cs 0)

variable {first : Char} {cs : List Char} {piece : Piece}

theorem exists_string_of_readHeredoc (h : readHeredoc cs = .ok piece) :
    ∃ value more, piece = ⟨some (.ofString value), "\"\"\"", more⟩ := by
  unfold readHeredoc at h
  simp only at h
  split at h
  · cases h
  · split at h
    · split at h
      · cases h
      · exact ⟨_, _, (Except.ok.inj h).symm⟩
    · cases h

theorem exists_string_of_readQuote (h : readQuote cs = .ok piece) :
    ∃ value text more, piece = ⟨some (.ofString value), text, more⟩ := by
  unfold readQuote at h
  split at h
  · obtain ⟨value, more, rfl⟩ := exists_string_of_readHeredoc h
    exact ⟨value, _, more, rfl⟩
  · split at h
    · exact ⟨_, _, _, (Except.ok.inj h).symm⟩
    · cases h

theorem exists_atom_of_readAtom (h : readAtom cs = .ok piece) :
    ∃ name text more, piece = ⟨some (.atom name), text, more⟩ := by
  unfold readAtom at h
  split at h
  · split at h
    · exact ⟨_, _, _, (Except.ok.inj h).symm⟩
    · cases h
  · cases h

theorem reads_of_read (h : read first cs = .ok piece) : Reads first cs piece := by
  unfold read at h
  split at h
  · exact Except.ok.inj h ▸ .gap 0
  · exact Except.ok.inj h ▸ .gap 0
  · exact Except.ok.inj h ▸ .gap 0
  · exact Except.ok.inj h ▸ .gap _
  · exact Except.ok.inj h ▸ .newline
  · exact Except.ok.inj h ▸ .newline
  · obtain ⟨value, text, more, rfl⟩ := exists_string_of_readQuote h
    exact .string value text more h
  · obtain ⟨name, text, more, rfl⟩ := exists_atom_of_readAtom h
    exact .atom name text more
  · split at h
    · exact Except.ok.inj h ▸ .gap 1
    · cases h
  · split at h
    · next hdigit =>
        cases hnumber : Numeral.read first cs with
        | error fault => simp [hnumber, Bind.bind, Except.bind] at h
        | ok result =>
            rw [hnumber] at h
            exact Except.ok.inj h ▸ .number hdigit hnumber
    · split at h
      · next hname => exact Except.ok.inj h ▸ .word hname
      · split at h
        · next m _ => exact Except.ok.inj h ▸ .mark m
        · cases h

/-- A word is a key, or what the word says. -/
theorem lexeme_readWord (first : Char) (cs : List Char) :
    ∃ word, String.toList word = first :: cs.take (nameLength cs) ∧
      ((readWord first cs).lexeme? = some (.key word) ∨
        (readWord first cs).lexeme? = some (.ofWord word)) := by
  refine ⟨String.ofList (first :: cs.take (nameLength cs)), String.toList_ofList, ?_⟩
  unfold readWord
  simp only
  split
  · split
    · exact .inl rfl
    · exact .inr rfl
  · exact .inr rfl

/-- A word is no literal but for three reserved words. -/
theorem kind_of_readWord {kind : LiteralKind} {value : Term}
    (h : (readWord first cs).lexeme? = some (.literal kind value)) :
    kind = .true ∨ kind = .false ∨ kind = .nil := by
  obtain ⟨word, -, hkey | hword⟩ := lexeme_readWord first cs
  · rw [hkey] at h
    cases h
  · rw [hword] at h
    unfold Lexeme.ofWord at h
    split at h
    all_goals cases h
    all_goals simp

/-- Only a word is a name, and it is the name. -/
theorem name_of_read {name : String} (h : read first cs = .ok piece)
    (hlexeme : piece.lexeme? = some (.name name)) :
    name.toList = first :: cs.take (nameLength cs) ∧ startsName first = true := by
  cases reads_of_read h with
  | word hfirst =>
      obtain ⟨word, htext, hkey | hword⟩ := lexeme_readWord first cs
      · rw [hkey] at hlexeme
        cases hlexeme
      · rw [hword] at hlexeme
        unfold Lexeme.ofWord at hlexeme
        split at hlexeme
        any_goals cases hlexeme
        exact ⟨htext, hfirst⟩
  | _ => cases hlexeme

/-- Only what begins with a quote is a string. -/
theorem quote_of_read {value : Term} (h : read first cs = .ok piece)
    (hlexeme : piece.lexeme? = some (.literal .string value)) :
    ∃ text, value = .string text ∧ readQuote cs = .ok piece := by
  cases reads_of_read h with
  | string text _ _ hquote =>
      cases hlexeme
      exact ⟨text, rfl, hquote⟩
  | word => exact absurd (kind_of_readWord hlexeme) (by decide)
  | _ => cases hlexeme

end Piece

namespace Token

/-- A token of a text is read from some piece of it. -/
theorem exists_piece_of_scan {line : Nat} {cs : List Char} {ts : List Token}
    (h : scan line cs = .ok ts) : ∀ t ∈ ts, t.lexeme = .eof ∨
      ∃ first rest piece, Piece.read first rest = .ok piece ∧ piece.lexeme? = some t.lexeme ∧
        piece.text = t.text := by
  induction h using scan_induction with
  | nil line => simp
  | cons line first cs piece us hpiece hbehind ih =>
      refine List.forall_mem_append.2 ⟨fun t ht => ?_, ih⟩
      obtain ⟨lexeme, hlexeme, rfl⟩ : ∃ lexeme, piece.lexeme? = some lexeme ∧
          ⟨lexeme, line, piece.text⟩ = t := by
        simpa [ofPiece?] using ht
      exact .inr ⟨first, cs, piece, hpiece, hlexeme, rfl⟩

/-- A name in a text is as much of the text as continues a name, behind a letter or an
underscore. -/
theorem name_of_scan {line : Nat} {cs : List Char} {ts : List Token}
    (h : scan line cs = .ok ts) {t : Token} (ht : t ∈ ts) {name : String}
    (hname : t.lexeme = .name name) :
    ∃ first, ∃ rest : List Char, name.toList = first :: rest.take (Piece.nameLength rest) ∧
      Piece.startsName first = true := by
  obtain heof | ⟨first, cs, piece, hread, hlexeme, -⟩ := exists_piece_of_scan h t ht
  · rw [hname] at heof
    cases heof
  · exact ⟨first, cs, Piece.name_of_read hread (hlexeme.trans (by rw [hname]))⟩

theorem startsName_of_scan {line : Nat} {cs : List Char} {ts : List Token}
    (h : scan line cs = .ok ts) {t : Token} (ht : t ∈ ts) {name : String}
    (hname : t.lexeme = .name name) :
    ∃ first rest, name.toList = first :: rest ∧ Piece.startsName first = true := by
  obtain ⟨first, rest, hrest, hfirst⟩ := name_of_scan h ht hname
  exact ⟨first, _, hrest, hfirst⟩

end Token

end GradingScript
