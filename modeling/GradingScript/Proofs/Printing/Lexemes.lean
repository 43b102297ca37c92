import GradingScript.Proofs.Printing.Basic
import GradingScript.Proofs.Token.Spelling
import GradingScript.Proofs.Token.StringLiteral

/-!
# The lexemes of a printed script

A name, a key, an atom, a string, an integer and a mark are read back from the text that they are
printed as, in front of whatever is printed behind them.
-/

namespace GradingScript

open Printing

/-! ## Names -/

namespace Piece

theorem nameLength_cons {c : Char} (hc : (c.isAlphanum || c = '_') = true) (cs : List Char) :
    nameLength (c :: cs) = nameLength cs + 1 := by
  simp only [nameLength, List.takeWhile_cons, hc, if_true, List.length_cons, List.drop_succ_cons]
  split <;> rfl

/-- What continues a name is taken to the end. -/
theorem nameLength_of_continuesName {cs : List Char} (h : continuesName cs = true) :
    nameLength cs = cs.length := by
  induction cs using continuesName.induct with
  | case1 => rfl
  | case2 => rfl
  | case3 => rfl
  | case4 c cs _ _ ih =>
      simp only [continuesName, Bool.and_eq_true] at h
      rw [nameLength_cons h.1, ih h.2, List.length_cons]

theorem isDigit_of_startsName {c : Char} (h : startsName c = true) : c.isDigit = false := by
  rw [← Bool.not_eq_true]
  intro hdigit
  simp only [startsName, Bool.or_eq_true, decide_eq_true_eq] at h
  rcases h with h | rfl
  · have hle := Nat.le_trans (Text.toNat_of_isAlpha h).1 (Char.isDigit_iff_toNat.1 hdigit).2
    exact absurd hle (by decide)
  · cases hdigit

theorem read_of_startsName {first : Char} (h : startsName first = true) (cs : List Char) :
    read first cs = .ok (readWord first cs) := by
  unfold read
  split
  iterate 9 exact absurd h (by decide)
  rw [if_neg (by simp [isDigit_of_startsName h]), if_pos h]

end Piece

/-- A name is a character that begins a name and others that continue it. -/
theorem exists_of_isName {name : String} (h : isName name = true) :
    ∃ first cs, name = String.ofList (first :: cs) ∧ Piece.startsName first = true ∧
      Piece.nameLength cs = cs.length := by
  unfold isName at h
  split at h
  · cases h
  · next first cs hname =>
      simp only [Bool.and_eq_true] at h
      refine ⟨first, cs, ?_, h.1, Piece.nameLength_of_continuesName h.2⟩
      rw [← hname, String.ofList_toList]

theorem ofWord_of_isFreeName {name : String} (h : isFreeName name = true) :
    Lexeme.ofWord name = .name name := by
  simp only [isFreeName, reservedWords, Bool.and_eq_true] at h
  unfold Lexeme.ofWord
  split
  iterate 5 exact absurd h.2 (by decide)
  rfl

/-! ## Writing -/

/-- A text is read as one lexeme in front of another text. -/
def Writes (text : List Char) (lexeme : Lexeme) (rest : List Char) : Prop :=
  ∃ first cs written, text = first :: cs ∧
    Piece.read first (cs ++ rest) = .ok ⟨some lexeme, written, cs.length⟩

/-- A text that is read as a lexeme at the end of a script is so in front of a delimiter, unless it
is a key. -/
theorem Writes.append {text rest : List Char} {lexeme : Lexeme} (h : Writes text lexeme [])
    (hrest : Delimited rest) (hkey : ∀ name, lexeme ≠ .key name) : Writes text lexeme rest := by
  obtain ⟨first, cs, written, rfl, hread⟩ := h
  rw [List.append_nil] at hread
  refine ⟨first, cs, written, rfl, (Piece.read_append hread (.inr ⟨hrest, lexeme, rfl, ?_⟩)).1⟩
  intro name hname
  exact absurd hname (hkey name)

theorem writes_mark (m : Mark) (rest : List Char) : Writes [m.char] (.mark m) rest :=
  ⟨m.char, [], m.char.toString, rfl, by cases m <;> rfl⟩

theorem writes_newline (rest : List Char) : Writes ['\n'] .newline rest :=
  ⟨'\n', [], "\n", rfl, rfl⟩

/-- A name is read as the word that it is. -/
theorem writes_word {name : String} {rest : List Char} (h : isName name = true)
    (hrest : Delimited rest) : Writes name.toList (Lexeme.ofWord name) rest := by
  obtain ⟨first, cs, rfl, hfirst, hlength⟩ := exists_of_isName h
  have hread : Piece.readWord first cs =
      ⟨some (.ofWord (String.ofList (first :: cs))), String.ofList (first :: cs), cs.length⟩ := by
    simp [Piece.readWord, Piece.plain, hlength]
  have halone : Writes (String.ofList (first :: cs)).toList
      (.ofWord (String.ofList (first :: cs))) [] :=
    ⟨first, cs, _, String.toList_ofList, by
      rw [List.append_nil, Piece.read_of_startsName hfirst, hread]⟩
  refine halone.append hrest fun name hname => ?_
  unfold Lexeme.ofWord at hname
  split at hname <;> cases hname

theorem writes_name {name : String} {rest : List Char} (h : isFreeName name = true)
    (hrest : Delimited rest) : Writes name.toList (.name name) rest := by
  have hname : isName name = true := by
    simp only [isFreeName, Bool.and_eq_true] at h
    exact h.1
  rw [← ofWord_of_isFreeName h]
  exact writes_word hname hrest

/-- A name and a colon in front of a blank are a key, whatever the name is. -/
theorem writes_key {name : String} (h : isName name = true) (rest : List Char) :
    Writes (name.toList ++ [':']) (.key name) (' ' :: rest) := by
  obtain ⟨first, cs, rfl, hfirst, hlength⟩ := exists_of_isName h
  -- A colon ends a name, though it is no delimiter.
  have hcolon : Piece.nameLength (cs ++ ':' :: ' ' :: rest) = cs.length := by
    rw [Piece.nameLength_append (by simp [Piece.endsName]), hlength]
  have hread : Piece.readWord first (cs ++ ':' :: ' ' :: rest) =
      ⟨some (.key (String.ofList (first :: cs))), String.ofList (first :: cs ++ [':']),
        cs.length + 1⟩ := by
    have htake : (cs ++ ':' :: ' ' :: rest).take (cs.length + 1) = cs ++ [':'] := by
      rw [List.take_length_add_append]
      rfl
    simp [Piece.readWord, Piece.plain, Piece.closesKey, hcolon, htake]
  refine ⟨first, cs ++ [':'], String.ofList (first :: cs ++ [':']), by simp, ?_⟩
  rw [List.append_assoc, List.singleton_append, Piece.read_of_startsName hfirst, hread,
    List.length_append]
  rfl

theorem writes_atom {name : String} {rest : List Char} (h : isName name = true)
    (hrest : Delimited rest) : Writes (':' :: name.toList) (.atom name) rest := by
  obtain ⟨first, cs, rfl, hfirst, hlength⟩ := exists_of_isName h
  have halone : Writes (':' :: first :: cs) (.atom (String.ofList (first :: cs))) [] := by
    refine ⟨':', first :: cs, String.ofList (':' :: first :: cs), rfl, ?_⟩
    simp [Piece.read, Piece.readAtom, Piece.plain, hfirst, hlength]
  rw [String.toList_ofList]
  exact halone.append hrest (by simp)

/-! ## Strings -/

theorem writes_string (value : String) {rest : List Char} (hrest : Delimited rest) :
    Writes (quoted value).toList (.ofString value) rest := by
  have hquote : rest.head? ≠ some '"' := fun hhead => absurd (hrest '"' hhead) (by decide)
  have hread := @Piece.read_literal (value.toList.map Quote.itemOf) rest fun _ => hquote
  rw [Quote.valueOf_map_itemOf] at hread
  refine ⟨'"', _, _, ?_, hread⟩
  rw [← Quote.literal_map_itemOf, Quote.literal, String.toList_ofList, List.cons_append]

/-! ## Integers -/

theorem Digits.toNat_ten_eq {cs : List Char} (h : ∀ c ∈ cs, c.isDigit = true) (init : Nat) :
    cs.foldl (fun n c => 10 * n + Digits.value c) init = Nat.ofDigitChars 10 cs init := by
  induction cs generalizing init with
  | nil => rfl
  | cons c cs ih =>
      have hvalue : Digits.value c = c.toNat - '0'.toNat := by
        rw [Digits.value, if_pos (h c (by simp))]
      rw [List.foldl_cons, hvalue, Nat.ofDigitChars_cons]
      exact ih (fun d hd => h d (by simp [hd])) _

theorem Digits.isDigit_of_mem_ofNat {n : Nat} {c : Char} (h : c ∈ Digits.ofNat n) :
    c.isDigit = true :=
  Nat.isDigit_of_mem_toDigits (by decide) (by decide) h

theorem Digits.toNat_ofNat (n : Nat) : Digits.toNat 10 (Digits.ofNat n) = n := by
  rw [Digits.toNat, Digits.toNat_ten_eq fun c hc => isDigit_of_mem_ofNat hc]
  exact Nat.ofDigitChars_ten_toDigits

/-- A number below a power of ten has no more digits than the exponent says. -/
theorem Digits.length_ofNat_le {n k : Nat} (hk : 0 < k) (h : n < tenTo k) :
    (Digits.ofNat n).length ≤ k :=
  (Nat.length_toDigits_le_iff (by decide) hk).2 h

namespace Numeral

/-- Decimal digits are read as the number that they spell, if they are not too many. -/
theorem read_of_isDigit {first : Char} {cs : List Char} (h : ∀ c ∈ first :: cs, c.isDigit = true)
    (hlength : (first :: cs).length ≤ maxDigits) :
    read first cs = .ok (.int (Digits.toNat 10 (first :: cs)), cs.length) := by
  have hunderscores : withoutUnderscores (first :: cs) = first :: cs := by
    refine List.filter_eq_self.2 fun c hc => ?_
    have hdigit := h c hc
    rw [decide_eq_true_eq]
    rintro rfl
    cases hdigit
  have hplaces : Places 10 (first :: cs) (Digits.toNat 10 (first :: cs)) :=
    places_iff.2 ⟨fun c hc => isPlace_of_isDigit (h c hc), by rw [hunderscores]⟩
  have hread := @read_decimal first cs [] _ hplaces (by simp [EndsWord]) rfl
  rwa [List.append_nil, hunderscores, if_pos hlength] at hread

end Numeral

theorem writes_integer {n : Nat} {rest : List Char} (h : Number.isShort n = true)
    (hrest : Delimited rest) : Writes (Digits.ofNat n) (.ofNumber (.int n)) rest := by
  have halone : Writes (Digits.ofNat n) (.ofNumber (.int n)) [] := by
    have hdigits : ∀ c ∈ Digits.ofNat n, c.isDigit = true := fun c hc =>
      Digits.isDigit_of_mem_ofNat hc
    have hlength : (Digits.ofNat n).length ≤ maxDigits :=
      Digits.length_ofNat_le (by decide) (of_decide_eq_true h)
    have hvalue := Digits.toNat_ofNat n
    cases hofNat : Digits.ofNat n with
    | nil => exact absurd hofNat Nat.toDigits_ne_nil
    | cons first cs =>
        rw [hofNat] at hdigits hlength hvalue
        have hread := Numeral.read_of_isDigit hdigits hlength
        rw [hvalue] at hread
        refine ⟨first, cs, String.ofList (first :: cs), rfl, ?_⟩
        rw [List.append_nil, Piece.read_of_isDigit (hdigits first (by simp)) hread, Piece.plain,
          List.take_length]
  exact halone.append hrest (by simp [Lexeme.ofNumber])

end GradingScript
