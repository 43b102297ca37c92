import GradingScript.Proofs.Token.Delimiter

/-!
# Pieces without what follows them

Which piece begins a text is seen from the piece alone: with nothing behind it, the same piece is
read.  What follows can only make a piece go on, and here it did not.
-/

namespace GradingScript

/-! ## Lists of characters -/

/-- Characters that are taken while a condition holds are found in whatever holds all of them. -/
theorem takeWhile_take_of_le {p : Char → Bool} {cs : List Char} {n : Nat}
    (h : (cs.takeWhile p).length ≤ n) : (cs.take n).takeWhile p = cs.takeWhile p := by
  rw [← List.take_takeWhile, List.take_of_length_le h]

theorem drop_take_add {α : Type} (m n : Nat) (xs : List α) :
    (xs.take (m + n)).drop m = (xs.drop m).take n := by
  rw [List.drop_take, Nat.add_sub_cancel_left]

/-! ## Numerals -/

namespace Numeral

/-- How many characters of a sign begin the text. -/
def signLength : List Char → Nat
  | s :: _ => if s = '+' ∨ s = '-' then 1 else 0
  | [] => 0

theorem signLength_take {n : Nat} (h : 0 < n) (cs : List Char) :
    signLength (cs.take n) = signLength cs := by
  obtain ⟨m, rfl⟩ := Nat.exists_eq_add_of_lt h
  cases cs <;> simp [signLength]

theorem exponentLength_cons (c : Char) (cs : List Char) :
    exponentLength (c :: cs) =
      if c = 'e' ∨ c = 'E' then
        let digits := ((cs.drop (signLength cs)).takeWhile Char.isDigit).length
        if digits = 0 then 0 else 1 + signLength cs + digits
      else 0 := by
  cases cs <;> rfl

theorem exponentLength_take (cs : List Char) :
    exponentLength (cs.take (exponentLength cs)) = exponentLength cs := by
  cases cs with
  | nil => rfl
  | cons c cs =>
      rw [exponentLength_cons]
      generalize hsign : signLength cs = sign
      generalize hdigits : ((cs.drop sign).takeWhile Char.isDigit).length = digits
      by_cases hletter : (c = 'e' ∨ c = 'E') ∧ digits ≠ 0
      · obtain ⟨hletter, hne⟩ := hletter
        simp only [hletter, hne, if_true, if_false]
        have hmore : 1 + sign + digits = sign + digits + 1 := by omega
        have hsign' : signLength (cs.take (sign + digits)) = sign := by
          rw [signLength_take (by omega), hsign]
        have hdigits' : (((cs.take (sign + digits)).drop sign).takeWhile Char.isDigit).length =
            digits := by
          rw [drop_take_add, takeWhile_take_of_le (Nat.le_of_eq hdigits), hdigits]
        rw [hmore, List.take_succ_cons, exponentLength_cons, hsign', hdigits']
        simp only [hletter, hne, if_true, if_false, hmore]
      · have hzero : (if c = 'e' ∨ c = 'E' then
            if digits = 0 then 0 else 1 + sign + digits else 0) = 0 := by
          split
          · next h => simp_all
          · rfl
        simp only [hzero]
        rfl

theorem fractionLength_take (cs : List Char) :
    fractionLength (cs.take (fractionLength cs)) = fractionLength cs := by
  match cs with
  | [] => rfl
  | [c] => simp [fractionLength]
  | c :: d :: cs =>
      by_cases hpoint : c = '.' ∧ d.isDigit = true
      · obtain ⟨rfl, hdigit⟩ := hpoint
        simp only [fractionLength, hdigit, if_true]
        generalize hplaces : (cs.takeWhile (isPlace 10)).length = places
        generalize hexponent : exponentLength (cs.drop places) = exponent
        have hmore : 2 + places + exponent = places + exponent + 1 + 1 := by omega
        have hplaces' : ((cs.take (places + exponent)).takeWhile (isPlace 10)).length = places := by
          rw [takeWhile_take_of_le (by omega), hplaces]
        rw [hmore, List.take_succ_cons, List.take_succ_cons]
        simp only [hdigit, if_true]
        rw [hplaces', drop_take_add, ← hexponent, exponentLength_take, hexponent, hmore]
      · have hzero : fractionLength (c :: d :: cs) = 0 := by
          unfold fractionLength
          split
          · next heq => simp_all
          · rfl
        rw [hzero]
        rfl

theorem decimalShape_take (cs : List Char) :
    decimalShape (cs.take (decimalShape cs).2) = decimalShape cs := by
  generalize hwhole : (cs.takeWhile (isPlace 10)).length = whole
  generalize hfraction : fractionLength (cs.drop whole) = fraction
  have hshape : decimalShape cs =
      if fraction = 0 then (.whole, whole) else (.fraction, whole + fraction) := by
    rw [← hfraction, ← hwhole]
    rfl
  have hmore : (decimalShape cs).2 = whole + fraction := by
    rw [hshape]
    split
    · next hzero => rw [hzero, Nat.add_zero]
    · rfl
  have hwhole' : ((cs.take (whole + fraction)).takeWhile (isPlace 10)).length = whole := by
    rw [takeWhile_take_of_le (by omega), hwhole]
  have hfraction' : fractionLength ((cs.drop whole).take fraction) = fraction := by
    rw [← hfraction, fractionLength_take]
  rw [hmore, hshape]
  simp only [decimalShape, hwhole', drop_take_add, hfraction']

theorem basedShape?_take {first : Char} {cs : List Char} {form : Form} {more : Nat}
    (h : basedShape? first cs = some (form, more)) :
    basedShape? first (cs.take more) = some (form, more) := by
  unfold basedShape? at h
  split at h
  · next letter cs =>
      split at h
      · next base hbase =>
          simp only at h
          generalize hdigits : (cs.takeWhile (isPlace base)).length = digits at h
          split at h
          · cases h
          · next hne =>
              cases h
              have hdigits' : ((cs.take digits).takeWhile (isPlace base)).length = digits := by
                rw [takeWhile_take_of_le (Nat.le_of_eq hdigits), hdigits]
              rw [Nat.add_comm, List.take_succ_cons]
              simp [basedShape?, hbase, hdigits', hne, Nat.add_comm]
      · cases h
  · cases h

/-- Less of a text does not announce a base if all of it does not. -/
theorem basedShape?_take_of_none {first : Char} {cs : List Char}
    (h : basedShape? first cs = none) (n : Nat) : basedShape? first (cs.take n) = none := by
  by_cases hzero : first = '0'
  · subst hzero
    match cs, n with
    | [], _ => simp [basedShape?]
    | _ :: _, 0 => rfl
    | letter :: cs, n + 1 =>
        cases hbase : baseOf? letter with
        | none => simp [basedShape?, hbase]
        | some base =>
            have hnone : cs.takeWhile (isPlace base) = [] := by
              simpa [basedShape?, hbase] using h
            simp [basedShape?, hbase, ← List.take_takeWhile, hnone]
  · simp [basedShape?, hzero]

theorem shape_take (first : Char) (cs : List Char) :
    shape first (cs.take (shape first cs).2) = shape first cs := by
  rw [shape_eq, shape_eq]
  cases hbased : basedShape? first cs with
  | some shape => 
      rw [Option.getD_some, basedShape?_take hbased, Option.getD_some]
  | none =>
      rw [Option.getD_none, basedShape?_take_of_none hbased, Option.getD_none, decimalShape_take]

theorem read_take {first : Char} {cs : List Char} {value : Number} {more : Nat}
    (h : read first cs = .ok (value, more)) : read first (cs.take more) = .ok (value, more) := by
  have hshape := shape_take first cs
  simp only [read] at h
  generalize shape first cs = shape at hshape h
  obtain ⟨form, length⟩ := shape
  have hfinish : read.finish form (first :: cs.take length) length = .ok (value, more) := by
    simp only at h
    split at h
    · split at h
      · cases h
      · exact h
    · exact h
  have hmore : more = length := by
    simp only [read.finish] at hfinish
    split at hfinish
    · cases hfinish
      rfl
    · cases hfinish
  subst hmore
  simp only at hshape
  have hbehind : (cs.take more).drop more = [] := by simp
  simp only [read, hshape, hbehind, List.take_take, Nat.min_self]
  exact hfinish

end Numeral

/-! ## Quoted strings -/

namespace Quote

theorem read_take {cs value : List Char} {more : Nat} (h : read cs = some (value, more)) :
    read (cs.take more) = some (value, more) := by
  induction cs using read.induct generalizing value more with
  | case1 => simp [read] at h
  | case2 =>
      obtain ⟨rfl, rfl⟩ : [] = value ∧ 1 = more := by simpa [read] using h
      rfl
  | case3 cs ih =>
      rw [read_hidden, Option.map_eq_some_iff] at h
      obtain ⟨⟨value', more'⟩, hread, heq⟩ := h
      cases heq
      rw [List.take_succ_cons, List.take_succ_cons, read_hidden, ih hread, Option.map_some]
  | case4 c cs hc ih =>
      rw [read_escaped hc, Option.map_eq_some_iff] at h
      obtain ⟨⟨value', more'⟩, hread, heq⟩ := h
      cases heq
      rw [List.take_succ_cons, List.take_succ_cons, read_escaped hc, ih hread, Option.map_some]
  | case5 c cs hquote _ hescape ih =>
      have hne := ne_escape_of_read hescape h
      rw [read_plain hquote hne, Option.map_eq_some_iff] at h
      obtain ⟨⟨value', more'⟩, hread, heq⟩ := h
      cases heq
      rw [List.take_succ_cons, read_plain hquote hne, ih hread, Option.map_some]

theorem tripleQuote?_take {cs : List Char} {length : Nat} (h : tripleQuote? cs = some length) :
    tripleQuote? (cs.take (length + 3)) = some length := by
  induction cs using tripleQuote?.induct generalizing length with
  | case1 cs =>
      obtain rfl : 0 = length := by simpa [tripleQuote?] using h
      rfl
  | case2 c cs hquotes ih =>
      rw [tripleQuote?_cons hquotes, Option.map_eq_some_iff] at h
      obtain ⟨length', htriple, rfl⟩ := h
      have hquotes' : ∀ ds, c = '"' → cs.take (length' + 3) = '"' :: '"' :: ds → False := by
        intro ds hc hds
        have hcs := List.take_append_drop (length' + 3) cs
        rw [hds] at hcs
        exact hquotes _ hc hcs.symm
      rw [Nat.add_right_comm, List.take_succ_cons, tripleQuote?_cons hquotes', ih htriple,
        Option.map_some]
  | case3 => simp [tripleQuote?] at h

end Quote

namespace Piece

/-! ## Names, keys and atoms -/

theorem nameLength_take_of_le {cs : List Char} {n : Nat} (h : nameLength cs ≤ n) :
    nameLength (cs.take n) = nameLength cs := by
  unfold nameLength at h ⊢
  simp only at h ⊢
  generalize hword : (cs.takeWhile fun c => c.isAlphanum || c = '_').length = word at h ⊢
  have hle : word ≤ n := by split at h <;> omega
  obtain ⟨m, rfl⟩ := Nat.exists_eq_add_of_le hle
  have hword' :
      ((cs.take (word + m)).takeWhile fun c => c.isAlphanum || c = '_').length = word := by
    rw [takeWhile_take_of_le (by omega), hword]
  rw [hword', drop_take_add]
  cases hbehind : cs.drop word with
  | nil => rw [List.take_nil]
  | cons c behind =>
      cases m with
      | zero =>
          -- A mark at the end would not fit.
          rw [hbehind] at h
          split at h
          · omega
          · omega
          · next hquestion hexclamation =>
              split
              · simp_all
              · simp_all
              · rfl
      | succ m =>
          rw [List.take_succ_cons]
          by_cases hquestion : c = '?'
          · simp [hquestion]
          by_cases hexclamation : c = '!'
          · simp [hexclamation]
          · simp [hquestion, hexclamation]

theorem readWord_take (first : Char) (cs : List Char) :
    readWord first (cs.take (readWord first cs).more) = readWord first cs := by
  generalize hlength : nameLength cs = length
  by_cases hkey : ∃ rest, cs.drop length = ':' :: rest ∧ closesKey rest = true
  · obtain ⟨rest, hbehind, hcloses⟩ := hkey
    have hword : readWord first cs =
        plain (.key (String.ofList (first :: cs.take length))) first cs (length + 1) := by
      simp [readWord, hlength, hbehind, hcloses]
    have hlength' : nameLength (cs.take (length + 1)) = length := by
      rw [nameLength_take_of_le (by omega), hlength]
    have hbehind' : (cs.take (length + 1)).drop length = [':'] := by
      rw [drop_take_add, hbehind]
      rfl
    have hmore : (readWord first cs).more = length + 1 := by rw [hword]; rfl
    rw [hmore, hword]
    simp [readWord, hlength', hbehind', closesKey, plain, List.take_take]
  · have hword : readWord first cs =
        plain (.ofWord (String.ofList (first :: cs.take length))) first cs length := by
      unfold readWord
      rw [hlength]
      simp only
      split
      · next rest hbehind => rw [if_neg fun hcloses => hkey ⟨rest, hbehind, hcloses⟩]
      · rfl
    have hlength' : nameLength (cs.take length) = length := by
      rw [nameLength_take_of_le (by omega), hlength]
    have hmore : (readWord first cs).more = length := by rw [hword]; rfl
    rw [hmore, hword]
    simp [readWord, hlength', plain, List.take_take]

theorem readAtom_take {cs : List Char} {piece : Piece} (h : readAtom cs = .ok piece) :
    readAtom (cs.take piece.more) = .ok piece := by
  cases cs with
  | nil => cases h
  | cons first cs =>
      by_cases hname : startsName first = true
      · simp only [readAtom, hname, if_true] at h
        cases h
        have hlength : nameLength (cs.take (nameLength cs)) = nameLength cs :=
          nameLength_take_of_le (Nat.le_refl _)
        simp [plain, readAtom, hname, hlength, List.take_take]
      · simp [readAtom, hname] at h

/-! ## Strings -/

/-- The two quotes in front of the text are counted too. -/
theorem readHeredoc_take {cs : List Char} {piece : Piece} (h : readHeredoc cs = .ok piece) :
    ∃ n, piece.more = n + 2 ∧ readHeredoc (cs.take n) = .ok piece := by
  unfold readHeredoc at h
  simp only at h
  generalize hopening : (cs.takeWhile (· ≠ '\n')).length = opening at h
  cases hlines : cs.drop opening with
  | nil => simp [hlines] at h
  | cons c lines =>
      simp only [hlines] at h
      split at h
      · next hblank =>
          cases htriple : Quote.tripleQuote? lines with
          | none => simp [htriple] at h
          | some length =>
              simp only [htriple] at h
              cases h
              refine ⟨opening + (length + 3 + 1), by simp only; omega, ?_⟩
              have hopening' : ((cs.take (opening + (length + 3 + 1))).takeWhile
                  (· ≠ '\n')).length = opening := by
                rw [takeWhile_take_of_le (by omega), hopening]
              have hlines' : (cs.take (opening + (length + 3 + 1))).drop opening =
                  c :: lines.take (length + 3) := by
                rw [drop_take_add, hlines, List.take_succ_cons]
              have htake : (cs.take (opening + (length + 3 + 1))).take opening =
                  cs.take opening := by
                rw [List.take_take, Nat.min_eq_left (by omega)]
              have hinner : (lines.take (length + 3)).take length = lines.take length := by
                rw [List.take_take, Nat.min_eq_left (by omega)]
              unfold readHeredoc
              simp only [hopening', hlines', htake, hblank, if_true,
                Quote.tripleQuote?_take htriple, hinner]
      · cases h

theorem readQuote_take {cs : List Char} {piece : Piece} (h : readQuote cs = .ok piece) :
    readQuote (cs.take piece.more) = .ok piece := by
  by_cases htriple : ∃ ds, cs = '"' :: '"' :: ds
  · obtain ⟨ds, rfl⟩ := htriple
    obtain ⟨n, hmore, hread⟩ := readHeredoc_take h
    rw [hmore]
    exact hread
  · rw [readQuote_of_ne fun ds hds => htriple ⟨ds, hds⟩] at h
    cases hvalue : Quote.read cs with
    | none => simp [hvalue] at h
    | some result =>
        obtain ⟨value, more⟩ := result
        simp only [hvalue] at h
        cases h
        have htriple' : ∀ ds, cs.take more = '"' :: '"' :: ds → False := by
          intro ds hds
          have hcs := List.take_append_drop more cs
          rw [hds] at hcs
          exact htriple ⟨_, hcs.symm⟩
        rw [plain, readQuote_of_ne htriple', Quote.read_take hvalue]
        simp [plain, List.take_take]

/-! ## Any piece -/

/-- With nothing behind it, the same piece is read. -/
theorem read_take {first : Char} {cs : List Char} {piece : Piece} (h : read first cs = .ok piece) :
    read first (cs.take piece.more) = .ok piece := by
  unfold read at h ⊢
  split at h
  · cases h
    rfl
  · cases h
    rfl
  · cases h
    rfl
  · cases h
    simp only [gap, takeWhile_take_of_le (Nat.le_refl _)]
  · cases h
    rfl
  · cases h
    rfl
  · exact readQuote_take h
  · exact readAtom_take h
  · split at h
    · cases h
      rfl
    · cases h
  · by_cases hdigit : first.isDigit = true
    · simp only [hdigit, if_true] at h ⊢
      cases hnumber : Numeral.read first cs with
      | error fault =>
          rw [hnumber] at h
          cases h
      | ok result =>
          obtain ⟨value, more⟩ := result
          rw [hnumber] at h
          cases h
          rw [plain, Numeral.read_take hnumber]
          simp [plain, List.take_take, Bind.bind, Except.bind]
    by_cases hname : startsName first = true
    · simp only [hdigit, hname, if_true] at h ⊢
      cases h
      simp [readWord_take]
    · simp only [hdigit, hname] at h ⊢
      cases hmark : Mark.ofChar? first with
      | none => simp [hmark] at h
      | some m =>
          simp only [hmark] at h ⊢
          cases h
          rfl

end Piece

end GradingScript
