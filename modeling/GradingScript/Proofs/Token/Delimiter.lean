import GradingScript.Token.Scan

/-!
# Pieces in front of a delimiter

A piece that is read at the end of a text is read the same in front of a delimiter and whatever
follows it: no name, number, string or atom goes on with a delimiter.  Two kinds of pieces need
more.  A comment goes on up to the end of its line, and a key keeps its colon only in front of a
blank.
-/

namespace GradingScript

/-! ## Lists of characters -/

theorem length_takeWhile_le (p : Char → Bool) (cs : List Char) :
    (cs.takeWhile p).length ≤ cs.length :=
  (List.takeWhile_sublist p).length_le

/-- The characters that end a name, a number or an atom and stay out of it. -/
def delimiters : List Char :=
  ['\n', ' ', '\t', '\r', ',', '(', ')', ']']

/-- A text that is empty or begins with a delimiter. -/
def Delimited (rest : List Char) : Prop :=
  ∀ c ∈ rest.head?, c ∈ delimiters

theorem delimited_nil : Delimited [] := by
  simp [Delimited]

theorem delimited_cons {c : Char} {rest : List Char} (hc : c ∈ delimiters) :
    Delimited (c :: rest) := by
  simpa [Delimited] using hc

/-- What all delimiters are, the first character of a delimited text is. -/
theorem Delimited.head_of_all {rest : List Char} (h : Delimited rest) {p : Char → Bool}
    (hp : delimiters.all p = true) : ∀ c ∈ rest.head?, p c = true := by
  intro c hc
  exact List.all_eq_true.1 hp c (h c hc)

/-- What no delimiter is, the first character of a delimited text is not. -/
theorem Delimited.head {rest : List Char} (h : Delimited rest) {p : Char → Bool}
    (hp : delimiters.any p = false) : ∀ c ∈ rest.head?, p c = false := by
  intro c hc
  exact Bool.not_eq_true _ ▸ List.any_eq_false.1 hp c (h c hc)

/-! ## Numerals -/

namespace Numeral

theorem any_isPlace_delimiters (base : Nat) : delimiters.any (isPlace base) = false := by
  simp [delimiters, isPlace, Digits.isDigitOf]

theorem baseOf?_of_delimited {c : Char} {rest : List Char} (h : Delimited (c :: rest)) :
    baseOf? c = none := by
  have hnone := h.head_of_all (p := fun c => (baseOf? c).isNone) (by decide) c rfl
  exact Option.isNone_iff_eq_none.1 hnone

theorem exponentLength_append {cs rest : List Char} (h : Delimited rest) :
    exponentLength (cs ++ rest) = exponentLength cs := by
  have hdigits : ∀ ds : List Char,
      (ds ++ rest).takeWhile Char.isDigit = ds.takeWhile Char.isDigit := fun ds =>
    Text.takeWhile_append_of_head (h.head (by decide))
  -- `cs` may end before the letter, behind it, or later: the sign is one character long.
  match cs with
  | [] =>
      cases rest with
      | nil => rfl
      | cons c rest =>
          have hletter := h.head (p := fun c => c = 'e' ∨ c = 'E') (by decide) c rfl
          simp only [decide_eq_false_iff_not] at hletter
          simp [exponentLength, hletter]
  | [c] =>
      have hnone := hdigits []
      cases rest with
      | nil => rfl
      | cons d rest =>
          have hsign := h.head (p := fun c => c = '+' ∨ c = '-') (by decide) d rfl
          simp only [decide_eq_false_iff_not] at hsign
          simp only [List.nil_append] at hnone
          simp [exponentLength, hsign, hnone]
  | c :: s :: cs =>
      by_cases hsign : s = '+' ∨ s = '-'
      · simp [exponentLength, hsign, hdigits]
      · have hdigits' := hdigits (s :: cs)
        simp only [List.cons_append] at hdigits'
        simp [exponentLength, hsign, hdigits']

theorem fractionLength_append {cs rest : List Char} (h : Delimited rest) :
    fractionLength (cs ++ rest) = fractionLength cs := by
  match cs with
  | [] =>
      cases rest with
      | nil => rfl
      | cons c rest =>
          have hpoint := h.head (p := (· = '.')) (by decide) c rfl
          simp only [decide_eq_false_iff_not] at hpoint
          simp [fractionLength, hpoint]
  | [c] =>
      cases rest with
      | nil => rfl
      | cons d rest =>
          have hdigit := h.head (p := Char.isDigit) (by decide) d rfl
          by_cases hc : c = '.'
          · simp [fractionLength, hc, hdigit]
          · simp [fractionLength, hc]
  | c :: d :: cs =>
      by_cases hc : c = '.'
      · have hplaces : (cs ++ rest).takeWhile (isPlace 10) = cs.takeWhile (isPlace 10) :=
          Text.takeWhile_append_of_head (h.head (any_isPlace_delimiters 10))
        simp [fractionLength, hc, hplaces, exponentLength_append h,
          List.drop_append_of_le_length (length_takeWhile_le (isPlace 10) cs)]
      · simp [fractionLength, hc]

theorem exponentLength_le (cs : List Char) : exponentLength cs ≤ cs.length := by
  cases cs with
  | nil => simp [exponentLength]
  | cons c cs =>
      have hbound : ∀ sign, (if ((cs.drop sign).takeWhile Char.isDigit).length = 0 then 0
          else 1 + sign + ((cs.drop sign).takeWhile Char.isDigit).length) ≤ cs.length + 1 := by
        intro sign
        have hdigits := length_takeWhile_le Char.isDigit (cs.drop sign)
        rw [List.length_drop] at hdigits
        split <;> omega
      by_cases hletter : c = 'e' ∨ c = 'E'
      · simp only [exponentLength, hletter, if_true]
        exact hbound _
      · simp [exponentLength, hletter]

theorem fractionLength_le (cs : List Char) : fractionLength cs ≤ cs.length := by
  unfold fractionLength
  split
  · next d ds =>
      split
      · have hplaces := length_takeWhile_le (isPlace 10) ds
        have hexponent := exponentLength_le (ds.drop (ds.takeWhile (isPlace 10)).length)
        rw [List.length_drop] at hexponent
        simp only [List.length_cons]
        omega
      · omega
  · omega

/-- The shape of a numeral in a base that a letter behind a zero announces. -/
def basedShape? : Char → List Char → Option (Form × Nat)
  | '0', letter :: cs =>
    match baseOf? letter with
    | some base =>
      let digits := (cs.takeWhile (isPlace base)).length
      if digits = 0 then none else some (.based base, 1 + digits)
    | none => none
  | _, _ => none

/-- The shape of a numeral in base ten. -/
def decimalShape (cs : List Char) : Form × Nat :=
  let whole := (cs.takeWhile (isPlace 10)).length
  let fraction := fractionLength (cs.drop whole)
  if fraction = 0 then (.whole, whole) else (.fraction, whole + fraction)

theorem shape_eq (first : Char) (cs : List Char) :
    shape first cs = (basedShape? first cs).getD (decimalShape cs) := by
  unfold shape
  simp only
  split
  · next shape hbased =>
      have hbased : basedShape? first cs = some shape := hbased
      rw [hbased, Option.getD_some]
  · next hbased =>
      have hbased : basedShape? first cs = none := hbased
      rw [hbased, Option.getD_none, decimalShape]

theorem basedShape?_append {first : Char} {cs rest : List Char} (h : Delimited rest) :
    basedShape? first (cs ++ rest) = basedShape? first cs := by
  by_cases hzero : first = '0'
  · subst hzero
    cases cs with
    | nil =>
        cases rest with
        | nil => rfl
        | cons c rest => simp [basedShape?, baseOf?_of_delimited h]
    | cons c cs =>
        have hplaces : ∀ base,
            (cs ++ rest).takeWhile (isPlace base) = cs.takeWhile (isPlace base) :=
          fun base => Text.takeWhile_append_of_head (h.head (any_isPlace_delimiters base))
        simp only [basedShape?, List.cons_append, hplaces]
  · simp [basedShape?, hzero]

theorem decimalShape_append {cs rest : List Char} (h : Delimited rest) :
    decimalShape (cs ++ rest) = decimalShape cs := by
  have hplaces : (cs ++ rest).takeWhile (isPlace 10) = cs.takeWhile (isPlace 10) :=
    Text.takeWhile_append_of_head (h.head (any_isPlace_delimiters 10))
  simp only [decimalShape, hplaces]
  rw [List.drop_append_of_le_length (length_takeWhile_le _ cs), fractionLength_append h]

theorem basedShape?_le {first : Char} {cs : List Char} {form : Form} {more : Nat}
    (h : basedShape? first cs = some (form, more)) : more ≤ cs.length := by
  unfold basedShape? at h
  split at h
  · next letter cs =>
      split at h
      · next base hbase =>
          have hplaces := length_takeWhile_le (isPlace base) cs
          simp only at h
          split at h
          · cases h
          · cases h
            simp only [List.length_cons]
            omega
      · cases h
  · cases h

theorem decimalShape_le (cs : List Char) : (decimalShape cs).2 ≤ cs.length := by
  have hplaces := length_takeWhile_le (isPlace 10) cs
  have hfraction := fractionLength_le (cs.drop (cs.takeWhile (isPlace 10)).length)
  rw [List.length_drop] at hfraction
  simp only [decimalShape]
  split
  · exact hplaces
  · omega

theorem shape_append {first : Char} {cs rest : List Char} (h : Delimited rest) :
    shape first (cs ++ rest) = shape first cs := by
  rw [shape_eq, shape_eq, basedShape?_append h, decimalShape_append h]

theorem shape_le (first : Char) (cs : List Char) : (shape first cs).2 ≤ cs.length := by
  rw [shape_eq]
  cases hbased : basedShape? first cs with
  | none => exact decimalShape_le cs
  | some shape => exact basedShape?_le hbased

theorem read_append {first : Char} {cs rest : List Char} (h : Delimited rest) :
    read first (cs ++ rest) = read first cs := by
  have hle := shape_le first cs
  simp only [read, shape_append h]
  generalize shape first cs = shape at hle
  obtain ⟨form, more⟩ := shape
  simp only at hle ⊢
  rw [List.take_append_of_le_length hle, List.drop_append_of_le_length hle]
  -- A numeral that reaches the end of `cs` is refused in front of a word, and no delimiter is one.
  cases hbehind : cs.drop more with
  | cons next behind => rfl
  | nil =>
      cases rest with
      | nil => rfl
      | cons c rest =>
          have hword : Text.isWord c = false := h.head (by decide) c rfl
          simp [hword]

theorem more_le_of_read {first : Char} {cs : List Char} {value : Number} {more : Nat}
    (h : read first cs = .ok (value, more)) : more ≤ cs.length := by
  have hle := shape_le first cs
  simp only [read] at h
  generalize shape first cs = shape at hle h
  obtain ⟨form, length⟩ := shape
  -- However the numeral is read, it is the shape that says where it ends.
  have hfinish : ∀ numeral, read.finish form numeral length = .ok (value, more) →
      more = length := by
    intro numeral hfinish
    simp only [read.finish] at hfinish
    split at hfinish
    · cases hfinish
      rfl
    · cases hfinish
  simp only at hle h
  split at h
  · split at h
    · cases h
    · rw [hfinish _ h]
      exact hle
  · rw [hfinish _ h]
    exact hle

end Numeral

/-! ## Quoted strings -/

namespace Quote

theorem read_hidden (cs : List Char) :
    read ('\\' :: '\n' :: cs) = (read cs).map fun (value, more) => (value, more + 2) := by
  simp [read]

theorem read_escaped {c : Char} (hc : c ≠ '\n') (cs : List Char) :
    read ('\\' :: c :: cs) =
      (read cs).map fun (value, more) => (unescape c :: value, more + 2) := by
  simp [read]

theorem read_plain {c : Char} (hquote : c ≠ '"') (hescape : c ≠ '\\') (cs : List Char) :
    read (c :: cs) = (read cs).map fun (value, more) => (c :: value, more + 1) := by
  simp [read, hescape]

/-- A backslash is not the last character of a string. -/
theorem ne_escape_of_read {c : Char} {cs value : List Char} {more : Nat}
    (hescape : ∀ d ds, c = '\\' → cs = d :: ds → False)
    (h : read (c :: cs) = some (value, more)) : c ≠ '\\' := by
  rintro rfl
  cases cs with
  | nil => simp [read] at h
  | cons d ds => exact hescape d ds rfl rfl

theorem read_append {cs value : List Char} {more : Nat} (rest : List Char)
    (h : read cs = some (value, more)) : read (cs ++ rest) = some (value, more) := by
  induction cs using read.induct generalizing value more with
  | case1 => simp [read] at h
  | case2 => simpa [read] using h
  | case3 cs ih =>
      rw [read_hidden, Option.map_eq_some_iff] at h
      obtain ⟨⟨value', more'⟩, hread, heq⟩ := h
      rw [List.cons_append, List.cons_append, read_hidden, ih hread, Option.map_some, heq]
  | case4 c cs hc ih =>
      rw [read_escaped hc, Option.map_eq_some_iff] at h
      obtain ⟨⟨value', more'⟩, hread, heq⟩ := h
      rw [List.cons_append, List.cons_append, read_escaped hc, ih hread, Option.map_some, heq]
  | case5 c cs hquote _ hescape ih =>
      have hne := ne_escape_of_read hescape h
      rw [read_plain hquote hne, Option.map_eq_some_iff] at h
      obtain ⟨⟨value', more'⟩, hread, heq⟩ := h
      rw [List.cons_append, read_plain hquote hne, ih hread, Option.map_some, heq]

theorem more_le_of_read {cs value : List Char} {more : Nat} (h : read cs = some (value, more)) :
    more ≤ cs.length := by
  induction cs using read.induct generalizing value more with
  | case1 => simp [read] at h
  | case2 =>
      obtain ⟨rfl, rfl⟩ : [] = value ∧ 1 = more := by simpa [read] using h
      simp
  | case3 cs ih =>
      rw [read_hidden, Option.map_eq_some_iff] at h
      obtain ⟨⟨value', more'⟩, hread, heq⟩ := h
      cases heq
      exact Nat.add_le_add_right (ih hread) 2
  | case4 c cs hc ih =>
      rw [read_escaped hc, Option.map_eq_some_iff] at h
      obtain ⟨⟨value', more'⟩, hread, heq⟩ := h
      cases heq
      exact Nat.add_le_add_right (ih hread) 2
  | case5 c cs hquote _ hescape ih =>
      rw [read_plain hquote (ne_escape_of_read hescape h), Option.map_eq_some_iff] at h
      obtain ⟨⟨value', more'⟩, hread, heq⟩ := h
      cases heq
      exact Nat.add_le_add_right (ih hread) 1

theorem tripleQuote?_cons {c : Char} {cs : List Char}
    (hquotes : ∀ ds, c = '"' → cs = '"' :: '"' :: ds → False) :
    tripleQuote? (c :: cs) = (tripleQuote? cs).map (· + 1) := by
  rw [tripleQuote?]
  exact hquotes

theorem tripleQuote?_append {cs : List Char} {length : Nat} (rest : List Char)
    (h : tripleQuote? cs = some length) :
    tripleQuote? (cs ++ rest) = some length ∧ length + 3 ≤ cs.length := by
  induction cs using tripleQuote?.induct generalizing length with
  | case1 cs =>
      obtain rfl : 0 = length := by simpa [tripleQuote?] using h
      simp [tripleQuote?]
  | case2 c cs hquotes ih =>
      rw [tripleQuote?_cons hquotes, Option.map_eq_some_iff] at h
      obtain ⟨length', htriple, heq⟩ := h
      obtain ⟨happend, hle⟩ := ih htriple
      have hquotes' : ∀ ds, c = '"' → cs ++ rest = '"' :: '"' :: ds → False := by
        -- The quotes further on leave room for two characters of `cs`.
        match cs, hle with
        | [], hle => simp at hle
        | [_], hle => simp at hle
        | a :: b :: cs, _ =>
            intro ds hc hds
            obtain ⟨rfl, rfl, -⟩ : a = '"' ∧ b = '"' ∧ cs ++ rest = ds := by simpa using hds
            exact hquotes cs hc rfl
      rw [List.cons_append, tripleQuote?_cons hquotes', happend, Option.map_some, heq]
      exact ⟨rfl, by simp only [List.length_cons]; omega⟩
  | case3 => simp [tripleQuote?] at h

end Quote

namespace Piece

/-! ## Names, keys and atoms -/

theorem nameLength_le (cs : List Char) : nameLength cs ≤ cs.length := by
  have hword := length_takeWhile_le (fun c => c.isAlphanum || c = '_') cs
  unfold nameLength
  simp only
  split
  · next heq =>
      have hlength := congrArg List.length heq
      simp only [List.length_drop, List.length_cons] at hlength
      omega
  · next heq =>
      have hlength := congrArg List.length heq
      simp only [List.length_drop, List.length_cons] at hlength
      omega
  · exact hword

/-- A character that continues no name. -/
def endsName (c : Char) : Bool :=
  !(c.isAlphanum || c = '_') && c ≠ '?' && c ≠ '!'

theorem nameLength_append {cs rest : List Char} (h : ∀ c ∈ rest.head?, endsName c = true) :
    nameLength (cs ++ rest) = nameLength cs := by
  have hword : (cs ++ rest).takeWhile (fun c => c.isAlphanum || c = '_') =
      cs.takeWhile fun c => c.isAlphanum || c = '_' := by
    refine Text.takeWhile_append_of_head fun c hc => ?_
    have hends := h c hc
    simp only [endsName, Bool.and_eq_true, Bool.not_eq_true'] at hends
    exact hends.1.1
  have hle := length_takeWhile_le (fun c => c.isAlphanum || c = '_') cs
  simp only [nameLength, hword]
  rw [List.drop_append_of_le_length hle]
  cases hbehind : cs.drop (cs.takeWhile fun c => c.isAlphanum || c = '_').length with
  | nil =>
      cases rest with
      | nil => rfl
      | cons c rest =>
          have hends := h c rfl
          simp only [endsName, Bool.and_eq_true, decide_eq_true_eq] at hends
          simp [hends]
  | cons c behind =>
      by_cases hquestion : c = '?'
      · simp [hquestion]
      by_cases hexclamation : c = '!'
      · simp [hexclamation]
      · simp [hquestion, hexclamation]

theorem all_endsName_delimiters : delimiters.all endsName = true := by
  decide

/-- What a delimited text begins with does not undo a key. -/
theorem closesKey_append {cs rest : List Char} (hrest : cs = [] → closesKey rest = true) :
    closesKey (cs ++ rest) = closesKey cs := by
  cases cs with
  | nil => simpa [closesKey] using hrest rfl
  | cons c cs => rfl

theorem plain_append {lexeme : Lexeme} {first : Char} {cs : List Char} {more : Nat}
    (hle : more ≤ cs.length) (rest : List Char) :
    plain lexeme first (cs ++ rest) more = plain lexeme first cs more := by
  simp only [plain, List.take_append_of_le_length hle]

/-- A word is the same in front of a delimiter, and a key is if it is in front of a blank. -/
theorem readWord_append {first : Char} {cs rest : List Char} (h : Delimited rest)
    (hkey : ∀ name, (readWord first cs).lexeme? = some (.key name) → closesKey rest = true) :
    readWord first (cs ++ rest) = readWord first cs := by
  have hle := nameLength_le cs
  unfold readWord at hkey ⊢
  have hname : nameLength (cs ++ rest) = nameLength cs :=
    nameLength_append (h.head_of_all all_endsName_delimiters)
  simp only [hname, List.take_append_of_le_length hle,
    List.drop_append_of_le_length hle] at hkey ⊢
  cases hbehind : cs.drop (nameLength cs) with
  | nil =>
      cases rest with
      | nil => simp
      | cons c rest =>
          have hcolon := h.head (p := fun c => c = ':') (by decide) c rfl
          simp only [decide_eq_false_iff_not] at hcolon
          simp [hcolon, plain_append hle]
  | cons c behind =>
      by_cases hcolon : c = ':'
      · have hlt : nameLength cs + 1 ≤ cs.length := by
          have hlength := congrArg List.length hbehind
          simp only [List.length_drop, List.length_cons] at hlength
          omega
        subst hcolon
        simp only [List.cons_append, hbehind] at hkey ⊢
        have hcloses : closesKey (behind ++ rest) = closesKey behind := by
          refine closesKey_append fun hnil => ?_
          subst hnil
          exact hkey _ rfl
        rw [hcloses, plain_append hle, plain_append hlt]
      · simp [hcolon, plain_append hle]

theorem readWord_le (first : Char) (cs : List Char) : (readWord first cs).more ≤ cs.length := by
  have hle := nameLength_le cs
  unfold readWord
  simp only
  split
  · next behind hbehind =>
      have hlength := congrArg List.length hbehind
      simp only [List.length_drop, List.length_cons] at hlength
      split
      · simp only [plain]
        omega
      · exact hle
  · exact hle

theorem readAtom_append {cs rest : List Char} {piece : Piece} (h : Delimited rest)
    (hread : readAtom cs = .ok piece) :
    readAtom (cs ++ rest) = .ok piece ∧ piece.more ≤ cs.length := by
  cases cs with
  | nil => cases hread
  | cons first cs =>
      have hle := nameLength_le cs
      by_cases hname : startsName first = true
      · simp only [readAtom, hname, if_true] at hread
        cases hread
        have hlt : nameLength cs + 1 ≤ (first :: cs).length := by simpa using hle
        refine ⟨?_, hlt⟩
        rw [← plain_append hlt rest]
        have hlength : nameLength (cs ++ rest) = nameLength cs :=
          nameLength_append (h.head_of_all all_endsName_delimiters)
        simp [readAtom, hname, hlength, List.take_append_of_le_length hle]
      · simp [readAtom, hname] at hread

/-! ## Strings -/

/-- The quotes that close a text over several lines are found before what follows it. -/
theorem readHeredoc_append {cs : List Char} {piece : Piece} (rest : List Char)
    (h : readHeredoc cs = .ok piece) :
    readHeredoc (cs ++ rest) = .ok piece ∧ piece.more ≤ cs.length + 2 := by
  unfold readHeredoc at h ⊢
  simp only at h ⊢
  generalize hopening : (cs.takeWhile (· ≠ '\n')).length = opening at h
  cases hlines : cs.drop opening with
  | nil => simp [hlines] at h
  | cons c lines =>
      have hlength : lines.length + 1 = cs.length - opening := by
        simpa using (congrArg List.length hlines).symm
      -- The line of the opening quotes ends within `cs`.
      have htakeWhile : (cs ++ rest).takeWhile (· ≠ '\n') = cs.takeWhile (· ≠ '\n') := by
        rw [List.takeWhile_append, if_neg (by omega)]
      have hle : opening ≤ cs.length := by omega
      rw [htakeWhile, hopening, List.drop_append_of_le_length hle,
        List.take_append_of_le_length hle, hlines, List.cons_append]
      simp only [hlines] at h ⊢
      split at h
      · next hblank =>
          cases htriple : Quote.tripleQuote? lines with
          | none => simp [htriple] at h
          | some length =>
              obtain ⟨htriple', hlast⟩ := Quote.tripleQuote?_append rest htriple
              simp only [htriple] at h
              cases h
              have htake : (lines ++ rest).take length = lines.take length :=
                List.take_append_of_le_length (Nat.le_trans (Nat.le_add_right length 3) hlast)
              rw [if_pos hblank, htriple']
              constructor
              · simp only [htake]
              · simp only
                omega
      · cases h

theorem readQuote_of_ne {cs : List Char} (h : ∀ ds, cs = '"' :: '"' :: ds → False) :
    readQuote cs =
      match Quote.read cs with
      | some (value, more) => .ok (plain (.ofString (String.ofList value)) '"' cs more)
      | none => .error .openString := by
  exact readQuote.eq_2 cs h

/-- A string ends with its closing quote. -/
theorem readQuote_append {cs rest : List Char} {piece : Piece} (h : Delimited rest)
    (hread : readQuote cs = .ok piece) :
    readQuote (cs ++ rest) = .ok piece ∧ piece.more ≤ cs.length := by
  by_cases htriple : ∃ ds, cs = '"' :: '"' :: ds
  · obtain ⟨ds, rfl⟩ := htriple
    exact readHeredoc_append rest hread
  · have htriple' : ∀ es, cs ++ rest = '"' :: '"' :: es → False := by
      intro es hes
      -- Fewer than two quotes at the end of `cs` are not made more by a delimiter.
      match cs with
      | [] => simp [readQuote, Quote.read] at hread
      | [c] =>
          cases rest with
          | nil => simp at hes
          | cons d rest =>
              have hquote := h.head (p := fun c => c = '"') (by decide) d rfl
              simp_all
      | c :: d :: ds =>
          obtain ⟨rfl, rfl, -⟩ : c = '"' ∧ d = '"' ∧ ds ++ rest = es := by simpa using hes
          exact htriple ⟨ds, rfl⟩
    rw [readQuote_of_ne fun es hes => htriple ⟨es, hes⟩] at hread
    rw [readQuote_of_ne htriple']
    cases hvalue : Quote.read cs with
    | none => simp [hvalue] at hread
    | some result =>
        obtain ⟨value, more⟩ := result
        have hle := Quote.more_le_of_read hvalue
        simp only [hvalue] at hread
        cases hread
        rw [Quote.read_append rest hvalue]
        exact ⟨congrArg Except.ok (plain_append hle rest), hle⟩

/-! ## Any piece -/

/-- Whether what follows a piece leaves it as it is: a line feed does, and another delimiter does
unless the piece is a comment, or a key and the delimiter no blank. -/
def KeptBy (piece : Piece) (rest : List Char) : Prop :=
  (∃ behind, rest = '\n' :: behind) ∨
    Delimited rest ∧ ∃ lexeme, piece.lexeme? = some lexeme ∧
      ∀ name, lexeme = .key name → closesKey rest = true

theorem KeptBy.delimited {piece : Piece} {rest : List Char} (h : piece.KeptBy rest) :
    Delimited rest := by
  rcases h with ⟨behind, rfl⟩ | ⟨hrest, -⟩
  · exact delimited_cons (by decide)
  · exact hrest

/-- A piece that is read is read the same in front of what leaves it as it is, and takes nothing
of that. -/
theorem read_append {first : Char} {cs rest : List Char} {piece : Piece}
    (h : read first cs = .ok piece) (hrest : piece.KeptBy rest) :
    read first (cs ++ rest) = .ok piece ∧ piece.more ≤ cs.length := by
  have hdelimited := hrest.delimited
  unfold read at h ⊢
  split at h
  · cases h
    exact ⟨rfl, Nat.zero_le _⟩
  · cases h
    exact ⟨rfl, Nat.zero_le _⟩
  · cases h
    exact ⟨rfl, Nat.zero_le _⟩
  · -- A comment: only a line feed ends it.
    cases h
    have hfeed : ∀ c ∈ rest.head?, decide (c ≠ '\n') = false := by
      rcases hrest with ⟨behind, rfl⟩ | ⟨-, lexeme, hlexeme, -⟩
      · simp
      · cases hlexeme
    rw [Text.takeWhile_append_of_head hfeed]
    exact ⟨rfl, length_takeWhile_le _ _⟩
  · cases h
    exact ⟨rfl, Nat.zero_le _⟩
  · cases h
    exact ⟨rfl, Nat.zero_le _⟩
  · exact readQuote_append hdelimited h
  · exact readAtom_append hdelimited h
  · split at h
    · cases h
      exact ⟨rfl, by simp [gap]⟩
    · cases h
  · by_cases hdigit : first.isDigit = true
    · simp only [hdigit, if_true] at h ⊢
      rw [Numeral.read_append hdelimited]
      cases hnumber : Numeral.read first cs with
      | error fault =>
          rw [hnumber] at h
          cases h
      | ok result =>
          obtain ⟨value, more⟩ := result
          have hle := Numeral.more_le_of_read hnumber
          rw [hnumber] at h
          cases h
          exact ⟨congrArg Except.ok (plain_append hle rest), hle⟩
    by_cases hname : startsName first = true
    · simp only [hdigit, hname, if_true] at h ⊢
      cases h
      rw [readWord_append hdelimited]
      · exact ⟨rfl, readWord_le first cs⟩
      · intro name hkey
        rcases hrest with ⟨behind, rfl⟩ | ⟨-, lexeme, hlexeme, hblank⟩
        · rfl
        · exact hblank name (Option.some.inj (hlexeme.symm.trans hkey))
    · simp only [hdigit, hname] at h ⊢
      cases hmark : Mark.ofChar? first with
      | none => simp [hmark] at h
      | some m =>
          simp only [hmark] at h ⊢
          cases h
          exact ⟨rfl, Nat.zero_le _⟩

end Piece

end GradingScript
