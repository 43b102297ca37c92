import GradingScript.Proofs.Token.Place
import GradingScript.Proofs.Token.Spelling

/-!
# Integers in a text

An integer is read exactly as it is spelled, in base ten up to a number of digits, and the text goes
on behind it.  No word follows a number at once, and a base without digits is no number anywhere.

* `ofText_decimal` and `ofText_based` are about the text that begins with an integer.
* `scan_underscores` is about a base without digits, and `exists_place_of_number` about any number of
  any text.
* `ofText_integer` is all of it.
-/

namespace GradingScript.Token

open Numeral

/-! ## A text that begins with an integer -/

theorem ofText_of_numeral {first : Char} {cs : List Char} {rest : String} {value : Number}
    (hdigit : first.isDigit = true)
    (h : Numeral.read first (cs ++ rest.toList) = .ok (value, cs.length))
    (hline : '\n' ∉ first :: cs) :
    ofText (String.ofList (first :: cs) ++ rest) =
      (ofText rest).map (⟨.ofNumber value, 1, String.ofList (first :: cs)⟩ :: ·) := by
  have hpiece := Piece.read_of_isDigit hdigit h
  rw [Piece.plain, List.take_left] at hpiece
  exact ofText_of_read_line hpiece hline

theorem ofText_decimal {spelling : List Char} {n : Nat} {rest : String}
    (h : SpellsDecimal spelling n) (hrest : EndsWord rest.toList)
    (hpoint : ∀ d ds, rest.toList = '.' :: d :: ds → d.isDigit = false) :
    ofText (String.ofList spelling ++ rest) =
      if (withoutUnderscores spelling).length ≤ 4300 then
        (ofText rest).map (⟨.ofNumber (.int n), 1, String.ofList spelling⟩ :: ·)
      else .error ⟨1, .number (String.ofList spelling)⟩ := by
  obtain ⟨hplaces, c, hc, hne⟩ := h
  cases spelling with
  | nil => cases hc
  | cons first cs =>
      obtain rfl : first = c := Option.some.inj hc
      have hall := (places_iff.1 hplaces).1
      have hdigit : first.isDigit = true := by
        refine Digits.isDigit_of_isDigitOf_ten ?_
        simpa [isPlace, hne] using hall first (by simp)
      have hread := read_decimal hplaces hrest (fractionLength_eq_zero hpoint)
      by_cases hlength : (withoutUnderscores (first :: cs)).length ≤ maxDigits
      · rw [if_pos hlength] at hread
        exact (ofText_of_numeral hdigit hread (not_mem_of_isPlace hall)).trans
          (if_pos hlength).symm
      · rw [if_neg hlength] at hread
        rw [ofText, String.toList_append, String.toList_ofList, List.cons_append,
          scan_cons_error (Piece.error_of_isDigit hdigit hread)]
        exact (if_neg hlength).symm

theorem ofText_based {spelling : List Char} {n : Nat} {rest : String}
    (h : SpellsBased spelling n) (hrest : EndsWord rest.toList) :
    ofText (String.ofList spelling ++ rest) =
      (ofText rest).map (⟨.ofNumber (.int n), 1, String.ofList spelling⟩ :: ·) := by
  obtain ⟨letter, base, places, hbase, rfl, hplaces, hdigit⟩ := h
  have hletter : letter ≠ '\n' := by
    rintro rfl
    exact absurd (letter_of_mem_prefixes hbase).1 (by decide)
  refine ofText_of_numeral (by decide) (read_based hbase hplaces hdigit hrest) ?_
  simpa [hletter.symm] using not_mem_of_isPlace (places_iff.1 hplaces).1

/-! ## Any text -/

/-- Wherever a base without digits stands, the scan ends there. -/
theorem scan_underscores {letter : Char} {base : Nat} (hbase : (letter, base) ∈ prefixes)
    (line k : Nat) {rest : List Char} (hrest : ∀ c ∈ rest.head?, isPlace base c = false) :
    ∃ digits, scan line ('0' :: letter :: (List.replicate k '_' ++ rest)) =
      .error ⟨line, .number digits⟩ := by
  obtain ⟨digits, herror⟩ := error_of_underscores hbase k hrest
  exact ⟨digits, scan_cons_error (Piece.error_of_isDigit (by decide) herror)⟩

/-- Every number of a text stands somewhere in it, with the tokens in front of it and behind it on
either side.  No word follows it, and it is no base without digits. -/
theorem exists_place_of_number {source : String} {us vs : List Token} {t : Token} {value : Term}
    (h : ofText source = .ok (us ++ t :: vs)) (hvalue : t.lexeme = .literal .number value) :
    ∃ before behind, source.toList = before ++ (t.text.toList ++ behind) ∧
      CutUpTo before us (t.text.toList ++ behind) ∧
      scan (1 + Text.lineFeeds (before ++ t.text.toList)) behind = .ok vs ∧ EndsWord behind ∧
      ∀ letter base k, (letter, base) ∈ prefixes →
        t.text.toList ≠ '0' :: letter :: List.replicate k '_' := by
  have heof : t.lexeme ≠ .eof := by
    rw [hvalue]
    exact nofun
  obtain ⟨before, first, rest, piece, hsource, hcut, hread, htoken, hscan⟩ :=
    readBetween_of_ofText h heof
  obtain ⟨lexeme, hlexeme, rfl⟩ := Option.map_eq_some_iff.1 htoken
  obtain rfl : lexeme = .literal .number value := hvalue
  obtain ⟨-, number, more, hnumeral, rfl⟩ := Piece.exists_numeral_of_read hread hlexeme
  have htext : (String.ofList (first :: rest.take more)).toList = first :: rest.take more :=
    String.toList_ofList
  have hspan : first :: rest = first :: rest.take more ++ rest.drop more := by simp
  simp only [Piece.plain, htext]
  rw [hspan] at hsource hcut
  refine ⟨before, rest.drop more, hsource, hcut, ?_, endsWord_of_read hnumeral,
    fun letter base k hbase => ne_underscores_of_read hnumeral hbase k⟩
  rw [Text.lineFeeds_append, ← Nat.add_assoc]
  exact hscan

/-- A text that begins with an integer, behind which no word and, in base ten, no fraction goes on,
begins with the number that it spells, and goes on as the rest does alone.  In base ten there may be
too many digits, in another base there may not.  No word follows any number of any text, and a base
without digits is rejected wherever it stands. -/
theorem ofText_integer :
    (∀ (spelling : List Char) (n : Nat) (rest : String), SpellsDecimal spelling n →
      EndsWord rest.toList → (∀ d ds, rest.toList = '.' :: d :: ds → d.isDigit = false) →
      if (withoutUnderscores spelling).length ≤ 4300 then
        ofText (String.ofList spelling ++ rest) =
          (ofText rest).map (⟨.ofNumber (.int n), 1, String.ofList spelling⟩ :: ·)
      else ∃ e, ofText (String.ofList spelling ++ rest) = .error e ∧ e.line = 1 ∧
        e.fault.description = "invalid number: " ∧ e.fault.token = .ok (String.ofList spelling)) ∧
    (∀ (spelling : List Char) (n : Nat) (rest : String), SpellsBased spelling n →
      EndsWord rest.toList →
      ofText (String.ofList spelling ++ rest) =
        (ofText rest).map (⟨.ofNumber (.int n), 1, String.ofList spelling⟩ :: ·)) ∧
    (∀ source us t vs value, ofText source = .ok (us ++ t :: vs) →
      t.lexeme = .literal .number value →
      ∃ before behind, source.toList = before ++ (t.text.toList ++ behind) ∧
        CutUpTo before us (t.text.toList ++ behind) ∧
        scan (1 + Text.lineFeeds (before ++ t.text.toList)) behind = .ok vs ∧ EndsWord behind ∧
        ∀ letter base k, (letter, base) ∈ prefixes →
          t.text.toList ≠ '0' :: letter :: List.replicate k '_') ∧
    (∀ line letter base k rest, (letter, base) ∈ prefixes →
      (∀ c ∈ rest.head?, isPlace base c = false) →
      ∃ e, scan line ('0' :: letter :: (List.replicate k '_' ++ rest)) = .error e ∧
        e.line = line ∧ e.fault.description = "invalid number: ") := by
  refine ⟨fun spelling n rest h hrest hpoint => ?_, fun spelling n rest h hrest =>
    ofText_based h hrest, fun source us t vs value h hvalue => exists_place_of_number h hvalue,
    fun line letter base k rest hbase hrest => ?_⟩
  · have hread := ofText_decimal h hrest hpoint
    split
    · next hlength => rwa [if_pos hlength] at hread
    · next hlength =>
        rw [if_neg hlength] at hread
        exact ⟨_, hread, rfl, rfl, rfl⟩
  · obtain ⟨digits, herror⟩ := scan_underscores hbase line k hrest
    exact ⟨_, herror, rfl, rfl⟩

/-- A leading zero and underscores in front of a point, hexadecimal digits in either case in front of
a bracket, and an octal prefix without digits. -/
theorem ofText_integer_underscores :
    ofText "0_42_." = .error ⟨1, .character '.'⟩ ∧
      ofText "0x_Ff_]" =
        .ok [⟨.ofNumber (.int 255), 1, "0x_Ff_"⟩, ⟨.mark .closeBracket, 1, "]"⟩, ⟨.eof, 1, ""⟩] ∧
      (∃ before behind, "0x_Ff_]".toList = before ++ ("0x_Ff_".toList ++ behind) ∧
        EndsWord behind) ∧
      ∃ e, scan 3 "0o__8".toList = .error e ∧ e.line = 3 := by
  have hdecimal : SpellsDecimal "0_42_".toList 42 :=
    ⟨places_iff.2 ⟨List.all_eq_true.1 (by decide), rfl⟩, '0', rfl, by decide⟩
  have hbased : SpellsBased "0x_Ff_".toList 255 :=
    ⟨'x', 16, "_Ff_".toList, by decide, rfl,
      places_iff.2 ⟨List.all_eq_true.1 (by decide), rfl⟩, 'F', by decide, by decide⟩
  have hpoint : ofText "." = .error ⟨1, .character '.'⟩ := scan_cons_error rfl
  have hbracket : ofText "]" = .ok [⟨.mark .closeBracket, 1, "]"⟩, ⟨.eof, 1, ""⟩] := by
    have hnothing : ofText "" = .ok [⟨.eof, 1, ""⟩] := scan_nil 1
    have hmark := @ofText_of_read_line ']' [] "" (.mark .closeBracket) "]" rfl (by decide)
    rwa [hnothing] at hmark
  have hfirst := ofText_integer.1 _ _ "." hdecimal (by decide) (by simp)
  have hsecond := ofText_integer.2.1 _ _ "]" hbased (by decide)
  rw [if_pos (by decide), hpoint] at hfirst
  rw [hbracket] at hsecond
  obtain ⟨before, behind, hsource, -, -, hbehind, -⟩ :=
    ofText_integer.2.2.1 "0x_Ff_]" [] _ _ _ hsecond rfl
  have hdigit : ∀ c ∈ ['8'].head?, isPlace 8 c = false := by
    intro c hc
    obtain rfl : '8' = c := Option.some.inj hc
    decide
  obtain ⟨e, herror, hline, -⟩ := ofText_integer.2.2.2 3 'o' 8 2 ['8'] (by decide) hdigit
  exact ⟨hfirst, hsecond, ⟨before, behind, hsource, hbehind⟩, e, herror, hline⟩

end GradingScript.Token
