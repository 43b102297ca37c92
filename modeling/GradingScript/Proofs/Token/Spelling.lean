import GradingScript.Proofs.Token.Numerals
import GradingScript.Proofs.Token.Truncation
import Mathlib.Data.List.TakeWhile

/-!
# How integers are spelled

An integer is spelled by digits of a base, most significant first, with underscores anywhere among
them.  In base ten a digit comes first; in another base a zero and a letter do, and there is at
least one digit behind them.

* `places_iff` says which numbers digits and underscores spell.
* `read_decimal` and `read_based` read what is spelled, in front of a text that does not go on with
  it, and `error_of_underscores` is about a base without digits.
-/

/-! ## Word characters within ASCII -/

namespace GradingScript.Text

/-- The letters stand between the first capital and the last small one. -/
theorem toNat_of_isAlpha {c : Char} (h : c.isAlpha = true) :
    'A'.toNat ≤ c.toNat ∧ c.toNat ≤ 'z'.toNat := by
  have hletter : c.isAlpha = (decide ('A'.val ≤ c.val ∧ c.val ≤ 'Z'.val) ||
      (decide ('a'.val ≤ c.val) && decide (c.val ≤ 'z'.val))) := rfl
  rw [hletter, Bool.or_eq_true, Bool.and_eq_true] at h
  simp only [decide_eq_true_eq] at h
  rcases h with ⟨hfrom, hto⟩ | ⟨hfrom, hto⟩
  · have hle : c.toNat ≤ 'Z'.toNat := UInt32.le_iff_toNat_le.1 hto
    exact ⟨UInt32.le_iff_toNat_le.1 hfrom, Nat.le_trans hle (by decide)⟩
  · have hle : 'a'.toNat ≤ c.toNat := UInt32.le_iff_toNat_le.1 hfrom
    exact ⟨Nat.le_trans (by decide) hle, UInt32.le_iff_toNat_le.1 hto⟩

theorem isWord_of_isAlphanum {c : Char} (h : (c.isAlphanum || c = '_') = true) :
    isWord c = true := by
  have hle : c.toNat ≤ 'z'.toNat := by
    rw [Char.isAlphanum, Bool.or_eq_true, Bool.or_eq_true, decide_eq_true_eq] at h
    rcases h with (hletter | hdigit) | rfl
    · exact (toNat_of_isAlpha hletter).2
    · exact Nat.le_trans (Char.isDigit_iff_toNat.1 hdigit).2 (by decide)
    · decide
  rw [isWord_ascii (Nat.lt_of_le_of_lt hle (by decide))]
  exact h

end GradingScript.Text

namespace GradingScript

/-! ## Digits -/

namespace Digits

/-- The digits and their values. -/
def values : List (Char × Nat) :=
  ['0', '1', '2', '3', '4', '5', '6', '7', '8', '9', 'a', 'b', 'c', 'd', 'e', 'f'].zipIdx ++
    ['A', 'B', 'C', 'D', 'E', 'F'].zipIdx 10

theorem value_of_mem {c : Char} {d : Nat} (h : (c, d) ∈ values) : value c = d := by
  have hall : ∀ p ∈ values, value p.1 = p.2 := by decide
  exact hall (c, d) h

theorem isAlphanum_of_mem {c : Char} {d : Nat} (h : (c, d) ∈ values) : c.isAlphanum = true := by
  have hall : ∀ p ∈ values, p.1.isAlphanum = true := by decide
  exact hall (c, d) h

theorem mem_values_of_isDigitOf {base : Nat} {c : Char} (h : isDigitOf base c = true) :
    (c, value c) ∈ values := by
  rw [isDigitOf, Bool.and_eq_true] at h
  have hle : c.toNat ≤ 'f'.toNat := by
    simp only [Bool.or_eq_true, Bool.and_eq_true, decide_eq_true_eq] at h
    rcases h.1 with (hdigit | hsmall) | hcapital
    · exact Nat.le_trans (Char.isDigit_iff_toNat.1 hdigit).2 (by decide)
    · exact UInt32.le_iff_toNat_le.1 hsmall.2
    · have hle : c.toNat ≤ 'F'.toNat := UInt32.le_iff_toNat_le.1 hcapital.2
      exact Nat.le_trans hle (by decide)
  have hall : ∀ n ≤ 'f'.toNat, ((Char.ofNat n).isDigit ||
      ('a' ≤ Char.ofNat n && Char.ofNat n ≤ 'f') || ('A' ≤ Char.ofNat n && Char.ofNat n ≤ 'F')) =
        true → (Char.ofNat n, value (Char.ofNat n)) ∈ values := by decide +kernel
  have hmem := hall c.toNat hle
  rw [Char.ofNat_toNat] at hmem
  exact hmem h.1

/-- The digits of a base are those whose value is less. -/
theorem isDigitOf_iff {base : Nat} {c : Char} :
    isDigitOf base c = true ↔ ∃ d, (c, d) ∈ values ∧ d < base := by
  constructor
  · exact fun h => ⟨value c, mem_values_of_isDigitOf h, value_lt_of_isDigitOf h⟩
  · rintro ⟨d, hmem, hd⟩
    have hall : ∀ p ∈ values,
        (p.1.isDigit || ('a' ≤ p.1 && p.1 ≤ 'f') || ('A' ≤ p.1 && p.1 ≤ 'F')) = true := by decide
    rw [isDigitOf, hall (c, d) hmem, value_of_mem hmem, Bool.true_and, decide_eq_true_eq]
    exact hd

theorem isDigit_of_isDigitOf_ten {c : Char} (h : isDigitOf 10 c = true) : c.isDigit = true := by
  obtain ⟨d, hmem, hd⟩ := isDigitOf_iff.1 h
  have hall : ∀ p ∈ values, p.2 < 10 → p.1.isDigit = true := by decide
  exact hall (c, d) hmem hd

end Digits

namespace Numeral

/-! ## Digits and underscores -/

/-- Digits of a base with underscores anywhere among them, and the number that they spell. -/
inductive Places (base : Nat) : List Char → Nat → Prop
  | nil : Places base [] 0
  | digit {cs : List Char} {n : Nat} {c : Char} {d : Nat} (h : Places base cs n)
      (hc : (c, d) ∈ Digits.values) (hd : d < base) : Places base (cs ++ [c]) (base * n + d)
  | underscore {cs : List Char} {n : Nat} (h : Places base cs n) : Places base (cs ++ ['_']) n

theorem isWord_of_isPlace {base : Nat} {c : Char} (h : isPlace base c = true) :
    Text.isWord c = true := by
  refine Text.isWord_of_isAlphanum ?_
  rw [isPlace, Bool.or_eq_true] at h
  rcases h with hdigit | hunderscore
  · rw [Digits.isAlphanum_of_mem (Digits.mem_values_of_isDigitOf hdigit), Bool.true_or]
  · rw [hunderscore, Bool.or_true]

theorem withoutUnderscores_concat (cs : List Char) {c : Char} (h : c ≠ '_') :
    withoutUnderscores (cs ++ [c]) = withoutUnderscores cs ++ [c] := by
  simp [withoutUnderscores, h]

theorem withoutUnderscores_underscore (cs : List Char) :
    withoutUnderscores (cs ++ ['_']) = withoutUnderscores cs := by
  simp [withoutUnderscores]

/-- Digits and underscores spell one number, that of the digits alone. -/
theorem places_iff {base : Nat} {cs : List Char} {n : Nat} :
    Places base cs n ↔
      (∀ c ∈ cs, isPlace base c = true) ∧ Digits.toNat base (withoutUnderscores cs) = n := by
  constructor
  · intro h
    induction h with
    | nil => exact ⟨by simp, rfl⟩
    | @digit cs n c d _ hc hd ih =>
        obtain ⟨hplaces, rfl⟩ := ih
        have hplace : isPlace base c = true := by
          rw [isPlace, Digits.isDigitOf_iff.2 ⟨d, hc, hd⟩, Bool.true_or]
        have hne : c ≠ '_' := by
          rintro rfl
          exact absurd (Digits.isAlphanum_of_mem hc) (by decide)
        rw [withoutUnderscores_concat cs hne, Digits.toNat_concat, Digits.value_of_mem hc,
          List.forall_mem_append, List.forall_mem_singleton]
        exact ⟨⟨hplaces, hplace⟩, rfl⟩
    | @underscore cs n _ ih =>
        obtain ⟨hplaces, rfl⟩ := ih
        rw [withoutUnderscores_underscore, List.forall_mem_append, List.forall_mem_singleton]
        exact ⟨⟨hplaces, by simp [isPlace]⟩, rfl⟩
  · rintro ⟨hplaces, rfl⟩
    induction cs using List.reverseRecOn with
    | nil => exact .nil
    | append_singleton cs c ih =>
        rw [List.forall_mem_append, List.forall_mem_singleton] at hplaces
        by_cases hc : c = '_'
        · rw [hc, withoutUnderscores_underscore]
          exact .underscore (ih hplaces.1)
        · have hdigit : Digits.isDigitOf base c = true := by
            simpa [isPlace, hc] using hplaces.2
          rw [withoutUnderscores_concat cs hc, Digits.toNat_concat]
          exact .digit (ih hplaces.1) (Digits.mem_values_of_isDigitOf hdigit)
            (Digits.value_lt_of_isDigitOf hdigit)

/-! ## Spellings -/

/-- The letters that announce a base other than ten behind a zero. -/
def prefixes : List (Char × Nat) :=
  [('x', 16), ('o', 8), ('b', 2)]

/-- A number in base ten: a digit first, and then digits and underscores. -/
def SpellsDecimal (cs : List Char) (n : Nat) : Prop :=
  Places 10 cs n ∧ ∃ first ∈ cs.head?, first ≠ '_'

/-- A number in another base: digits and underscores behind a zero and a letter, and among them at
least one digit. -/
def SpellsBased (cs : List Char) (n : Nat) : Prop :=
  ∃ letter base places, (letter, base) ∈ prefixes ∧ cs = '0' :: letter :: places ∧
    Places base places n ∧ ∃ c ∈ places, c ≠ '_'

/-- The text does not go on with a word. -/
def EndsWord (rest : List Char) : Prop :=
  ∀ c ∈ rest.head?, Text.isWord c = false

instance (rest : List Char) : Decidable (EndsWord rest) :=
  match rest with
  | [] => isTrue nofun
  | c :: _ => decidable_of_iff (Text.isWord c = false) (by simp [EndsWord])

theorem baseOf?_eq_some_iff {c : Char} {base : Nat} :
    baseOf? c = some base ↔ (c, base) ∈ prefixes := by
  constructor
  · intro h
    unfold baseOf? at h
    split at h
    all_goals cases h
    all_goals decide
  · intro h
    have hall : ∀ p ∈ prefixes, baseOf? p.1 = some p.2 := by decide
    exact hall (c, base) h

/-- What announces a base is a letter, and no digit in base ten. -/
theorem letter_of_mem_prefixes {letter : Char} {base : Nat} (h : (letter, base) ∈ prefixes) :
    letter.isAlpha = true ∧ isPlace 10 letter = false := by
  have hall : ∀ p ∈ prefixes, p.1.isAlpha = true ∧ isPlace 10 p.1 = false := by decide
  exact hall (letter, base) h

theorem isWord_of_isAlpha {c : Char} (h : c.isAlpha = true) : Text.isWord c = true :=
  Text.isWord_of_isAlphanum (by simp [Char.isAlphanum, h])

theorem EndsWord.isPlace {rest : List Char} (h : EndsWord rest) (base : Nat) :
    ∀ c ∈ rest.head?, isPlace base c = false := by
  intro c hc
  rw [← Bool.not_eq_true]
  intro hplace
  exact absurd (isWord_of_isPlace hplace) (by simp [h c hc])

theorem not_mem_of_isPlace {base : Nat} {cs : List Char} (h : ∀ c ∈ cs, isPlace base c = true) :
    '\n' ∉ cs := by
  intro hmem
  exact absurd (isWord_of_isPlace (h '\n' hmem)) (by decide)

/-! ## Forms -/

/-- No point with a digit behind it begins the text. -/
theorem fractionLength_eq_zero {rest : List Char}
    (h : ∀ d ds, rest = '.' :: d :: ds → d.isDigit = false) : fractionLength rest = 0 := by
  unfold fractionLength
  split
  · next d ds => simp [h d ds rfl]
  · rfl

/-- No letter behind the first character announces a base if no word or a place stands there. -/
theorem basedShape?_eq_none {first : Char} {cs : List Char}
    (h : ∀ c ∈ cs.head?, isPlace 10 c = true ∨ Text.isWord c = false) :
    basedShape? first cs = none := by
  unfold basedShape?
  split
  · next letter cs =>
      have hnone : baseOf? letter = none := by
        rw [Option.eq_none_iff_forall_ne_some]
        intro base hbase
        obtain ⟨hletter, hnot⟩ := letter_of_mem_prefixes (baseOf?_eq_some_iff.1 hbase)
        simpa [hnot, isWord_of_isAlpha hletter] using h letter rfl
      rw [hnone]
  · rfl

theorem shape_decimal {first : Char} {cs rest : List Char}
    (hcs : ∀ c ∈ cs, isPlace 10 c = true) (hrest : EndsWord rest)
    (hpoint : fractionLength rest = 0) : shape first (cs ++ rest) = (.whole, cs.length) := by
  have hbased : basedShape? first (cs ++ rest) = none := by
    refine basedShape?_eq_none fun c hc => ?_
    cases cs with
    | nil => exact .inr (hrest c hc)
    | cons d cs =>
        obtain rfl : d = c := Option.some.inj hc
        exact .inl (hcs d (by simp))
  rw [shape_eq, hbased, Option.getD_none]
  have hplaces := Text.takeWhile_run hcs (hrest.isPlace 10)
  simp only [decimalShape, hplaces, List.drop_left, hpoint, if_true]

theorem shape_based {letter : Char} {base : Nat} {cs rest : List Char}
    (hbase : (letter, base) ∈ prefixes) (hcs : ∀ c ∈ cs, isPlace base c = true) (hne : cs ≠ [])
    (hrest : ∀ c ∈ rest.head?, isPlace base c = false) :
    shape '0' (letter :: cs ++ rest) = (.based base, (letter :: cs).length) := by
  have hlength : cs.length ≠ 0 := by simpa using hne
  rw [shape_eq]
  have hplaces := Text.takeWhile_run hcs hrest
  simp only [basedShape?, List.cons_append, baseOf?_eq_some_iff.2 hbase, hplaces, if_neg hlength,
    Option.getD_some, List.length_cons, Nat.add_comm]

/-! ## Reading -/

theorem read_of_shape {first : Char} {cs rest : List Char} {form : Form}
    (h : shape first (cs ++ rest) = (form, cs.length)) (hrest : EndsWord rest) :
    read first (cs ++ rest) = read.finish form (first :: cs) cs.length := by
  simp only [read, h, List.take_left, List.drop_left]
  cases rest with
  | nil => rfl
  | cons c rest => simp [hrest c rfl]

/-- A number in base ten is read unless it has too many digits. -/
theorem read_decimal {first : Char} {cs rest : List Char} {n : Nat}
    (h : Places 10 (first :: cs) n) (hrest : EndsWord rest) (hpoint : fractionLength rest = 0) :
    read first (cs ++ rest) =
      if (withoutUnderscores (first :: cs)).length ≤ maxDigits then .ok (.int n, cs.length)
      else .error (.number (String.ofList (first :: cs))) := by
  obtain ⟨hplaces, hvalue⟩ := places_iff.1 h
  rw [List.forall_mem_cons] at hplaces
  rw [read_of_shape (shape_decimal hplaces.2 hrest hpoint) hrest]
  by_cases hlength : (withoutUnderscores (first :: cs)).length ≤ maxDigits
  · simp only [read.finish, value?, hvalue, if_pos hlength]
  · simp only [read.finish, value?, if_neg hlength]

theorem value?_based {letter : Char} {base : Nat} (hbase : (letter, base) ∈ prefixes)
    (cs : List Char) :
    value? (.based base) ('0' :: letter :: cs) =
      if withoutUnderscores cs = [] then none
      else some (.int (Digits.toNat base (withoutUnderscores cs))) := by
  have hletter : letter ≠ '_' := by
    rintro rfl
    exact absurd (letter_of_mem_prefixes hbase).1 (by decide)
  have hdigits : (withoutUnderscores ('0' :: letter :: cs)).drop 2 = withoutUnderscores cs := by
    simp [withoutUnderscores, hletter]
  simp only [value?, hdigits]
  cases withoutUnderscores cs <;> simp

/-- A number in another base is read, however many digits it has. -/
theorem read_based {letter : Char} {base : Nat} {cs rest : List Char} {n : Nat}
    (hbase : (letter, base) ∈ prefixes) (h : Places base cs n) (hdigit : ∃ c ∈ cs, c ≠ '_')
    (hrest : EndsWord rest) :
    read '0' (letter :: cs ++ rest) = .ok (.int n, (letter :: cs).length) := by
  obtain ⟨hplaces, hvalue⟩ := places_iff.1 h
  obtain ⟨c, hc, hne⟩ := hdigit
  have hdigits : withoutUnderscores cs ≠ [] :=
    List.ne_nil_of_mem (List.mem_filter.2 ⟨hc, by simpa using hne⟩)
  rw [read_of_shape (shape_based hbase hplaces (List.ne_nil_of_mem hc) (hrest.isPlace base)) hrest]
  simp only [read.finish, value?_based hbase, if_neg hdigits, hvalue]

/-- Underscores alone are no number in another base. -/
theorem error_of_underscores {letter : Char} {base : Nat} (hbase : (letter, base) ∈ prefixes)
    (k : Nat) {rest : List Char} (hrest : ∀ c ∈ rest.head?, isPlace base c = false) :
    ∃ digits, read '0' (letter :: List.replicate k '_' ++ rest) = .error (.number digits) := by
  cases k with
  | zero =>
      -- The zero is a number alone, and the letter begins a word.
      obtain ⟨hletter, hnot⟩ := letter_of_mem_prefixes hbase
      have hpoint : letter ≠ '.' := by
        rintro rfl
        exact absurd hletter (by decide)
      have hplaces : rest.takeWhile (isPlace base) = [] := by
        simpa using Text.takeWhile_run (fun c hc => absurd hc List.not_mem_nil) hrest
      have hshape : shape '0' (letter :: rest) = (.whole, 0) := by
        rw [shape_eq]
        simp [basedShape?, baseOf?_eq_some_iff.2 hbase, hplaces, decimalShape, hnot,
          fractionLength, hpoint]
      exact ⟨String.ofList ['0', letter], by simp [read, hshape, isWord_of_isAlpha hletter]⟩
  | succ k =>
      have hcs : ∀ c ∈ List.replicate (k + 1) '_', isPlace base c = true := by
        intro c hc
        rw [List.eq_of_mem_replicate hc]
        simp [isPlace]
      have hdigits : withoutUnderscores (List.replicate (k + 1) '_') = [] := by
        simp [withoutUnderscores]
      simp only [read, shape_based hbase hcs (by simp) hrest, List.take_left, List.drop_left,
        read.finish, value?_based hbase, hdigits, if_true]
      cases rest with
      | nil => exact ⟨_, rfl⟩
      | cons c rest =>
          by_cases hword : Text.isWord c = true
          · exact ⟨_, if_pos hword⟩
          · exact ⟨_, if_neg hword⟩

/-- No word goes on behind a number. -/
theorem endsWord_of_read {first : Char} {cs : List Char} {value : Number} {more : Nat}
    (h : read first cs = .ok (value, more)) : EndsWord (cs.drop more) := by
  obtain ⟨form, hshape, -⟩ := exists_form_of_read h
  simp only [read, hshape] at h
  intro c hc
  rw [← Bool.not_eq_true]
  intro hword
  split at h
  · next next rest hbehind =>
      rw [hbehind] at hc
      obtain rfl : next = c := Option.some.inj hc
      rw [if_pos hword] at h
      cases h
  · next hbehind =>
      rw [hbehind] at hc
      cases hc

/-- A base without digits is no number. -/
theorem ne_underscores_of_read {first : Char} {cs : List Char} {value : Number} {more : Nat}
    (h : read first cs = .ok (value, more)) {letter : Char} {base : Nat}
    (hbase : (letter, base) ∈ prefixes) (k : Nat) :
    first :: cs.take more ≠ '0' :: letter :: List.replicate k '_' := by
  intro heq
  obtain ⟨rfl, hcs⟩ := List.cons.inj heq
  have halone := read_take h
  obtain ⟨digits, herror⟩ := @error_of_underscores letter base hbase k [] (by simp)
  rw [hcs, ← List.append_nil (letter :: List.replicate k '_'), herror] at halone
  cases halone

end Numeral

end GradingScript
