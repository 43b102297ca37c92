import GradingScript.Proofs.Number
import GradingScript.Proofs.Token.Delimiter
import GradingScript.Proofs.Token.Reads
import Mathlib.Algebra.Group.Nat.Defs
import Mathlib.Data.List.Induction

/-!
# What numerals are read as

A decimal numeral is read as a number that can be written again: its whole numbers have no more
digits than may be written, and its fractions are binary numbers.  A numeral in another base has no
such limit, so it may be read as an integer that has no decimal text.  No numeral is read as `nan`.

* `isWritable_of_value?` and `ne_nan_of_value?` are about the forms of numerals.
* `number_of_scan` is about the numbers among the tokens of a text.
-/

namespace GradingScript

theorem tenTo_eq_pow (n : Nat) : tenTo n = 10 ^ n := rfl

/-! ## Values of digits -/

namespace Digits

theorem value_lt_of_isDigitOf {base : Nat} {c : Char} (h : isDigitOf base c = true) :
    value c < base := by
  simp only [isDigitOf, Bool.and_eq_true, decide_eq_true_eq] at h
  exact h.2

theorem isDigitOf_ten {c : Char} (h : c.isDigit = true) : isDigitOf 10 c = true := by
  have hvalue : value c < 10 := by
    rw [value, if_pos h]
    have hrange := Char.isDigit_iff_toNat.1 h
    simp only [Char.reduceToNat] at hrange ⊢
    omega
  simp [isDigitOf, h, hvalue]

/-- So many digits of a base spell a number below that power of the base. -/
theorem toNat_lt {base : Nat} {digits : List Char}
    (h : ∀ c ∈ digits, isDigitOf base c = true) : toNat base digits < base ^ digits.length := by
  induction digits using List.reverseRecOn with
  | nil => simp
  | append_singleton digits c ih =>
      rw [List.forall_mem_append, List.forall_mem_singleton] at h
      have hdigits : toNat base digits + 1 ≤ base ^ digits.length := ih h.1
      have hvalue := value_lt_of_isDigitOf h.2
      rw [toNat_concat, List.length_append, List.length_singleton, Nat.pow_succ]
      calc base * toNat base digits + value c
          < base * toNat base digits + base := by omega
        _ = base * (toNat base digits + 1) := by rw [Nat.mul_add, Nat.mul_one]
        _ ≤ base * base ^ digits.length := Nat.mul_le_mul_left base hdigits
        _ = base ^ digits.length * base := Nat.mul_comm _ _

end Digits

/-! ## Values of fractions -/

namespace Double

theorem ofRatio_ne_nan (negative : Bool) (num den : Nat) : ofRatio negative num den ≠ .nan := by
  unfold ofRatio
  by_cases hnum : num = 0
  · simp [hnum]
  · simp only [hnum, if_false]
    generalize (if _ = twoTo 53 then _ else _ : Nat × Int) = scientific
    split <;> simp

theorem neg_eq_nan_iff {x : Double} : x.neg = .nan ↔ x = .nan := by
  cases x <;> simp [neg]

end Double

theorem Decimal.toDouble_ne_nan (negative : Bool) (d : Decimal) : d.toDouble negative ≠ .nan := by
  unfold toDouble
  split
  · exact Double.ofRatio_ne_nan _ _ _
  · split
    · simp
    · split
      · exact Double.ofRatio_ne_nan _ _ _
      · split
        · exact Double.ofRatio_ne_nan _ _ _
        · exact Double.ofRatio_ne_nan _ _ _

namespace Numeral

/-! ## Forms of numerals -/

theorem isPlace_of_isDigit {c : Char} (h : c.isDigit = true) : isPlace 10 c = true := by
  simp [isPlace, Digits.isDigitOf_ten h]

/-- Without underscores there are only digits. -/
theorem isDigitOf_of_mem_withoutUnderscores {base : Nat} {cs : List Char}
    (h : ∀ c ∈ cs, isPlace base c = true) :
    ∀ c ∈ withoutUnderscores cs, Digits.isDigitOf base c = true := by
  intro c hc
  obtain ⟨hmem, hne⟩ := List.mem_filter.1 hc
  have hplace := h c hmem
  simp only [decide_eq_true_eq] at hne
  simpa [isPlace, hne] using hplace

/-- A numeral in a base other than ten begins with a zero and the letter of the base. -/
theorem exists_base_of_shape {first : Char} {cs : List Char} {base more : Nat}
    (h : shape first cs = (.based base, more)) :
    ∃ letter rest, cs = letter :: rest ∧ first = '0' ∧ baseOf? letter = some base ∧
      more = 1 + (rest.takeWhile (isPlace base)).length := by
  have hdecimal : ∀ cs, (decimalShape cs).1 ≠ .based base := by
    intro cs
    simp only [decimalShape]
    split <;> simp
  rw [shape_eq] at h
  cases hbased : basedShape? first cs with
  | none =>
      rw [hbased, Option.getD_none] at h
      exact absurd (congrArg Prod.fst h) (hdecimal cs)
  | some shape =>
      rw [hbased, Option.getD_some] at h
      subst h
      unfold basedShape? at hbased
      split at hbased
      · next letter rest =>
          split at hbased
          · next base' hbase =>
              simp only at hbased
              split at hbased
              · cases hbased
              · cases hbased
                exact ⟨letter, rest, rfl, rfl, hbase, rfl⟩
          · cases hbased
      · cases hbased

/-- A whole number in base ten is made of digits and underscores. -/
theorem isPlace_of_shape {first : Char} {cs : List Char} {more : Nat}
    (hfirst : first.isDigit = true) (h : shape first cs = (.whole, more)) :
    ∀ c ∈ first :: cs.take more, isPlace 10 c = true := by
  have hmore : more = (cs.takeWhile (isPlace 10)).length := by
    rw [shape_eq] at h
    cases hbased : basedShape? first cs with
    | none =>
        simp only [hbased, Option.getD_none, decimalShape] at h
        split at h <;> cases h
        rfl
    | some shape =>
        rw [hbased, Option.getD_some] at h
        subst h
        unfold basedShape? at hbased
        grind
  rw [List.forall_mem_cons]
  refine ⟨isPlace_of_isDigit hfirst, fun c hc => ?_⟩
  have hplaces : cs.take more = cs.takeWhile (isPlace 10) := by
    rw [hmore]
    exact (List.prefix_iff_eq_take.1 (List.takeWhile_prefix _)).symm
  rw [hplaces] at hc
  exact List.all_eq_true.1 List.all_takeWhile c hc

/-! ## Numbers that are read -/

variable {form : Form} {first : Char} {cs : List Char} {value : Number} {more : Nat}

theorem ne_nan_of_value? {numeral : List Char} (h : value? form numeral = some value) :
    value ≠ .real .nan := by
  cases form with
  | based base =>
      simp only [value?] at h
      split at h
      · cases h
      · cases h
        simp
  | fraction =>
      obtain ⟨d, -, rfl⟩ := Option.map_eq_some_iff.1 h
      simpa using d.toDouble_ne_nan false
  | whole =>
      simp only [value?] at h
      split at h
      · cases h
        simp
      · cases h

/-- What is read in base ten can be written. -/
theorem isWritable_of_value? (hfirst : first.isDigit = true) (hform : shape first cs = (form, more))
    (hbase : ∀ base, form ≠ .based base) (h : value? form (first :: cs.take more) = some value) :
    value.IsWritable := by
  cases form with
  | based base => exact absurd rfl (hbase base)
  | fraction =>
      obtain ⟨d, -, rfl⟩ := Option.map_eq_some_iff.1 h
      trivial
  | whole =>
      have hdigits := isDigitOf_of_mem_withoutUnderscores (isPlace_of_shape hfirst hform)
      simp only [value?] at h
      split at h
      · next hlength =>
          cases h
          refine decide_eq_true (Nat.lt_of_lt_of_le (Digits.toNat_lt hdigits) ?_)
          rw [tenTo_eq_pow]
          exact Nat.pow_le_pow_right (by decide) hlength
      · cases h

theorem exists_form_of_read (h : read first cs = .ok (value, more)) :
    ∃ form, shape first cs = (form, more) ∧ value? form (first :: cs.take more) = some value := by
  have hfinish : ∀ form numeral length, read.finish form numeral length = .ok (value, more) →
      value? form numeral = some value ∧ length = more := by
    intro form numeral length hfinish
    simp only [read.finish] at hfinish
    split at hfinish
    · next hvalue =>
        cases hfinish
        exact ⟨hvalue, rfl⟩
    · cases hfinish
  cases hshape : shape first cs with | mk form length
  simp only [read, hshape] at h
  split at h
  · split at h
    · cases h
    · obtain ⟨hvalue, rfl⟩ := hfinish _ _ _ h
      exact ⟨form, rfl, hvalue⟩
  · obtain ⟨hvalue, rfl⟩ := hfinish _ _ _ h
    exact ⟨form, rfl, hvalue⟩

end Numeral

/-! ## Numbers among tokens -/

namespace Piece

/-- What begins with a digit is a numeral. -/
theorem read_eq_of_isDigit {first : Char} (h : first.isDigit = true) (cs : List Char) :
    read first cs =
      (Numeral.read first cs).map fun (value, more) => plain (.ofNumber value) first cs more := by
  unfold read
  split
  iterate 9 exact absurd h (by decide)
  rw [if_pos h]
  rfl

theorem read_of_isDigit {first : Char} {cs : List Char} {value : Number} {more : Nat}
    (h : first.isDigit = true) (hread : Numeral.read first cs = .ok (value, more)) :
    read first cs = .ok (plain (.ofNumber value) first cs more) := by
  rw [read_eq_of_isDigit h, hread]
  rfl

theorem error_of_isDigit {first : Char} {cs : List Char} {fault : Fault}
    (h : first.isDigit = true) (hread : Numeral.read first cs = .error fault) :
    read first cs = .error fault := by
  rw [read_eq_of_isDigit h, hread]
  rfl

/-- A piece that is a number is a numeral. -/
theorem exists_numeral_of_read {first : Char} {cs : List Char} {piece : Piece} {value : Term}
    (h : read first cs = .ok piece) (hlexeme : piece.lexeme? = some (.literal .number value)) :
    first.isDigit = true ∧ ∃ number more, Numeral.read first cs = .ok (number, more) ∧
      piece = plain (.ofNumber number) first cs more := by
  cases reads_of_read h with
  | @number number more hfirst hnumeral => exact ⟨hfirst, number, more, hnumeral, rfl⟩
  | word => exact absurd (kind_of_readWord hlexeme) (by decide)
  | _ => cases hlexeme

end Piece

namespace Token

/-- A token whose text begins as a numeral in a base other than ten. -/
def IsBased (t : Token) : Prop :=
  ∃ letter rest, t.text.toList = '0' :: letter :: rest ∧ (Numeral.baseOf? letter).isSome = true

/-- A number among the tokens of a text is not `nan`, and it can be written unless it is written in
a base other than ten. -/
theorem number_of_scan {line : Nat} {cs : List Char} {ts : List Token} (h : scan line cs = .ok ts)
    {t : Token} (ht : t ∈ ts) {value : Number} (hvalue : t.lexeme = .ofNumber value) :
    value ≠ .real .nan ∧ (value.IsWritable ∨ t.IsBased) := by
  obtain heof | ⟨first, rest, piece, hread, hlexeme, htext⟩ := exists_piece_of_scan h t ht
  · rw [hvalue] at heof
    cases heof
  · rw [hvalue] at hlexeme
    obtain ⟨hfirst, number, more, hnumeral, rfl⟩ := Piece.exists_numeral_of_read hread hlexeme
    obtain rfl : number = value := by
      cases hlexeme
      rfl
    obtain ⟨form, hshape, hform⟩ := Numeral.exists_form_of_read hnumeral
    refine ⟨Numeral.ne_nan_of_value? hform, ?_⟩
    by_cases hbased : ∃ base, form = .based base
    · obtain ⟨base, rfl⟩ := hbased
      obtain ⟨letter, digits, rfl, rfl, hbase, rfl⟩ := Numeral.exists_base_of_shape hshape
      refine .inr ⟨letter, digits.take (digits.takeWhile (Numeral.isPlace base)).length, ?_, ?_⟩
      · rw [← htext, Piece.plain, String.toList_ofList, Nat.add_comm, List.take_succ_cons]
      · rw [hbase]
        rfl
    · exact .inl (Numeral.isWritable_of_value? hfirst hshape (not_exists.1 hbased) hform)

end Token

end GradingScript
