import GradingScript.Proofs.Compile.Completion
import GradingScript.Proofs.Grammar.FirstRefusal
import GradingScript.Proofs.Token.IntegerLiteral
import GradingScript.Proofs.Token.Respacing

/-!
# Texts come to an outcome

Whatever is wrong with a text, it is compiled to an outcome, as long as every integer in it can be
written.  In base ten the reader of numerals sees to that: it rejects those of too many digits.  In
another base it does not, and an integer of too many digits breaks the compilation off where it is
to be written.

* `exists_compileText` is about all texts without such integers.
* `compileText_long` is about one for every number of digits.
-/

namespace GradingScript

open Term

/-! ## Errors of the reader -/

namespace Fault

theorem exists_token_label {keyword : String} {args : List Term}
    (h : ∀ arg ∈ args, arg.IsWritable) : ∃ text, (Fault.label keyword args).token = .ok text := by
  match args with
  | [] => exact ⟨_, rfl⟩
  | [arg] => exact exists_text (h arg (by simp))
  | arg :: arg' :: args => exact exists_text (inherited_isWritable.list.2 h)

/-- A fault that speaks of no terms shows a text. -/
theorem exists_token {fault : Fault} (h : fault.speaksOfTerms = false) :
    ∃ text, fault.token = .ok text := by
  cases fault with
  | label | negation => cases h
  | _ => exact ⟨_, rfl⟩

theorem speaksOfTerms_ofToken (t : Token) : (Fault.ofToken t).speaksOfTerms = false := by
  unfold Fault.ofToken
  split <;> rfl

end Fault

/-- Why tokens are no script can be told if their data can be written. -/
theorem Script.exists_token_of_ofTokens {ts : List Token} {e : ScriptError}
    (hend : Grammar.Terminated ts) (htyped : ∀ t ∈ ts, t.lexeme.isTyped = true)
    (hts : ∀ t ∈ ts, t.lexeme.Holds IsWritable) (herror : Script.ofTokens ts = .error e) :
    ∃ text, e.fault.token = .ok text := by
  cases Grammar.refusal_of_ofTokens hend htyped herror with
  | unexpected => exact Fault.exists_token (Fault.speaksOfTerms_ofToken _)
  | label hbefore hhead =>
      obtain ⟨os, us, blocks, statements, rfl, -, -, hargs⟩ := hhead
      exact Fault.exists_token_label (hargs.holds inherited_isWritable negatable_isWritable
        fun u hu => hts u (hbefore.subset (by simp [hu])))
  | openBlock => exact Fault.exists_token rfl

theorem Outcome.exists_ofScriptError {e : ScriptError} (h : ∃ text, e.fault.token = .ok text) :
    ∃ o, ofScriptError e = .ok o :=
  Written.exists_bind h fun _ _ => ⟨_, rfl⟩

/-! ## Texts -/

variable {catalogue : Catalogue}

/-- A text comes to an outcome if its integers in a base other than ten can be written. -/
theorem exists_compileText (hcatalogue : catalogue.Answers) {text : String}
    (htext : ∀ ts, Token.ofText text = .ok ts → ∀ t ∈ ts, t.IsBased →
      ∀ i, t.lexeme = .ofNumber (.int i) → Number.isShort i = true) :
    ∃ o, compileText catalogue text = .ok o := by
  cases hscan : Token.scan 1 text.toList with
  | error e =>
      rw [compileText, Script.ofText_of_scan_error hscan]
      exact Outcome.exists_ofScriptError (Fault.exists_token (Token.speaksOfTerms_of_scan hscan))
  | ok ts =>
      obtain ⟨hend, htyped⟩ := Token.terminated_of_scan hscan
      have hts : ∀ t ∈ ts, t.lexeme.Holds IsWritable := fun t ht => by
        refine Lexeme.holds_of_isTyped inherited_isWritable isWritable_bool (htyped t ht) ?_
        intro value hvalue
        rw [isWritable_number]
        rcases (Token.number_of_scan hscan ht hvalue).2 with hwritable | hbased
        · exact hwritable
        · cases value with
          | int i => exact htext ts hscan t ht hbased i hvalue
          | real x => trivial
      rw [compileText, Script.ofText_of_scan hscan]
      cases hread : Script.ofTokens ts with
      | error e =>
          exact Outcome.exists_ofScriptError
            (Script.exists_token_of_ofTokens hend htyped hts hread)
      | ok script =>
          have hscript := (Grammar.spells_of_ofTokens hend hread).carries inherited_isWritable
            negatable_isWritable hts
          exact exists_compile hcatalogue hscript

/-- An image cannot be a number, and the number in question can be written. -/
theorem exists_compileText_image :
    let text := "@env \"custom\", image: 0x1F"
    (∃ ts, Token.ofText text = .ok ts ∧ ∃ t ∈ ts, t.IsBased) ∧
      ∃ o, compileText .standard text = .ok o := by
  intro text
  let number : Token := ⟨.ofNumber (.int 31), 1, "0x1F"⟩
  let ts : List Token := [⟨.mark .at, 1, "@"⟩, ⟨.name "env", 1, "env"⟩,
    ⟨.ofString "custom", 1, "\"custom\""⟩, ⟨.mark .comma, 1, ","⟩, ⟨.key "image", 1, "image:"⟩,
    number, ⟨.eof, 1, ""⟩]
  have htokens : Token.ofText text = .ok ts := by cbv
  refine ⟨⟨ts, htokens, number, by simp [ts], 'x', ['1', 'F'], by decide, rfl⟩, ?_⟩
  refine exists_compileText Catalogue.answers_standard fun us hus t ht _ i hi => ?_
  obtain rfl : ts = us := Except.ok.inj (htokens.symm.trans hus)
  have hvalue : i = 31 := by
    simp only [ts, number, List.mem_cons, List.not_mem_nil, or_false] at ht
    rcases ht with rfl | rfl | rfl | rfl | rfl | rfl | rfl <;> cases hi
    rfl
  subst hvalue
  decide +kernel

/-! ## Long integers -/

/-- So many hexadecimal digits of the highest value spell the number before a power of sixteen. -/
theorem Digits.toNat_replicate (n : Nat) : toNat 16 (List.replicate n 'f') + 1 = 16 ^ n := by
  induction n with
  | zero => rfl
  | succ n ih =>
      have hvalue : value 'f' = 15 := rfl
      rw [List.replicate_succ', toNat_concat, hvalue, Nat.pow_succ, ← ih]
      omega

theorem Numeral.spellsBased_replicate {n : Nat} (hn : 0 < n) :
    SpellsBased ('0' :: 'x' :: List.replicate n 'f') (Digits.toNat 16 (List.replicate n 'f')) := by
  have hunderscores : withoutUnderscores (List.replicate n 'f') = List.replicate n 'f' := by
    simp [withoutUnderscores]
  have hplaces : Places 16 (List.replicate n 'f') (Digits.toNat 16 (List.replicate n 'f')) := by
    refine places_iff.2 ⟨fun c hc => ?_, by rw [hunderscores]⟩
    rw [List.eq_of_mem_replicate hc]
    rfl
  exact ⟨'x', 16, _, by decide, rfl, hplaces, 'f', by simp [hn.ne'], by decide⟩

/-- They are read as that number, however many they are. -/
theorem Token.scan_replicate {n : Nat} (hn : 0 < n) :
    scan 1 ('0' :: 'x' :: List.replicate n 'f') =
      .ok [⟨.ofNumber (.int (Digits.toNat 16 (List.replicate n 'f'))), 1,
        String.ofList ('0' :: 'x' :: List.replicate n 'f')⟩, ⟨.eof, 1, ""⟩] := by
  have hnothing : ofText "" = .ok [⟨.eof, 1, ""⟩] := scan_nil 1
  have hnumber := @ofText_based _ _ "" (Numeral.spellsBased_replicate hn)
    (by simp [Numeral.EndsWord])
  rw [hnothing, String.append_empty, ofText, String.toList_ofList] at hnumber
  exact hnumber

/-- A directive about files whose only argument is an integer of `n` hexadecimal digits. -/
def longText (n : Nat) : String :=
  String.ofList ("@required_files 0x".toList ++ List.replicate n 'f')

theorem scan_longText {n : Nat} (hn : 0 < n) : Token.scan 1 (longText n).toList =
    .ok [⟨.mark .at, 1, "@"⟩, ⟨.name "required_files", 1, "required_files"⟩,
      ⟨.ofNumber (.int (Digits.toNat 16 (List.replicate n 'f'))), 1,
        String.ofList ('0' :: 'x' :: List.replicate n 'f')⟩, ⟨.eof, 1, ""⟩] := by
  have hat (rest : List Char) : Piece.read '@' ("required_files 0x".toList ++ rest) =
      .ok ⟨some (.mark .at), "@", 0⟩ := rfl
  have hname (rest : List Char) : Piece.read 'r' ("equired_files 0x".toList ++ rest) =
      .ok ⟨some (.name "required_files"), "required_files", 13⟩ := rfl
  have hblank (rest : List Char) : Piece.read ' ' ('0' :: 'x' :: rest) = .ok (.gap 0) := rfl
  have hgap : Token.scan 1 (' ' :: '0' :: 'x' :: List.replicate n 'f') =
      Token.scan 1 ('0' :: 'x' :: List.replicate n 'f') := Token.scan_cons_gap (hblank _)
  have hfiles : Token.scan 1 ("required_files 0x".toList ++ List.replicate n 'f') =
      (Token.scan 1 (' ' :: '0' :: 'x' :: List.replicate n 'f')).map
        (⟨.name "required_files", 1, "required_files"⟩ :: ·) := Token.scan_cons_ok (hname _)
  have hmark : Token.scan 1 ("@required_files 0x".toList ++ List.replicate n 'f') =
      (Token.scan 1 ("required_files 0x".toList ++ List.replicate n 'f')).map
        (⟨.mark .at, 1, "@"⟩ :: ·) := Token.scan_cons_ok (hat _)
  have htext : (longText n).toList = "@required_files 0x".toList ++ List.replicate n 'f' :=
    String.toList_ofList
  rw [htext, hmark, hfiles, hgap, Token.scan_replicate hn]
  rfl

theorem compile_longInteger {i : Int} (h : Number.isShort i = false) :
    compile catalogue [.directive "required_files" 1 [.literal (.number (.int i)) 1]] =
      .error .longInteger := by
  have htext : (Term.number (.int i)).text = .error .longInteger := by
    simp [Term.text, Term.render, Number.text, Number.intText, h]
  have hfield : Field.ofName? "required_files" = some .requiredFiles := rfl
  have hfiles : Compile.State.empty.requiredFiles 1 [.literal (.number (.int i)) 1] =
      .error .longInteger := by
    simp [Compile.State.requiredFiles, htext]
  simp only [compile, Compile.State.statements, Compile.State.statement, Compile.State.directive,
    hfield, hfiles, List.foldlM_cons]
  rfl

/-- If such an integer cannot be written, the compilation of the text breaks off there. -/
theorem compileText_long {n : Nat} (h : tenTo maxDigits < 16 ^ n) :
    compileText catalogue (longText n) = .error .longInteger := by
  have hn : 0 < n := by
    by_contra hzero
    obtain rfl : n = 0 := by omega
    exact absurd h (Nat.not_lt.2 (Nat.one_le_iff_ne_zero.2 (by simp [tenTo_eq_pow])))
  have hlong : Number.isShort (Digits.toNat 16 (List.replicate n 'f')) = false := by
    have hvalue := Digits.toNat_replicate n
    simp only [Number.isShort, Int.natAbs_natCast, decide_eq_false_iff_not, Nat.not_lt]
    omega
  rw [compileText, Script.ofText_of_scan (scan_longText hn)]
  have hscript : Script.ofTokens [⟨.mark .at, 1, "@"⟩,
      ⟨.name "required_files", 1, "required_files"⟩,
      ⟨.ofNumber (.int (Digits.toNat 16 (List.replicate n 'f'))), 1,
        String.ofList ('0' :: 'x' :: List.replicate n 'f')⟩, ⟨.eof, 1, ""⟩] =
      .ok [.directive "required_files" 1
        [.literal (.number (.int (Digits.toNat 16 (List.replicate n 'f')))) 1]] := rfl
  rw [hscript]
  exact compile_longInteger hlong

theorem compileText_long_standard :
    compileText .standard (longText 3600) = .error .longInteger :=
  compileText_long (by decide +kernel)

end GradingScript
