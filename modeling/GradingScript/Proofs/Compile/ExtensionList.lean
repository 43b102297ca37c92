import GradingScript.Proofs.Compile.Completion
import GradingScript.Proofs.Compile.FileExtension
import GradingScript.Proofs.Term.Integers
import GradingScript.Proofs.Term.Value

/-!
# Lists of file extensions

A directive with a list of file extensions parts its arguments: those that are file extensions are
kept, in order and as often as they stand there, and each of the others is reported, in order too.
Nothing else changes.

* `map_string_validExtensions` and `invalidExtensions_eq_filter` say which argument goes where.
* `exists_tokens_of_mapM` says what is reported of those that are not kept.
* `statement_allowedExtensions` is the directive as a whole.
-/

namespace GradingScript.Compile

/-- A string that is a file extension. -/
def IsExtension (t : Term) : Prop :=
  ∃ text, t = .string text ∧ IsDottedWords text

theorem isExtension_string {text : String} : IsExtension (.string text) ↔ IsDottedWords text := by
  simp [IsExtension]

theorem isSome_validExtension?_iff {t : Term} :
    (State.extensions.validExtension? t).isSome = true ↔ IsExtension t := by
  rw [Option.isSome_iff_exists]
  exact exists_congr fun _ => validExtension?_eq_some_iff

instance : DecidablePred IsExtension :=
  fun _ => decidable_of_iff _ isSome_validExtension?_iff

theorem map_string_validExtension? (t : Term) :
    (State.extensions.validExtension? t).map .string = Option.guard (IsExtension ·) t := by
  cases hvalid : State.extensions.validExtension? t with
  | some text =>
      obtain ⟨rfl, htext⟩ := validExtension?_eq_some_iff.1 hvalid
      simp [Option.guard, isExtension_string, htext]
  | none =>
      have hextension : ¬ IsExtension t := by simp [← isSome_validExtension?_iff, hvalid]
      simp [Option.guard, hextension]

/-- What is kept are the data of the arguments that are file extensions. -/
theorem map_string_validExtensions (args : List Term) :
    (validExtensions args).map .string = (args.map Term.plain).filter (IsExtension ·) := by
  rw [validExtensions, List.map_filterMap, ← List.filterMap_eq_filter, List.filterMap_map]
  exact congrArg (fun f => args.filterMap f) (funext fun arg => map_string_validExtension? arg.plain)

theorem invalidExtensions_eq_filter (args : List Term) :
    invalidExtensions args = args.filter fun arg => ¬ IsExtension arg.plain := by
  refine List.filter_congr fun arg _ => ?_
  rw [Bool.eq_iff_iff, decide_eq_true_iff, ← isSome_validExtension?_iff]
  simp

/-- What is reported of an argument that shows as `token` and is no file extension. -/
def extensionDiagnostic (line : Int) (token : String) : Diagnostic :=
  ⟨line, "Invalid file extension: ", token,
    "A file extension must start with a dot and not contain any special characters."⟩

theorem diagnostic_extension (line : Int) (t : Term) :
    (Problem.extension t).diagnostic line = extensionDiagnostic line <$> t.render true := by
  rw [Problem.diagnostic, Problem.token]
  cases t.render true <;> rfl

/-- Each argument is reported as it stands in the script, with a string in quotes. -/
theorem exists_tokens_of_mapM {line : Int} {args : List Term} {ds : List Diagnostic}
    (h : args.mapM (fun arg => (Problem.extension arg.plain).diagnostic line) = .ok ds) :
    ∃ tokens, args.mapM (Term.render true) = .ok tokens ∧
      ds = tokens.map (extensionDiagnostic line) := by
  simp only [diagnostic_extension, Written.mapM_map] at h
  obtain ⟨tokens, htokens, rfl⟩ := Written.map_eq_ok.1 h
  rw [Term.mapM_render_plain] at htokens
  exact ⟨tokens, htokens, rfl⟩

/-- A directive with a list of file extensions sets the field to those of its arguments that are
file extensions, and reports each of the others once, on its line.  All else stays. -/
theorem statement_allowedExtensions (catalogue : Catalogue) (s : State) (line : Int)
    {args : List Term} (hne : args ≠ []) (hargs : ∀ arg ∈ args, arg.HasShortIntegers) :
    ∃ valid tokens,
      s.statement catalogue (.directive "allowed_file_extensions" line args) = .ok
        { s with
          errors := s.errors ++ tokens.map (extensionDiagnostic line)
          configuration := { s.configuration with allowedExtensions := valid } } ∧
      valid.map .string = (args.map Term.plain).filter (IsExtension ·) ∧
      (args.filter fun arg => ¬ IsExtension arg.plain).mapM (Term.render true) = .ok tokens ∧
      ∀ text, IsExtension (.string text) ↔
        text ≠ "" ∧ text.toList.head? = some '.' ∧ text.toList.getLast? ≠ some '.' ∧
          ¬ ['.', '.'] <:+: text.toList ∧ ∀ c ∈ text.toList, c = '.' ∨ Text.isWord c = true := by
  obtain ⟨⟨s', texts⟩, hextensions⟩ :=
    State.exists_extensions s line (Term.hasText_of_hasShortIntegers hargs)
  obtain ⟨rfl, ds, rfl, hds⟩ := State.extensions_eq_ok hextensions
  obtain ⟨tokens, htokens, rfl⟩ := exists_tokens_of_mapM hds
  rw [invalidExtensions_eq_filter] at htokens
  refine ⟨validExtensions args, tokens, ?_, map_string_validExtensions args, htokens,
    fun text => isExtension_string.trans isDottedWords_iff_forall_mem⟩
  obtain ⟨arg, args, rfl⟩ := List.exists_cons_of_ne_nil hne
  have hfield : Field.ofName? "allowed_file_extensions" = some .allowedExtensions := by decide
  rw [State.statement, State.directive, hfield]
  simp only [State.allowedExtensions, hextensions]
  rfl

/-- Two extensions, one of them twice, among a list, an argument with a key and a text with an empty
group. -/
theorem statement_allowedExtensions_mixed :
    let args : List Term := [.literal (.string ".ex") 1, .listNode [.literal (.string ".a") 1] 1,
      .literal (.string ".tar.gz") 1, .keyword "k" (.literal (.string "v") 1) 1,
      .literal (.string ".ex") 1, .literal (.string ".a..b") 1]
    args ≠ [] ∧ (∀ arg ∈ args, arg.HasShortIntegers) ∧
      ∃ s', State.empty.statement .standard (.directive "allowed_file_extensions" 1 args) = .ok s' ∧
        s'.configuration.allowedExtensions = [".ex", ".tar.gz", ".ex"] ∧
        s'.errors = ["[\".a\"]", "k: \"v\"", "\".a..b\""].map (extensionDiagnostic 1) := by
  intro args
  have hne : args ≠ [] := List.cons_ne_nil _ _
  have hargs : ∀ arg ∈ args, arg.HasShortIntegers := by
    simp only [args, List.forall_mem_cons, Term.HasShortIntegers, Term.integers,
      Term.integersOfAll]
    decide +kernel
  obtain ⟨valid, tokens, hstatement, hvalid, htokens, -⟩ :=
    statement_allowedExtensions .standard .empty 1 hne hargs
  have hkept : (args.map Term.plain).filter (IsExtension ·) =
      [".ex", ".tar.gz", ".ex"].map .string := rfl
  have hshown : (args.filter fun arg => ¬ IsExtension arg.plain).mapM (Term.render true) =
      .ok ["[\".a\"]", "k: \"v\"", "\".a..b\""] := rfl
  obtain rfl : valid = [".ex", ".tar.gz", ".ex"] :=
    (List.map_inj_right fun _ _ => Term.string.inj).1 (hvalid.trans hkept)
  obtain rfl := Except.ok.inj (htokens.symm.trans hshown)
  exact ⟨hne, hargs, _, hstatement, rfl, rfl⟩

end GradingScript.Compile
