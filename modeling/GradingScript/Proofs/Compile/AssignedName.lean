import GradingScript.Proofs.Bindings.Template
import GradingScript.Proofs.Compile.Journal
import GradingScript.Proofs.Compile.StepContents
import GradingScript.Proofs.Printing.Lexemes
import GradingScript.Proofs.Token.Reads

/-!
# Placeholders of assigned names

A script assigns to a name, and a placeholder asks for a word.  A name is a word, but for one
character: it may end with a question mark or an exclamation mark, which no word does.  The
placeholder of such a name asks for the name without its mark.

* `Token.exists_word_of_scan` says what the names of a text are made of.
* `substitute_word` and `substitute_marked` are the two kinds of names, and
  `compile_assigned_word` is a script that assigns to a name of the first kind and asks for it.
-/

namespace GradingScript

/-! ## Names -/

/-- What a name may end with and a word may not. -/
def Piece.isMark (c : Char) : Prop :=
  c = '?' ∨ c = '!'

theorem Piece.isWord_of_isMark {c : Char} (h : isMark c) : Text.isWord c = false := by
  rcases h with rfl | rfl <;> decide

/-- What continues a name are word characters, and perhaps a mark behind them. -/
theorem Piece.exists_word_of_nameLength (cs : List Char) :
    ∃ word, (∀ c ∈ word, Text.isWord c = true) ∧ (cs.take (nameLength cs) = word ∨
      ∃ mark, isMark mark ∧ cs.take (nameLength cs) = word ++ [mark]) := by
  have hword : ∀ c ∈ cs.takeWhile fun c => c.isAlphanum || c = '_', Text.isWord c = true :=
    fun c hc => Text.isWord_of_isAlphanum
      (List.mem_takeWhile_imp (p := fun c => c.isAlphanum || decide (c = '_')) hc)
  have hprefix := List.takeWhile_prefix (fun c => c.isAlphanum || decide (c = '_')) (l := cs)
  simp only [nameLength]
  generalize (cs.takeWhile fun c => c.isAlphanum || decide (c = '_')) = word at hword hprefix ⊢
  obtain ⟨behind, rfl⟩ := hprefix
  refine ⟨word, hword, ?_⟩
  rw [List.drop_left]
  split
  · exact .inr ⟨'?', .inl rfl, by simp [List.take_append]⟩
  · exact .inr ⟨'!', .inr rfl, by simp [List.take_append]⟩
  · exact .inl (by simp)

/-- A name of a text is a word, perhaps with a mark behind it. -/
theorem Token.exists_word_of_scan {line : Nat} {cs : List Char} {ts : List Token}
    (h : scan line cs = .ok ts) {t : Token} (ht : t ∈ ts) {name : String}
    (hname : t.lexeme = .name name) :
    ∃ word : String, word.toList ≠ [] ∧ (∀ c ∈ word.toList, Text.isWord c = true) ∧
      (name = word ∨ ∃ mark, Piece.isMark mark ∧ name = word.push mark) := by
  obtain ⟨first, rest, htext, hfirst⟩ := name_of_scan h ht hname
  obtain ⟨word, hword, hrest⟩ := Piece.exists_word_of_nameLength rest
  have hfirstWord : Text.isWord first = true := by
    refine Text.isWord_of_isAlphanum ?_
    simp only [Piece.startsName, Bool.or_eq_true] at hfirst
    rcases hfirst with halpha | hunderscore
    · simp [Char.isAlphanum, halpha]
    · simp [hunderscore]
  refine ⟨String.ofList (first :: word), by simp, ?_, ?_⟩
  · rw [String.toList_ofList]
    exact List.forall_mem_cons.2 ⟨hfirstWord, hword⟩
  · rcases hrest with hrest | ⟨mark, hmark, hrest⟩
    · exact .inl (String.toList_injective (by rw [htext, hrest, String.toList_ofList]))
    · exact .inr ⟨mark, hmark, String.toList_injective (by simp [htext, hrest])⟩

/-! ## Substitution -/

namespace Bindings

variable {b : Bindings} {name word : String}

/-- The placeholder of a word is what comes in its place. -/
theorem substitute_percent (hne : word.toList ≠ [])
    (hword : ∀ c ∈ word.toList, Text.isWord c = true) :
    b.substitute ("%" ++ word) = String.ofList <$> b.replacement word.toList := by
  have hend : ∀ c, ([] : List Char).head? = some c → Text.isWord c = false := by simp
  have hplaceholder := substituteChars_placeholder b hne hword hend
  rw [List.append_nil] at hplaceholder
  rw [substitute, String.toList_append, show "%".toList = ['%'] from rfl, List.singleton_append,
    hplaceholder, map_eq_pure_bind]
  simp only [substituteChars_nil, Written.ok_bind, List.append_nil, bind_assoc]

theorem substitute_word {value : Term} {shown : String} (hne : word.toList ≠ [])
    (hword : ∀ c ∈ word.toList, Text.isWord c = true) (hvalue : b.get? word = some value)
    (hshown : value.text = .ok shown) : b.substitute ("%" ++ word) = .ok shown := by
  rw [substitute_percent hne hword]
  simp only [replacement, String.ofList_toList, hvalue, hshown, Written.ok_bind]
  exact congrArg Except.ok String.ofList_toList

/-- Whatever a name with a mark is bound to, its placeholder is that of the word before the mark. -/
theorem substitute_marked {mark : Char} (hne : word.toList ≠ [])
    (hword : ∀ c ∈ word.toList, Text.isWord c = true) (hmark : Text.isWord mark = false)
    (hname : name = word.push mark) (value : Term) :
    (b.bind name value).substitute ("%" ++ name) =
      (fun text => text.push mark) <$> b.substitute ("%" ++ word) := by
  have hother : name ≠ word := by
    intro hsame
    have hlength := congrArg String.length (hsame.symm.trans hname)
    simp at hlength
  have hreplacement : (b.bind name value).replacement word.toList = b.replacement word.toList := by
    rw [replacement, replacement, String.ofList_toList, get?_bind, if_neg hother]
  have hrest : ∀ c, [mark].head? = some c → Text.isWord c = false := by simpa using hmark
  have hplaceholder := substituteChars_placeholder (b.bind name value) hne hword hrest
  have hinert : Text.IsInert [mark] :=
    Text.isInert_cons.2 ⟨fun _ => Text.beginsOutside_nil, Text.isInert_nil⟩
  rw [substitute_percent hne hword, substitute, String.toList_append,
    show "%".toList = ['%'] from rfl, List.singleton_append, hname, String.toList_push, ← hname,
    hplaceholder, substituteChars_inert hinert, hreplacement]
  simp only [map_eq_pure_bind, Written.ok_bind, bind_assoc, pure_bind]
  exact bind_congr fun cs => congrArg pure (String.toList_injective (by simp))

end Bindings

/-! ## Scripts -/

open Compile

/-- What a script comes to that has one step with one command and nothing else. -/
def Outcome.ofCommand (label : String) (command : Command) : Outcome :=
  let configuration := { Configuration.empty with steps := [⟨label, [command]⟩] }
  ⟨some configuration, [], some configuration⟩

/-- A script that assigns to a word and runs its placeholder runs what the value is shown as. -/
theorem compile_assigned_word {word : String} {value : Term} {shown : String}
    (hne : word.toList ≠ []) (hword : ∀ c ∈ word.toList, Text.isWord c = true)
    (hshown : value.text = .ok shown) (catalogue : Catalogue) (label : String)
    (l₁ l₂ l₃ l₄ l₅ : Int) :
    compile catalogue [.assignment word (.literal value l₁) l₂,
      .block label l₃ [.call "run" l₄ [.literal (.string ("%" ++ word)) l₅]] "step"] =
      .ok (.ofCommand label ⟨"run", [shown]⟩) := by
  -- The state behind the assignment.
  let s : State := { State.empty with bindings := Bindings.empty.bind word (.literal value l₁) }
  have hvalue : s.bindings.get? word = some value := by
    rw [Bindings.get?_bind, if_pos rfl, Term.plain_literal]
  have hargument : ArgumentText s.bindings (.literal (.string ("%" ++ word)) l₅) shown := by
    refine ⟨fun name line h => ?_, .string shown, ?_, rfl, rfl⟩
    · rw [Term.plain_literal] at h
      cases h
    · rw [Term.plain_literal, Bindings.resolve, Bindings.substitute_word hne hword hvalue hshown]
      rfl
  have hcommand : command s.bindings s.environment
      (.call "run" l₄ [.literal (.string ("%" ++ word)) l₅]) = .ok (.ok ⟨"run", [shown]⟩) :=
    command_eq_ok_iff.2 (.common (by decide) hargument)
  have hstep : s.statement catalogue (.block label l₃
      [.call "run" l₄ [.literal (.string ("%" ++ word)) l₅]] "step") =
      .ok (s.configure fun c => { c with steps := [⟨label, [⟨"run", [shown]⟩]⟩] }) := by
    have hnew : label ∉ s.configuration.stepNames := List.not_mem_nil
    rw [State.statement, if_pos rfl, State.step, if_neg hnew, commands, hcommand]
    rfl
  exact compile_eq_ok_iff.2 ⟨_, State.statements_cons_eq_ok.2 ⟨s, rfl,
    State.statements_cons_eq_ok.2 ⟨_, hstep, State.statements_nil _ _⟩⟩, rfl⟩

/-- What a name of a text is assigned to is what its placeholder is replaced by, if the name has no
mark, and so it is in a script.  The placeholder of a name with a mark is that of the word before
it, whatever the name is bound to. -/
theorem substitute_assigned_name {source : String} {ts : List Token}
    (hscan : Token.ofText source = .ok ts) {t : Token} (ht : t ∈ ts) {name : String}
    (hname : t.lexeme = .name name) {value : Term} (hvalue : value.HasShortIntegers) :
    ∃ shown, value.text = .ok shown ∧
      ((∀ c ∈ name.toList, Text.isWord c = true) →
        (∀ (b : Bindings) line,
          (b.bind name (.literal value line)).substitute ("%" ++ name) = .ok shown) ∧
        ∀ catalogue text label l₁ l₂ l₃ l₄ l₅,
          Script.ofText text = .ok [.assignment name (.literal value l₁) l₂,
            .block label l₃ [.call "run" l₄ [.literal (.string ("%" ++ name)) l₅]] "step"] →
          compileText catalogue text = .ok (.ofCommand label ⟨"run", [shown]⟩)) ∧
      ((∃ c ∈ name.toList, Text.isWord c = false) →
        ∃ word mark, Piece.isMark mark ∧ name = word.push mark ∧
          ∀ (b : Bindings) bound, (b.bind name bound).substitute ("%" ++ name) =
            (fun text => text.push mark) <$> b.substitute ("%" ++ word)) := by
  obtain ⟨shown, hshown⟩ := hvalue.hasText
  obtain ⟨word, hne, hword, hkind⟩ := Token.exists_word_of_scan hscan ht hname
  refine ⟨shown, hshown, fun hall => ?_, fun hexists => ?_⟩
  · have hname : name.toList ≠ [] := by
      rcases hkind with rfl | ⟨mark, -, rfl⟩
      · exact hne
      · simp
    constructor
    · intro b line
      refine Bindings.substitute_word hname hall ?_ hshown
      rw [Bindings.get?_bind, if_pos rfl, Term.plain_literal]
    · intro catalogue text label l₁ l₂ l₃ l₄ l₅ hscript
      rw [compileText, hscript]
      exact compile_assigned_word hname hall hshown catalogue label l₁ l₂ l₃ l₄ l₅
  · rcases hkind with rfl | ⟨mark, hmark, hpush⟩
    · obtain ⟨c, hc, houtside⟩ := hexists
      rw [hword c hc] at houtside
      cases houtside
    · exact ⟨word, mark, hmark, hpush, fun b bound =>
        Bindings.substitute_marked hne hword (Piece.isWord_of_isMark hmark) hpush bound⟩

/-- A name without a mark, in a script that runs its placeholder. -/
theorem substitute_assigned_name_files :
    let text := "files = \"a.ex\"\nstep \"build\" do\n  run \"%files\"\nend"
    (∃ ts, Token.ofText text = .ok ts ∧ ∃ t ∈ ts, t.lexeme = .name "files") ∧
      (Term.string "a.ex").HasShortIntegers ∧
      compileText .standard text = .ok (.ofCommand "build" ⟨"run", ["a.ex"]⟩) := by
  intro text
  let name : Token := ⟨.name "files", 1, "files"⟩
  let behind : List Token := [⟨.mark .equals, 1, "="⟩, ⟨.ofString "a.ex", 1, "\"a.ex\""⟩,
    ⟨.newline, 1, "\n"⟩, ⟨.name "step", 2, "step"⟩, ⟨.ofString "build", 2, "\"build\""⟩,
    ⟨.do, 2, "do"⟩, ⟨.newline, 2, "\n"⟩, ⟨.name "run", 3, "run"⟩,
    ⟨.ofString "%files", 3, "\"%files\""⟩, ⟨.newline, 3, "\n"⟩, ⟨.end, 4, "end"⟩, ⟨.eof, 4, ""⟩]
  have htokens : Token.ofText text = .ok (name :: behind) := by cbv
  have hvalue : (Term.string "a.ex").HasShortIntegers := by
    simp [Term.HasShortIntegers, Term.integers]
  obtain ⟨shown, hshown, hword, -⟩ :=
    substitute_assigned_name htokens (t := name) List.mem_cons_self rfl hvalue
  obtain rfl : "a.ex" = shown := Except.ok.inj hshown
  have hscript : Script.ofText text = .ok [.assignment "files" (.literal (.string "a.ex") 1) 1,
      .block "build" 2 [.call "run" 3 [.literal (.string "%files") 3]] "step"] := by cbv
  have hall : "files".toList.all Text.isWord = true := by cbv
  refine ⟨⟨_, htokens, name, List.mem_cons_self, rfl⟩, hvalue, ?_⟩
  exact (hword (List.all_eq_true.1 hall)).2 .standard text "build" 1 1 2 3 3 hscript

/-- The value of a name with a mark does not get into the command. -/
theorem substitute_marked_name_unbound :
    let text := "ok? = \"x\"\nstep \"s\" do\n  run \"%ok?\"\nend"
    Script.ofText text = .ok [.assignment "ok?" (.literal (.string "x") 1) 1,
        .block "s" 2 [.call "run" 3 [.literal (.string "%ok?") 3]] "step"] ∧
      (Bindings.empty.bind "ok?" (.literal (.string "x") 1)).substitute "%ok?" = .ok "%ok?" ∧
      compileText .standard text = .ok (.ofCommand "s" ⟨"run", ["%ok?"]⟩) ∧
      compileText .standard text ≠ .ok (.ofCommand "s" ⟨"run", ["x"]⟩) := by
  intro text
  have hcompiled : compileText .standard text = .ok (.ofCommand "s" ⟨"run", ["%ok?"]⟩) := by cbv
  refine ⟨by cbv, by cbv, hcompiled, ?_⟩
  rw [hcompiled]
  decide

end GradingScript
