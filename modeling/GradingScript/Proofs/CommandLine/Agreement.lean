import GradingScript.CommandLine.Basic
import GradingScript.Proofs.Compile.Grade
import GradingScript.Proofs.Compile.SourceOrder

/-!
# The command line agrees with the compiler

The commands `check` and `show` read a script, compile it and report on the outcome, each in its own
way.  Both compile in two steps of their own, where `compileText` has one, and both come to its
outcome: they succeed on the same scripts, print the configuration that it gives, and report the
diagnostics that it gives, in that order and in the same words.

* `compileScript_of_passed` and `compileScript_of_failed` are about the part that both commands
  share, whatever is announced before and whatever is done with the configuration.
* `run_of_compileText` is about both commands as they are called.
-/

namespace GradingScript

/-! ## Output -/

namespace Output

@[simp] theorem stdout_append (a b : Output) : (a ++ b).stdout = a.stdout ++ b.stdout := rfl

@[simp] theorem stderr_append (a b : Output) : (a ++ b).stderr = a.stderr ++ b.stderr := rfl

theorem append_assoc (a b c : Output) : a ++ b ++ c = a ++ (b ++ c) :=
  congrArg₂ Output.mk (String.append_assoc ..) (String.append_assoc ..)

@[simp] theorem append_empty (a : Output) : a ++ empty = a :=
  congrArg₂ Output.mk String.append_empty String.append_empty

@[simp] theorem empty_append (a : Output) : empty ++ a = a :=
  congrArg₂ Output.mk String.empty_append String.empty_append

@[simp] theorem stderr_say (lines : List String) : (say lines).stderr = "" := rfl

@[simp] theorem stdout_warn (lines : List String) : (warn lines).stdout = "" := rfl

end Output

namespace CommandLine

@[simp] theorem Run.after_done (banner : Output) (exitCode : Nat) (output : Output) :
    Run.after banner (.ok (.done exitCode output)) = .done exitCode (banner ++ output) := rfl

@[simp] theorem Run.output_done (exitCode : Nat) (output : Output) :
    (Run.done exitCode output).output = output := rfl

/-- What goes on behind two outputs goes on behind both of them together. -/
theorem Run.after_after (a b : Output) (next : Written Run) :
    Run.after a (pure (Run.after b next)) = Run.after (a ++ b) next := by
  cases next with
  | error e => rfl
  | ok run => simp [Run.after, Output.append_assoc, pure, Except.pure]

end CommandLine

/-! ## What can be written -/

theorem Number.isShort_of_natAbs_le {i j : Int} (h : i.natAbs ≤ j.natAbs)
    (hj : isShort j = true) : isShort i = true :=
  decide_eq_true (Nat.lt_of_le_of_lt h (of_decide_eq_true hj))

/-- A grade that is not rejected can be written. -/
theorem Compile.State.isWritable_of_outOfRange {g : Number} (h : outOfRange g = false) :
    g.IsWritable := by
  cases g with
  | real x => trivial
  | int i =>
      obtain hnan | ⟨hlow, hhigh⟩ := outOfRange_eq_false_iff.1 h
      · cases hnan
      · have hone : Number.isShort 1 = true := by decide +kernel
        simp only [Number.le, decide_eq_true_eq] at hlow hhigh
        exact Number.isShort_of_natAbs_le (by omega) hone

/-- The grade of a configuration can be written. -/
theorem isWritable_of_grade {catalogue : Catalogue} {text : String} {o : Outcome}
    {c : Configuration} (h : compileText catalogue text = .ok o) (hc : o.configuration = some c)
    {g : Number} (hg : c.grade = some g) : g.IsWritable := by
  obtain ⟨script, s, -, hs, rfl⟩ | ⟨e, token, -, -, rfl⟩ := compileText_cases h
  · have hgrade : s.configuration.grade = some g := by
      simp only [Outcome.ofState] at hc
      split at hc
      · obtain rfl := Option.some.inj hc
        exact hg
      · cases hc
    exact Compile.State.isWritable_of_outOfRange (Compile.grade_of_statements Term.inherited_true
      (fun _ _ _ _ => trivial) hs hgrade).1
  · cases hc

/-- If the number of lines of a text can be written, then so can all that is wrong with it. -/
theorem exists_texts_of_compileText {catalogue : Catalogue} {text : String} {o : Outcome}
    (h : compileText catalogue text = .ok o)
    (hlines : Number.isShort (1 + Text.lineFeeds text.toList) = true) :
    ∃ texts, o.errors.mapM Diagnostic.text = .ok texts := by
  refine Written.exists_mapM fun d hd => ?_
  obtain ⟨hfirst, hlast⟩ := isLineOf_of_compileText h hd
  have hline := Number.isShort_of_natAbs_le (i := d.line) (by omega) hlines
  exact Written.exists_bind (Number.exists_intText hline) fun _ _ => ⟨_, rfl⟩

namespace Report

variable {c : Configuration}

theorem exists_configuration (h : ∀ g, c.grade = some g → g.IsWritable) :
    ∃ output, configuration c = .ok output ∧ output.stderr = "" := by
  have hgrade : ∃ grade, c.grade.mapM Number.text = .ok grade := by
    cases hgrade : c.grade with
    | none => exact ⟨none, rfl⟩
    | some g =>
        obtain ⟨text, htext⟩ := Number.exists_text (h g hgrade)
        exact ⟨some text, by simp [htext]⟩
  obtain ⟨grade, hgrade⟩ := hgrade
  exact ⟨summary c grade, Written.bind_eq_ok.2 ⟨grade, hgrade, rfl⟩, rfl⟩

theorem Json.exists_numberText {n : Number} (h : n.IsWritable) :
    ∃ text, numberText n = .ok text := by
  unfold numberText
  split
  · exact ⟨_, rfl⟩
  · exact ⟨_, rfl⟩
  · exact Number.exists_text h

theorem Json.exists_ofConfiguration (h : ∀ g, c.grade = some g → g.IsWritable) :
    ∃ json, ofConfiguration c = .ok json := by
  unfold ofConfiguration
  cases hgrade : c.grade with
  | none => exact ⟨_, rfl⟩
  | some g => exact Written.exists_bind (exists_numberText (h g hgrade)) fun text _ => ⟨_, rfl⟩

/-- The lines about a script with problems: how many there are, and each of them on a line. -/
def failureLines (errors : List Diagnostic) (texts : List String) : List String :=
  ("\nCOMPILE FAILED (" ++ String.ofList (Digits.ofNat errors.length) ++ " error" ++
      (if errors.length = 1 then "" else "s") ++ ")") ::
    texts.map fun text => "  " ++ trimEnd text

end Report

namespace Outcome

theorem unwrap_of_not_ok {o : Outcome} (h : o.ok = false) : o.unwrap = .error o.errors := by
  unfold unwrap
  split
  · rw [if_neg (by simp [h])]
  · rfl

end Outcome

namespace CommandLine

variable {catalogue : Catalogue} {path : Path} {text : String} {o : Outcome}
  {announce : Nat → Output} {next : Configuration → Written Run}

/-! ## Compiling a script -/

/-- Behind the announcement of a script without problems stands what is done with its
configuration. -/
theorem compileScript_of_passed (h : compileText catalogue text = .ok o) (hok : o.ok = true) :
    ∃ c count, o.configuration = some c ∧
      compileScript catalogue false path text announce next =
        .after (announce count) (next c) := by
  obtain ⟨script, s, hscript, hs, rfl⟩ | ⟨e, token, -, -, rfl⟩ := compileText_cases h
  · have hconfiguration : (Outcome.ofState s).configuration =
        some { s.configuration with errors := s.errors } := if_pos hok
    have hunwrap : (Outcome.ofState s).unwrap =
        .ok { s.configuration with errors := s.errors } := by
      rw [Outcome.unwrap, hconfiguration]
      exact if_pos hok
    refine ⟨_, script.length, hconfiguration, ?_⟩
    simp only [compileScript, hscript, compile_eq_ok_iff.2 ⟨s, hs, rfl⟩, bind, Except.bind, hunwrap]
    exact (Run.after_after _ _ _).trans (by rw [Report.trace]; simp)
  · cases hok

/-- Behind the announcement of a script with problems, if it comes to that, stand all of them. -/
theorem compileScript_of_failed (h : compileText catalogue text = .ok o) (hok : o.ok = false) :
    ∃ banner, (banner = .empty ∨ ∃ count, banner = announce count) ∧
      compileScript catalogue false path text announce next = .after banner (fail o.errors) := by
  obtain ⟨script, s, hscript, hs, rfl⟩ | ⟨e, token, he, htoken, rfl⟩ := compileText_cases h
  · refine ⟨announce script.length, .inr ⟨_, rfl⟩, ?_⟩
    simp only [compileScript, hscript, compile_eq_ok_iff.2 ⟨s, hs, rfl⟩, bind, Except.bind,
      Outcome.unwrap_of_not_ok hok]
    exact (Run.after_after _ _ _).trans (by rw [Report.trace]; simp)
  · refine ⟨.empty, .inl rfl, ?_⟩
    have herror : Outcome.ofScriptError e =
        .ok ⟨none, [⟨e.line, e.fault.description, token, ""⟩], none⟩ :=
      Written.bind_eq_ok.2 ⟨token, htoken, rfl⟩
    simp only [compileScript, he]
    -- What is traced names the line, so it can be written just when the diagnostic can.
    cases hline : Number.intText e.line with
    | error long =>
        have hmessage : e.message = .error long := by
          rw [ScriptError.message, hline]
          rfl
        have hfail : fail [⟨e.line, e.fault.description, token, ""⟩] = .error long := by
          rw [fail, Report.failed, List.mapM_cons, Diagnostic.text, hline]
          rfl
        rw [hmessage, hfail]
        rfl
    | ok line =>
        have hmessage : ∃ message, e.message = .ok message :=
          Written.exists_bind ⟨line, hline⟩ fun _ _ =>
            Written.exists_bind ⟨token, htoken⟩ fun _ _ => ⟨_, rfl⟩
        obtain ⟨message, hmessage⟩ := hmessage
        simp only [hmessage, herror, bind, Except.bind]
        exact (Run.after_after _ _ _).trans (by rw [Report.trace]; simp)

/-! ## Reading a script -/

theorem fromUTF8?_toUTF8 (content : String) :
    String.fromUTF8? content.toUTF8 = some content := by
  rw [String.fromUTF8?, dif_pos (show content.toUTF8.IsValidUTF8 from content.isValidUTF8)]
  rfl

variable {settings : Settings} {folder : Folder} {file content : String}

/-- No text at all leads to the folder itself, so what leads to a file is a text. -/
theorem ne_empty_of_get {bytes : ByteArray}
    (h : folder.get (Path.ofText file) = .ok (.file bytes)) : file ≠ "" := by
  rintro rfl
  have hfolder : folder.get (Path.ofText "") = .ok .folder := rfl
  rw [hfolder] at h
  cases h

/-- A script that is named is read, with its lines ended by line feeds. -/
theorem withScript_of_file (hfile : folder.get (Path.ofText file) = .ok (.file content.toUTF8))
    (unreadable : Path → String → Output) (next : Path → String → Run) :
    withScript settings folder (some file) unreadable next =
      next (Path.ofText file) (String.ofList (Text.withLineFeeds content.toList)) := by
  have hthere : Settings.isThere folder (Path.ofText file) = .ok true := by
    rw [Settings.isThere, Folder.has, hfile]
  have hdiscover : settings.discover folder (some file) = .ok (Path.ofText file) := by
    rw [Settings.discover, if_neg (ne_empty_of_get hfile), Settings.discover.named, hthere]
    rfl
  have hread : read folder (Path.ofText file) = .ok content.toUTF8 := by
    rw [read, hfile]
  have hdecode : decode? content.toUTF8 =
      some (String.ofList (Text.withLineFeeds content.toList)) := by
    rw [decode?, fromUTF8?_toUTF8, Option.map_some]
  simp only [withScript, hdiscover, hread, hdecode]

/-! ## Both commands -/

section

variable (settings : Settings)
  (hfile : folder.get (Path.ofText file) = .ok (.file content.toUTF8))
  (h : compileText catalogue (String.ofList (Text.withLineFeeds content.toList)) = .ok o)

include hfile h

theorem check_of_passed (hok : o.ok = true) :
    ∃ output, output.stderr = "" ∧
      check settings catalogue folder false (some file) = .done 0 output := by
  rw [check, withScript_of_file hfile]
  obtain ⟨c, count, hc, hcompile⟩ := compileScript_of_passed h hok
  obtain ⟨output, houtput, hstderr⟩ :=
    Report.exists_configuration fun g hg => isWritable_of_grade h hc hg
  let path := Path.ofText file
  let started := Report.started path.name (String.ofList (Digits.ofNat count))
  refine ⟨started ++ (output ++ Report.success path.name), ?_, by rw [hcompile, houtput]; rfl⟩
  simp [started, hstderr, Report.started, Report.success]

theorem showJson_of_passed (hok : o.ok = true) (indent : Int) :
    ∃ c json, o.configuration = some c ∧ Report.Json.ofConfiguration c = .ok json ∧
      showJson settings catalogue folder false (some file) indent =
        .done 0 ⟨json.text indent.toNat 0 ++ "\n", ""⟩ := by
  rw [showJson, withScript_of_file hfile]
  obtain ⟨c, count, hc, hcompile⟩ := compileScript_of_passed h hok
  obtain ⟨json, hjson⟩ := Report.Json.exists_ofConfiguration fun g hg => isWritable_of_grade h hc hg
  refine ⟨c, json, hc, hjson, ?_⟩
  have hsay : Output.say [json.text indent.toNat 0] = ⟨json.text indent.toNat 0 ++ "\n", ""⟩ := by
    simp [Output.say, String.join]
  rw [hcompile, hjson, ← hsay]
  rfl

theorem check_of_failed (hok : o.ok = false) :
    ∃ banner, banner.stderr = "" ∧
      check settings catalogue folder false (some file) = .after banner (fail o.errors) := by
  rw [check, withScript_of_file hfile]
  obtain ⟨banner, hbanner, hcompile⟩ := compileScript_of_failed h hok
  refine ⟨banner, ?_, hcompile⟩
  rcases hbanner with rfl | ⟨count, rfl⟩ <;> rfl

theorem showJson_of_failed (hok : o.ok = false) (indent : Int) :
    showJson settings catalogue folder false (some file) indent =
      .after .empty (fail o.errors) := by
  rw [showJson, withScript_of_file hfile]
  obtain ⟨banner, hbanner, hcompile⟩ := compileScript_of_failed h hok
  rw [hcompile]
  rcases hbanner with rfl | ⟨count, rfl⟩ <;> rfl

end

theorem fail_of_texts {errors : List Diagnostic} {texts : List String}
    (h : errors.mapM Diagnostic.text = .ok texts) :
    fail errors = .ok (.done 1 (.warn (Report.failureLines errors texts))) := by
  rw [fail, Report.failed, h]
  rfl

/-- A command that fails on the problems of a script ends in the same way behind every announcement,
and about the failure it writes the same. -/
theorem after_fail (errors : List Diagnostic) {banner : Output} (hbanner : banner.stderr = "") :
    let failed := Run.after banner (fail errors)
    let alone := Run.after .empty (fail errors)
    failed.exitCode = 1 ∧ alone.exitCode = 1 ∧ failed.output.stderr = alone.output.stderr ∧
      failed.abort = alone.abort ∧ alone.output.stdout = "" := by
  cases htexts : errors.mapM Diagnostic.text with
  | error e =>
      have hfail : fail errors = .error e := by
        rw [fail, Report.failed, htexts]
        rfl
      rw [hfail]
      exact ⟨rfl, rfl, hbanner, rfl, rfl⟩
  | ok texts =>
      rw [fail_of_texts htexts, Run.after_done, Run.after_done]
      refine ⟨rfl, rfl, ?_, rfl, rfl⟩
      simp [hbanner]

/-- Both commands compile a script to the outcome of its text.  If nothing is wrong with it, they
succeed and write nothing about a failure, and `show` prints the configuration.  If something is
wrong, both fail and report it in the same words, and `show` prints nothing else; all is reported if
the number of lines can be written. -/
theorem run_of_compileText (settings : Settings)
    (hfile : folder.get (Path.ofText file) = .ok (.file content.toUTF8))
    (h : compileText catalogue (String.ofList (Text.withLineFeeds content.toList)) = .ok o) :
    let checked := run settings catalogue folder ["check", "--script", file]
    let shown := run settings catalogue folder ["show", "--script", file]
    (o.ok = true → ∃ c json, o.configuration = some c ∧
      Report.Json.ofConfiguration c = .ok json ∧
      checked.exitCode = 0 ∧ checked.output.stderr = "" ∧ checked.abort = none ∧
      shown = .done 0 ⟨json.text 2 0 ++ "\n", ""⟩) ∧
    (o.ok = false →
      checked.exitCode = 1 ∧ shown.exitCode = 1 ∧ checked.output.stderr = shown.output.stderr ∧
      checked.abort = shown.abort ∧ shown.output.stdout = "" ∧
      (Number.isShort (1 + Text.lineFeeds (Text.withLineFeeds content.toList)) = true →
        ∃ texts, o.errors.mapM Diagnostic.text = .ok texts ∧
          shown = .done 1 (.warn (Report.failureLines o.errors texts)))) := by
  intro checked shown
  have hchecked : checked = check settings catalogue folder false (some file) := rfl
  have hshown : shown = showJson settings catalogue folder false (some file) 2 := rfl
  rw [hchecked, hshown]
  constructor
  · intro hok
    obtain ⟨output, hstderr, hcheck⟩ := check_of_passed settings hfile h hok
    obtain ⟨c, json, hc, hjson, hshow⟩ := showJson_of_passed settings hfile h hok 2
    rw [hcheck]
    exact ⟨c, json, hc, hjson, rfl, hstderr, rfl, hshow⟩
  · intro hok
    obtain ⟨banner, hbanner, hcheck⟩ := check_of_failed settings hfile h hok
    rw [hcheck, showJson_of_failed settings hfile h hok]
    obtain ⟨hcode, hcode', hstderr, habort, hstdout⟩ := after_fail o.errors hbanner
    refine ⟨hcode, hcode', hstderr, habort, hstdout, fun hlines => ?_⟩
    obtain ⟨texts, htexts⟩ := exists_texts_of_compileText h (by simpa using hlines)
    refine ⟨texts, htexts, ?_⟩
    rw [fail_of_texts htexts, Run.after_done, Output.empty_append]

/-- A misspelled field on a line that ends in the way of another system. -/
theorem run_of_compileText_misspelled :
    let content := "@grde 1\r\n"
    let folder : Folder := ⟨⟨[(["lab.conf"], .file content.toUTF8)]⟩, .standardRoot⟩
    let settings := Settings.ofVariables none none
    let o := Outcome.ofState
      ⟨.empty, .empty, none, [⟨1, "incorrect field: ", "grde", "Did you mean grade?"⟩]⟩
    let checked := run settings .standard folder ["check", "--script", "lab.conf"]
    let shown := run settings .standard folder ["show", "--script", "lab.conf"]
    folder.get (Path.ofText "lab.conf") = .ok (.file content.toUTF8) ∧
      compileText .standard (String.ofList (Text.withLineFeeds content.toList)) = .ok o ∧
      shown = .done 1 ⟨"", "\nCOMPILE FAILED (1 error)\n" ++
        "  Line 1: incorrect field: grde. Did you mean grade?\n"⟩ ∧
      checked.exitCode = 1 ∧ checked.output.stderr = shown.output.stderr := by
  intro content folder settings o checked shown
  have hfile : folder.get (Path.ofText "lab.conf") = .ok (.file content.toUTF8) := by
    have hpath : Path.ofText "lab.conf" = .relative ["lab.conf"] := by decide +kernel
    rw [hpath]
    rfl
  have hfeeds : String.ofList (Text.withLineFeeds content.toList) = "@grde 1\n" := by decide
  have hread : Script.ofText "@grde 1\n" =
      .ok [.directive "grde" 1 [.literal (.number (.int 1)) 1]] := by cbv
  have hcompile :
      compileText .standard (String.ofList (Text.withLineFeeds content.toList)) = .ok o := by
    rw [hfeeds, compileText, hread]
    decide +kernel
  have hlines : Number.isShort (1 + Text.lineFeeds (Text.withLineFeeds content.toList)) = true := by
    have hone : Text.lineFeeds (Text.withLineFeeds content.toList) = 1 := by decide
    rw [hone]
    decide +kernel
  have hok : o.ok = false := rfl
  have hagree := (run_of_compileText settings hfile hcompile).2 hok
  obtain ⟨hcode, -, hstderr, -, -, hall⟩ := hagree
  obtain ⟨texts, htexts, hshown⟩ := hall hlines
  have htext : o.errors.mapM Diagnostic.text =
      .ok ["Line 1: incorrect field: grde. Did you mean grade?"] := by decide +kernel
  obtain rfl := Except.ok.inj (htext.symm.trans htexts)
  have hwarn : Output.warn (Report.failureLines o.errors
      ["Line 1: incorrect field: grde. Did you mean grade?"]) =
      ⟨"", "\nCOMPILE FAILED (1 error)\n" ++
        "  Line 1: incorrect field: grde. Did you mean grade?\n"⟩ := by decide +kernel
  exact ⟨hfile, hcompile, hshown.trans (congrArg (Run.done 1) hwarn), hcode, hstderr⟩

end CommandLine

end GradingScript
