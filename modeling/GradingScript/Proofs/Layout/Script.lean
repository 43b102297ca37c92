import GradingScript.Proofs.Grammar.Lines
import GradingScript.Proofs.Layout.Compile
import GradingScript.Proofs.Layout.Reading
import Mathlib

/-!
# Layout means nothing

Two texts with the same tokens, but for their layout, compile to the same outcome, but for the lines
of diagnostics: both come to what their tokens without any layout are compiled to.  This takes
environments that make their images of what parameters are, as the built-in ones do; one that shows
the line of a parameter tells layouts apart.
-/

namespace GradingScript

open Grammar

/-- What comes of a script that was read, or of the error that reading gave. -/
def compileReading (catalogue : Catalogue) : Except ScriptError Script → Written Outcome
  | .ok script => compile catalogue script
  | .error e => Outcome.ofScriptError e

theorem compileText_eq (catalogue : Catalogue) (text : String) :
    compileText catalogue text = compileReading catalogue (Script.ofText text) := by
  unfold compileText compileReading
  cases Script.ofText text <;> rfl

theorem Outcome.ofScriptError_unplaced {e : ScriptError}
    (h : (e.fault.mapLines fun _ => 0).token = e.fault.token) :
    ofScriptError (e.mapLines fun _ => 0) = unplaced <$> ofScriptError e := by
  rw [ofScriptError, ofScriptError, ScriptError.mapLines, h, Fault.description_mapLines, map_bind]
  rfl

variable {catalogue : Catalogue}

/-- What tokens are compiled to without their layout is what they are compiled to, but for lines. -/
theorem compileReading_withoutLayout (hcatalogue : catalogue.IgnoresLines) {ts : List Token}
    (hend : Terminated ts) (htyped : ∀ t ∈ ts, t.lexeme.isTyped = true) :
    compileReading catalogue (Script.ofTokens (Token.withoutLayout ts)) =
      Outcome.unplaced <$> compileReading catalogue (Script.ofTokens ts) := by
  rw [Script.ofTokens_withoutLayout hend]
  cases hread : Script.ofTokens ts with
  | error e =>
      exact Outcome.ofScriptError_unplaced (Script.token_mapLines_of_ofTokens hend htyped hread _)
  | ok script =>
      exact compile_unplaced hcatalogue ((spells_of_ofTokens hend hread).hasValues htyped)

theorem compileReading_of_ofText (hcatalogue : catalogue.IgnoresLines) {text : String}
    {ts : List Token} (h : Token.ofText text = .ok ts) :
    compileReading catalogue (Script.ofTokens (Token.withoutLayout ts)) =
      Outcome.unplaced <$> compileText catalogue text := by
  obtain ⟨hend, htyped⟩ := Token.terminated_of_scan h
  rw [compileText_eq, Script.ofText_of_scan h, compileReading_withoutLayout hcatalogue hend htyped]

/-- Texts whose tokens are the same without their layout compile to the same outcome, but for the
lines of diagnostics; neither outcome can be written if the other cannot. -/
theorem compileText_layout (hcatalogue : catalogue.IgnoresLines) {u v : String}
    {ts us : List Token} (hu : Token.ofText u = .ok ts) (hv : Token.ofText v = .ok us)
    (h : Token.withoutLayout ts = Token.withoutLayout us) :
    Outcome.unplaced <$> compileText catalogue u =
      Outcome.unplaced <$> compileText catalogue v := by
  rw [← compileReading_of_ofText hcatalogue hu, h, compileReading_of_ofText hcatalogue hv]

/-- A comment, semicolons and line feeds move both diagnostics. -/
theorem compileText_layout_semicolons :
    let u := ";\n@grade :x;;\n@env # off"
    let v := "@grade\t:x\n@env"
    let ts : List Token := [⟨.newline, 1, ";"⟩, ⟨.newline, 1, "\n"⟩, ⟨.mark .at, 2, "@"⟩,
      ⟨.name "grade", 2, "grade"⟩, ⟨.atom "x", 2, ":x"⟩, ⟨.newline, 2, ";"⟩, ⟨.newline, 2, ";"⟩,
      ⟨.newline, 2, "\n"⟩, ⟨.mark .at, 3, "@"⟩, ⟨.name "env", 3, "env"⟩, ⟨.eof, 3, ""⟩]
    let us : List Token := [⟨.mark .at, 1, "@"⟩, ⟨.name "grade", 1, "grade"⟩, ⟨.atom "x", 1, ":x"⟩,
      ⟨.newline, 1, "\n"⟩, ⟨.mark .at, 2, "@"⟩, ⟨.name "env", 2, "env"⟩, ⟨.eof, 2, ""⟩]
    let errors (first second : Int) : List Diagnostic :=
      [⟨first, "grade must be a number: ", ":x", ""⟩, ⟨second, "missing environment name", "", ""⟩]
    Token.ofText u = .ok ts ∧ Token.ofText v = .ok us ∧
      Token.withoutLayout ts = Token.withoutLayout us ∧
      compileText .standard v = .ok ⟨none, errors 1 2,
        some ⟨none, none, [], [], none, false, [], errors 1 2⟩⟩ ∧
      Outcome.unplaced <$> compileText .standard u = .ok ⟨none, errors 0 0,
        some ⟨none, none, [], [], none, false, [], errors 0 0⟩⟩ := by
  intro u v ts us errors
  have hu : Token.ofText u = .ok ts := by cbv
  have hv : Token.ofText v = .ok us := by cbv
  have hlayout : Token.withoutLayout ts = Token.withoutLayout us := rfl
  have hread : Script.ofTokens us =
      .ok [.directive "grade" 1 [.atom "x" 1], .directive "env" 2 []] := rfl
  have hcompile : compileText .standard v = .ok ⟨none, errors 1 2,
      some ⟨none, none, [], [], none, false, [], errors 1 2⟩⟩ := by
    rw [compileText_eq, Script.ofText_of_scan hv, hread]
    rfl
  refine ⟨hu, hv, hlayout, hcompile, ?_⟩
  rw [compileText_layout Catalogue.ignoresLines_standard hu hv hlayout, hcompile]
  rfl

/-- The images of the environments have to be made of what their parameters are.  An image that
shows its parameter with its line is another one behind a line feed. -/
theorem compileText_layout_line_shown :
    let ruby : Environment := .single "RubyEnvironment" "ruby" "version"
      (fun value => do pure (.ok ("ruby:" ++ (← value.display) ++ "-slim"))) []
    let catalogue : Catalogue := ⟨[.custom, .elixir, .java, ruby], by decide⟩
    let u := "@env \"ruby\", version: :latest"
    let v := "\n@env \"ruby\", version: :latest"
    let tokens (line : Int) : List Token := [⟨.mark .at, line, "@"⟩, ⟨.name "env", line, "env"⟩,
      ⟨.ofString "ruby", line, "\"ruby\""⟩, ⟨.mark .comma, line, ","⟩,
      ⟨.key "version", line, "version:"⟩, ⟨.atom "latest", line, ":latest"⟩, ⟨.eof, line, ""⟩]
    let outcome (image : String) : Outcome := .ofState
      { Compile.State.empty with
        configuration :=
          { Configuration.empty with image := some image, environment := some "ruby" } }
    Catalogue.standard.register ruby = some catalogue ∧
      Token.ofText u = .ok (tokens 1) ∧ Token.ofText v = .ok (⟨.newline, 1, "\n"⟩ :: tokens 2) ∧
      Token.withoutLayout (tokens 1) = Token.withoutLayout (⟨.newline, 1, "\n"⟩ :: tokens 2) ∧
      compileText catalogue u = .ok (outcome "ruby:Atom(name='latest', line=1)-slim") ∧
      compileText catalogue v = .ok (outcome "ruby:Atom(name='latest', line=2)-slim") ∧
      Outcome.unplaced <$> compileText catalogue u ≠
        Outcome.unplaced <$> compileText catalogue v := by
  intro ruby catalogue u v tokens outcome
  have hu : Token.ofText u = .ok (tokens 1) := by cbv
  have hv : Token.ofText v = .ok (⟨.newline, 1, "\n"⟩ :: tokens 2) := by cbv
  let script (line : Int) : Script := [.directive "env" line
    [.literal (.string "ruby") line, .keyword "version" (.atom "latest" line) line]]
  have hfirst : compileText catalogue u =
      .ok (outcome "ruby:Atom(name='latest', line=1)-slim") := by
    have hread : Script.ofTokens (tokens 1) = .ok (script 1) := rfl
    rw [compileText_eq, Script.ofText_of_scan hu, hread]
    decide +kernel
  have hsecond : compileText catalogue v =
      .ok (outcome "ruby:Atom(name='latest', line=2)-slim") := by
    have hread : Script.ofTokens (⟨.newline, 1, "\n"⟩ :: tokens 2) = .ok (script 2) := rfl
    rw [compileText_eq, Script.ofText_of_scan hv, hread]
    decide +kernel
  refine ⟨rfl, hu, hv, rfl, hfirst, hsecond, fun hsame => ?_⟩
  rw [hfirst, hsecond] at hsame
  have himage := congrArg (fun o => o.toOption.bind (·.configuration)) hsame
  revert himage
  decide

end GradingScript
