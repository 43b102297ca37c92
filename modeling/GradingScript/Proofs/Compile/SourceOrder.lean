import GradingScript.Proofs.Compile.Effect
import GradingScript.Proofs.Grammar.Lines
import GradingScript.Proofs.Token.Scanned
import Mathlib

/-!
# Diagnostics in the order of the text

A statement is reported on its own line, and a step also on those of the statements in it.  Reports
come in the order in which statements are compiled, and that is the order of the text.
-/

namespace GradingScript

open Compile

/-- Lines `reported` that are taken from the lines `ls`, perhaps several times, but in order. -/
structure Follows (reported ls : List Int) : Prop where
  sorted : ls.Pairwise (· ≤ ·) → reported.Pairwise (· ≤ ·)
  subset : reported ⊆ ls

namespace Follows

theorem nil (ls : List Int) : Follows [] ls :=
  ⟨fun _ => .nil, List.nil_subset ls⟩

theorem of_sublist {reported ls : List Int} (h : reported.Sublist ls) : Follows reported ls :=
  ⟨fun hls => hls.sublist h, h.subset⟩

/-- A line may be reported any number of times. -/
theorem of_forall_eq {reported : List Int} {l : Int} (h : ∀ k ∈ reported, k = l) :
    Follows reported [l] := by
  refine ⟨fun _ => ?_, fun k hk => by simp [h k hk]⟩
  refine List.pairwise_of_forall_mem_list fun j hj k hk => ?_
  exact Int.le_of_eq ((h j hj).trans (h k hk).symm)

theorem append {reported reported' ls ls' : List Int} (h : Follows reported ls)
    (h' : Follows reported' ls') : Follows (reported ++ reported') (ls ++ ls') := by
  constructor
  · intro hsorted
    obtain ⟨hls, hls', hbetween⟩ := List.pairwise_append.1 hsorted
    exact List.pairwise_append.2 ⟨h.sorted hls, h'.sorted hls', fun k hk l hl =>
      hbetween k (h.subset hk) l (h'.subset hl)⟩
  · exact List.append_subset.2 ⟨List.Subset.trans h.subset (List.subset_append_left _ _),
      List.Subset.trans h'.subset (List.subset_append_right _ _)⟩

end Follows

theorem Problem.line_of_diagnostic {p : Problem} {line : Int} {d : Diagnostic}
    (h : p.diagnostic line = .ok d) : d.line = line :=
  (diagnostic_eq_ok.1 h).1

namespace Compile

/-- The statements of a step that fail are reported in order, each on its line. -/
theorem lines_of_commands {b : Bindings} {environment : Option Environment}
    {children : List Term} {cs : List Command} {ds : List Diagnostic}
    (h : commands b environment children = .ok (cs, ds)) :
    (ds.map Diagnostic.line).Sublist (children.map Term.line) := by
  induction children generalizing cs ds with
  | nil =>
      obtain ⟨-, rfl⟩ := Prod.mk.inj (Written.pure_eq_ok.1 h)
      exact .slnil
  | cons child children ih =>
      obtain ⟨result, -, h⟩ := Written.bind_eq_ok.1 h
      cases result with
      | ok c =>
          obtain ⟨⟨cs', ds'⟩, hchildren, h⟩ := Written.bind_eq_ok.1 h
          obtain ⟨-, rfl⟩ := Prod.mk.inj (Written.pure_eq_ok.1 h)
          exact (ih hchildren).cons child.line
      | error p =>
          obtain ⟨d, hd, h⟩ := Written.bind_eq_ok.1 h
          obtain ⟨⟨cs', ds'⟩, hchildren, h⟩ := Written.bind_eq_ok.1 h
          obtain ⟨-, rfl⟩ := Prod.mk.inj (Written.pure_eq_ok.1 h)
          rw [List.map_cons, List.map_cons, p.line_of_diagnostic hd]
          exact (ih hchildren).cons_cons child.line

/-- The bad extensions of a list are all reported on its line. -/
theorem line_of_mem_extensions {args : List Term} {line : Int} {ds : List Diagnostic}
    (h : args.mapM (fun arg => (Problem.extension arg.plain).diagnostic line) = .ok ds) :
    ∀ d ∈ ds, d.line = line := by
  intro d hd
  obtain ⟨arg, -, hd⟩ := Written.exists_of_mem_mapM h hd
  exact Problem.line_of_diagnostic hd

/-- What a statement reports comes behind what was reported before, on its lines and in order. -/
theorem Effect.follows {catalogue : Catalogue} {s s' : State} {t : Term}
    (h : Effect catalogue s t s') :
    ∃ ds, s'.errors = s.errors ++ ds ∧ Follows (ds.map Diagnostic.line) t.reportLines := by
  have hline : [t.line].Sublist t.reportLines := by cases t <;> simp [Term.reportLines, Term.line]
  cases h with
  | @rejected _ p d hmay hd =>
      refine ⟨[d], rfl, .of_sublist ?_⟩
      simpa [p.line_of_diagnostic hd] using hline
  | @allowedExtensions name line arg args ds hname hds =>
      refine ⟨ds, rfl, .of_forall_eq (l := line) ?_⟩
      simpa using line_of_mem_extensions hds
  | @step label line children keyword cs ds hkeyword hnew hcommands =>
      exact ⟨ds, rfl, .of_sublist ((lines_of_commands hcommands).cons line)⟩
  | env => exact ⟨[], by simp, .nil _⟩
  | requiredFiles => exact ⟨[], by simp [State.configure], .nil _⟩
  | grade => exact ⟨[], by simp [State.configure], .nil _⟩
  | networkAccess => exact ⟨[], by simp [State.configure], .nil _⟩
  | assignment => exact ⟨[], by simp, .nil _⟩

/-- What a script reports comes on the lines of its statements, in order. -/
theorem follows_of_statements {catalogue : Catalogue} {script : Script} {s : State}
    (h : State.empty.statements catalogue script = .ok s) :
    Follows (s.errors.map Diagnostic.line) (script.flatMap Term.reportLines) := by
  refine State.statements_induction
    (P := fun script s => Follows (s.errors.map Diagnostic.line) (script.flatMap Term.reportLines))
    (.nil _) ?_ h
  intro script s t s' _ hs ht
  obtain ⟨ds, herrors, hds⟩ := (State.effect_of_statement ht).follows
  rw [herrors, List.map_append, List.flatMap_append, List.flatMap_singleton]
  exact hs.append hds

end Compile

/-- The error of a text that is no script stands on one of its lines. -/
theorem Script.isLineOf_of_ofText_error {text : String} {e : ScriptError}
    (h : Script.ofText text = .error e) : Token.IsLineOf 1 text.toList e.line := by
  cases hscan : Token.scan 1 text.toList with
  | error e' =>
      rw [ofText_of_scan_error hscan] at h
      cases h
      exact Token.isLineOf_of_scan_error hscan
  | ok ts =>
      obtain ⟨hend, htyped⟩ := Token.terminated_of_scan hscan
      rw [ofText_of_scan hscan] at h
      obtain ⟨t, ht, hline⟩ := (Grammar.refusal_of_ofTokens hend htyped h).exists_line
      rw [hline]
      exact (Token.lines_of_scan hscan).2 t ht

/-- A diagnostic stands on a line of the text. -/
theorem isLineOf_of_compileText {catalogue : Catalogue} {text : String} {o : Outcome}
    (h : compileText catalogue text = .ok o) {d : Diagnostic} (hd : d ∈ o.errors) :
    Token.IsLineOf 1 text.toList d.line := by
  obtain ⟨script, s, hscript, hs, rfl⟩ | ⟨e, token, he, -, rfl⟩ := compileText_cases h
  · obtain ⟨ts, hscan, hspells⟩ := Grammar.spells_of_ofText hscript
    have hline := (follows_of_statements hs).subset (List.mem_map_of_mem hd)
    obtain ⟨t, ht, hline⟩ := List.mem_map.1 (hspells.reportLines_sublist.subset hline)
    rw [← hline]
    exact (Token.lines_of_scan hscan).2 t ht
  · obtain rfl := List.mem_singleton.1 hd
    exact Script.isLineOf_of_ofText_error he

/-- Diagnostics come in the order of the text, and on lines that it has. -/
theorem compileText_errors_in_order {catalogue : Catalogue} {text : String} {o : Outcome}
    (h : compileText catalogue text = .ok o) :
    (o.errors.map Diagnostic.line).Pairwise (· ≤ ·) ∧
      ∀ d ∈ o.errors, 1 ≤ d.line ∧ d.line ≤ 1 + Text.lineFeeds text.toList := by
  unfold compileText at h
  split at h
  · next script hscript =>
      obtain ⟨s, hs, rfl⟩ := Written.map_eq_ok.1 h
      have hfollows := follows_of_statements hs
      cases hscan : Token.scan 1 text.toList with
      | error e =>
          rw [Script.ofText_of_scan_error hscan] at hscript
          cases hscript
      | ok ts =>
          rw [Script.ofText_of_scan hscan] at hscript
          obtain ⟨hsorted, hlines⟩ := Token.lines_of_scan hscan
          have hspells := Grammar.spells_of_ofTokens (Token.terminated_of_scan hscan).1 hscript
          have hscript := hspells.reportLines_sublist
          refine ⟨hfollows.sorted (hsorted.sublist hscript), fun d hd => ?_⟩
          have hline := hfollows.subset (List.mem_map_of_mem hd)
          obtain ⟨t, ht, hline⟩ := List.mem_map.1 (hscript.subset hline)
          rw [← hline]
          exact hlines t ht
  · next e he =>
      obtain ⟨token, -, h⟩ := Written.bind_eq_ok.1 h
      obtain rfl := Written.pure_eq_ok.1 h
      have hline := Script.isLineOf_of_ofText_error he
      exact ⟨by simp, by simpa [Token.IsLineOf] using hline⟩

/-- A heredoc moves the statements behind it down, and one line has two of them. -/
theorem compileText_errors_in_order_heredoc :
    let text := "@env\n@grade \"\"\"\nlow\n\"\"\"\nstep \"s\" do\nrun x; print x\nend; @grade"
    let o : Outcome := .ofState ⟨{ Configuration.empty with steps := [⟨"s", []⟩] }, .empty, none,
      [⟨1, "missing environment name", "", ""⟩, ⟨2, "grade must be a number: ", "low\n", ""⟩,
        ⟨6, "undefined variable: ", "x", ""⟩, ⟨6, "undefined variable: ", "x", ""⟩,
        ⟨7, "syntax error", "", ""⟩]⟩
    compileText .standard text = .ok o ∧ (o.errors.map Diagnostic.line).Pairwise (· ≤ ·) ∧
      ∀ d ∈ o.errors, 1 ≤ d.line ∧ d.line ≤ 1 + Text.lineFeeds text.toList := by
  intro text o
  have hscript : Script.ofText text = .ok [.directive "env" 1 [],
      .directive "grade" 2 [.literal (.string "low\n") 2],
      .block "s" 5 [.call "run" 6 [.identifier "x" 6], .call "print" 6 [.identifier "x" 6]] "step",
      .directive "grade" 7 []] := by cbv
  have hcompile : compileText .standard text = .ok o := by
    rw [compileText, hscript]
    rfl
  exact ⟨hcompile, compileText_errors_in_order hcompile⟩

end GradingScript
