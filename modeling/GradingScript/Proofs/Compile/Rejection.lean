import GradingScript.Proofs.Compile.Journal

/-!
# Rejected statements

A statement that is rejected as a whole leaves nothing behind but one diagnostic: whatever is built
before and after it is built as if it were not there, and all other diagnostics stay.
-/

namespace GradingScript

open Compile

variable {catalogue : Catalogue}

/-- A statement that reports something is rejected as a whole, unless it adds a step or filters a
list of extensions. -/
theorem Compile.Effect.rejected_of_lt {s s' : State} {t : Term} (h : Effect catalogue s t s')
    (hmore : s.errors.length < s'.errors.length)
    (hstep : ∀ label line children, t = .block label line children "step" →
      label ∈ s.configuration.stepNames)
    (hextensions : ∀ line args, t = .directive Field.allowedExtensions.name line args →
      args = []) :
    ∃ d, s' = { s with errors := s.errors ++ [d] } := by
  cases h with
  | rejected _ _ => exact ⟨_, rfl⟩
  | env _ _ => exact absurd hmore (Nat.lt_irrefl _)
  | requiredFiles _ _ => exact absurd hmore (Nat.lt_irrefl _)
  | allowedExtensions hname _ =>
      subst hname
      exact absurd (hextensions _ _ rfl) (List.cons_ne_nil _ _)
  | grade _ _ _ => exact absurd hmore (Nat.lt_irrefl _)
  | networkAccess _ _ => exact absurd hmore (Nat.lt_irrefl _)
  | assignment => exact absurd hmore (Nat.lt_irrefl _)
  | step hkeyword hnew _ =>
      subst hkeyword
      exact absurd (hstep _ _ _ rfl) hnew

/-- A rejected statement leaves no trace but its diagnostic. -/
theorem compile_rejected {xs : Script} {t : Term} {o o' : Outcome}
    (hxs : compile catalogue xs = .ok o) (ht : compile catalogue (xs ++ [t]) = .ok o')
    (hmore : o.errors.length < o'.errors.length)
    (hstep : ∀ label line children, t = .block label line children "step" →
      ∃ c, o.draft = some c ∧ label ∈ c.stepNames)
    (hextensions : ∀ line args, t = .directive "allowed_file_extensions" line args → args = []) :
    ∃ e, o'.errors = o.errors ++ [e] ∧
      ∀ ys p, compile catalogue (xs ++ ys) = .ok p →
        ∃ p' behind, compile catalogue (xs ++ t :: ys) = .ok p' ∧
          p'.draft.map Configuration.withoutErrors = p.draft.map Configuration.withoutErrors ∧
          p.errors = o.errors ++ behind ∧ p'.errors = o.errors ++ e :: behind := by
  obtain ⟨s, hs, rfl⟩ := compile_eq_ok_iff.1 hxs
  obtain ⟨s', hs', rfl⟩ := compile_eq_ok_iff.1 ht
  obtain ⟨u, hu, hstatement⟩ := State.statements_concat_eq_ok.1 hs'
  obtain rfl : s = u := Except.ok.inj (hs.symm.trans hu)
  have hstep' : ∀ label line children, t = .block label line children "step" →
      label ∈ s.configuration.stepNames := by
    intro label line children hblock
    obtain ⟨c, hc, hold⟩ := hstep label line children hblock
    cases hc
    exact hold
  obtain ⟨e, rfl⟩ := (State.effect_of_statement hstatement).rejected_of_lt hmore hstep' hextensions
  refine ⟨e, rfl, fun ys p hp => ?_⟩
  obtain ⟨v, hv, rfl⟩ := compile_eq_ok_iff.1 hp
  rw [State.statements_append, hs] at hv
  -- What the statements behind add is the same with the diagnostic and without it.
  obtain ⟨w, hw, rfl⟩ := State.statements_eq_ok_iff.1 hv
  have hw' : ({ s with errors := s.errors ++ [e] } : State).statements catalogue ys =
      .ok (w.behind (s.errors ++ [e])) := State.statements_eq_ok_iff.2 ⟨w, hw, rfl⟩
  refine ⟨.ofState (w.behind (s.errors ++ [e])), w.errors, ?_, rfl, rfl, by simp [Outcome.ofState]⟩
  refine compile_eq_ok_iff.2 ⟨_, ?_, rfl⟩
  rw [State.statements_append, hs]
  change s.statements catalogue (t :: ys) = _
  rw [State.statements_cons, hstatement]
  exact hw'

/-- An image that the environment rejects leaves the one before it in place. -/
theorem compile_rejected_image :
    ∃ p, compile .standard
        [.directive "env" 1 [.literal (.string "custom") 1,
          .keyword "image" (.literal (.string "x") 1) 1],
        .directive "env" 2 [.literal (.string "custom") 2, .keyword "image" (.literal .nil 2) 2],
        .block "a" 3 [.atom "b" 4] "step"] = .ok p ∧
      p.draft.map Configuration.withoutErrors =
        some ⟨some "x", some "custom", [], [], none, false, [⟨"a", []⟩], []⟩ ∧
      p.errors = [⟨2, "unsupported image: ", "nil", ""⟩, ⟨4, "syntax error", "", ""⟩] := by
  have h := @compile_rejected .standard
    [.directive "env" 1 [.literal (.string "custom") 1,
      .keyword "image" (.literal (.string "x") 1) 1]]
    (.directive "env" 2 [.literal (.string "custom") 2, .keyword "image" (.literal .nil 2) 2])
    ⟨some ⟨some "x", some "custom", [], [], none, false, [], []⟩, [],
      some ⟨some "x", some "custom", [], [], none, false, [], []⟩⟩
    ⟨none, [⟨2, "unsupported image: ", "nil", ""⟩],
      some ⟨some "x", some "custom", [], [], none, false, [],
        [⟨2, "unsupported image: ", "nil", ""⟩]⟩⟩
    (by cbv) (by cbv) (by decide) nofun (by simp)
  obtain ⟨e, he, hys⟩ := h
  obtain rfl : _ = e := (List.cons.inj he).1
  obtain ⟨p, behind, hp, hdraft, hbefore, hbehind⟩ := hys [.block "a" 3 [.atom "b" 4] "step"]
    ⟨none, [⟨4, "syntax error", "", ""⟩],
      some ⟨some "x", some "custom", [], [], none, false, [⟨"a", []⟩],
        [⟨4, "syntax error", "", ""⟩]⟩⟩ (by cbv)
  obtain rfl : _ = behind := hbefore
  exact ⟨p, hp, hdraft, hbehind⟩

end GradingScript
