import GradingScript.Proofs.Compile.FileExtension
import GradingScript.Proofs.Compile.Journal
import GradingScript.Proofs.Lists

/-!
# What holds of every outcome

Every statement keeps a few relations between the script so far and what it has built: the steps are
those of the script, each name once; file extensions are valid; environment and image belong to the
last `@env` directive that was not rejected; and a list that a script without problems sets is not
empty.

* `stepNames_of_statements`, `isDottedWords_of_statements`, `lastChoice_of_statements` and
  `ne_nil_of_statements` are these relations, each kept by every statement.
* `Outcome.Consistent` is what they come to for the outcome of a script, and `compile_consistent`
  says that every outcome has it.
-/

namespace GradingScript

open Compile

/-! ## Steps -/

/-- The label of a step. -/
def Term.stepLabel? : Term → Option String
  | .block label _ _ kind => if kind = "step" then some label else none
  | _ => none

/-- The labels of the steps of a script, in order. -/
def Script.stepLabels (script : Script) : List String :=
  script.filterMap Term.stepLabel?

theorem Script.stepLabels_concat (script : Script) (t : Term) :
    Script.stepLabels (script ++ [t]) = script.stepLabels ++ t.stepLabel?.toList := by
  simp only [Script.stepLabels, List.filterMap_append, List.filterMap_cons, List.filterMap_nil]
  cases t.stepLabel? <;> rfl

namespace Compile

variable {catalogue : Catalogue} {script : Script} {s s' : State}

/-- A directive that sets one field is none that sets another. -/
theorem directive_ne {f g : Field} {name : String} {line : Int} {args : List Term}
    (hname : name = g.name) (hne : g ≠ f) (line' : Int) (args' : List Term) :
    Term.directive name line args ≠ .directive f.name line' args' := by
  intro heq
  obtain ⟨hsame, -, -⟩ := Term.directive.inj heq
  exact hne (Field.name_injective (hname.symm.trans hsame))

/-- A statement that may be rejected adds no step name. -/
theorem mem_stepNames_of_mayReject {t : Term} {label : String} (h : MayReject s t)
    (hlabel : t.stepLabel? = some label) : label ∈ s.configuration.stepNames := by
  cases t with
  | block name line children keyword =>
      by_cases hkeyword : keyword = "step"
      · obtain rfl : name = label := by simpa [Term.stepLabel?, hkeyword] using hlabel
        exact h hkeyword
      · simp [Term.stepLabel?, hkeyword] at hlabel
  | _ => cases hlabel

/-- The steps are those of the script; of several with one name only the first is one. -/
theorem stepNames_of_statements (h : State.empty.statements catalogue script = .ok s) :
    s.configuration.stepNames = script.stepLabels.eraseDups := by
  refine State.statements_induction (P := fun script s =>
    s.configuration.stepNames = script.stepLabels.eraseDups) rfl ?_ h
  intro script s t s' _ ih ht
  rw [Script.stepLabels_concat]
  -- What is no step adds neither a label to the script nor a name to the configuration.
  have hsame : t.stepLabel? = none →
      s.configuration.stepNames = (script.stepLabels ++ t.stepLabel?.toList).eraseDups := by
    intro hnone
    rw [hnone, Option.toList_none, List.append_nil, ih]
  cases State.effect_of_statement ht with
  | @rejected _ _ _ hmay _ =>
      cases hlabel : t.stepLabel? with
      | none => exact hlabel ▸ hsame hlabel
      | some label =>
          have hold := mem_stepNames_of_mayReject hmay hlabel
          rw [ih, List.mem_eraseDups] at hold
          rw [Option.toList_some, eraseDups_concat, if_pos hold]
          exact ih
  | step hkeyword hnew _ =>
      rw [ih, List.mem_eraseDups] at hnew
      rw [Term.stepLabel?, if_pos hkeyword, Option.toList_some, eraseDups_concat, if_neg hnew, ← ih]
      simp [Configuration.stepNames]
  | env => exact hsame rfl
  | requiredFiles => exact hsame rfl
  | allowedExtensions => exact hsame rfl
  | grade => exact hsame rfl
  | networkAccess => exact hsame rfl
  | assignment => exact hsame rfl

/-! ## File extensions -/

theorem isDottedWords_of_mem_validExtensions {args : List Term} {text : String}
    (h : text ∈ validExtensions args) : IsDottedWords text := by
  obtain ⟨arg, -, hvalid⟩ := List.mem_filterMap.1 h
  exact (validExtension?_eq_some_iff.1 hvalid).2

/-- Only valid extensions are allowed. -/
theorem isDottedWords_of_statements (h : State.empty.statements catalogue script = .ok s) :
    ∀ text ∈ s.configuration.allowedExtensions, IsDottedWords text := by
  refine State.statements_induction (P := fun _ s =>
    ∀ text ∈ s.configuration.allowedExtensions, IsDottedWords text) ?_ ?_ h
  · intro text htext
    cases htext
  · intro script s t s' _ ih ht
    cases State.effect_of_statement ht with
    | allowedExtensions _ _ => exact fun text => isDottedWords_of_mem_validExtensions
    | _ => exact ih

/-! ## The environment -/

/-- The statement `t`, compiled behind the statements `before`, reports nothing. -/
def Unreported (catalogue : Catalogue) (before : Script) (t : Term) : Prop :=
  ∃ s s', State.empty.statements catalogue before = .ok s ∧
    s.statement catalogue t = .ok s' ∧ s'.errors = s.errors

/-- Of the statements `behind`, which stand behind `before`, every `@env` directive reports
something. -/
def AllEnvReported (catalogue : Catalogue) (before behind : Script) : Prop :=
  ∀ mid line args rest, behind = mid ++ .directive "env" line args :: rest →
    ¬ Unreported catalogue (before ++ mid) (.directive "env" line args)

/-- The id of an environment and an image are those that the last `@env` directive of a script
chooses, of those that report nothing; there are none if there is no such directive. -/
inductive LastChoice (catalogue : Catalogue) (script : Script) :
    Option String → Option String → Prop
  | none (h : AllEnvReported catalogue [] script) : LastChoice catalogue script none none
  | some {before behind : Script} {line : Int} {args : List Term} {s : State} {e : Environment}
      {image : String} (hscript : script = before ++ .directive "env" line args :: behind)
      (hclean : Unreported catalogue before (.directive "env" line args))
      (hbefore : State.empty.statements catalogue before = .ok s)
      (hchoice : Chooses catalogue s args e image)
      (hbehind : AllEnvReported catalogue (before ++ [.directive "env" line args]) behind) :
      LastChoice catalogue script (some e.id) (some image)

theorem not_unreported {t : Term} {d : Diagnostic}
    (hs : State.empty.statements catalogue script = .ok s)
    (ht : s.statement catalogue t = .ok { s with errors := s.errors ++ [d] }) :
    ¬ Unreported catalogue script t := by
  rintro ⟨u, u', hu, hu', herrors⟩
  obtain rfl : s = u := Except.ok.inj (hs.symm.trans hu)
  obtain rfl := Except.ok.inj (ht.symm.trans hu')
  simp at herrors

theorem AllEnvReported.concat {before behind : Script} {t : Term}
    (h : AllEnvReported catalogue before behind)
    (ht : ∀ line args, t = .directive "env" line args →
      ¬ Unreported catalogue (before ++ behind) t) :
    AllEnvReported catalogue before (behind ++ [t]) := by
  intro mid line args rest hbehind
  -- The directive is the new statement, or it stands before it.
  rcases List.eq_nil_or_concat rest with rfl | ⟨rest', last, rfl⟩
  · obtain ⟨rfl, heq⟩ := List.append_inj' hbehind rfl
    obtain rfl : t = .directive "env" line args := by simpa using heq
    exact ht line args rfl
  · have hassoc : behind ++ [t] = (mid ++ .directive "env" line args :: rest') ++ [last] := by
      simpa using hbehind
    exact h mid line args rest' (List.append_inj' hassoc rfl).1

/-- A choice stands until an `@env` directive reports nothing. -/
theorem LastChoice.concat {t : Term} {id? image? : Option String}
    (h : LastChoice catalogue script id? image?)
    (ht : ∀ line args, t = .directive "env" line args → ¬ Unreported catalogue script t) :
    LastChoice catalogue (script ++ [t]) id? image? := by
  cases h with
  | none h => exact .none (h.concat ht)
  | some hscript hclean hbefore hchoice hbehind =>
      subst hscript
      refine .some (List.append_assoc _ _ _) hclean hbefore hchoice (hbehind.concat ?_)
      simpa using ht

/-- Environment and image are those of the last `@env` directive that reports nothing. -/
theorem lastChoice_of_statements (h : State.empty.statements catalogue script = .ok s) :
    LastChoice catalogue script s.configuration.environment s.configuration.image := by
  refine State.statements_induction (P := fun script s =>
    LastChoice catalogue script s.configuration.environment s.configuration.image) ?_ ?_ h
  · refine .none fun mid line args rest hnil => ?_
    simp at hnil
  · intro script s t s' hs ih ht
    have hother : (∀ line args, t ≠ .directive "env" line args) →
        LastChoice catalogue (script ++ [t]) s.configuration.environment s.configuration.image :=
      fun hne => ih.concat fun line args heq => absurd heq (hne line args)
    cases State.effect_of_statement ht with
    | rejected _ _ => exact ih.concat fun _ _ _ => not_unreported hs ht
    | env hname hchoice =>
        -- This is the last directive that chooses, since no other stands behind it.
        subst hname
        refine .some rfl ⟨s, _, hs, ht, rfl⟩ hs hchoice fun mid line args rest hnil => ?_
        simp at hnil
    | requiredFiles hname _ => exact hother (directive_ne hname (f := .env) (by decide))
    | allowedExtensions hname _ => exact hother (directive_ne hname (f := .env) (by decide))
    | grade hname _ _ => exact hother (directive_ne hname (f := .env) (by decide))
    | networkAccess hname _ => exact hother (directive_ne hname (f := .env) (by decide))
    | assignment => exact hother fun _ _ => Term.noConfusion
    | step _ _ _ => exact hother fun _ _ => Term.noConfusion

theorem mem_ids_of_chooses {args : List Term} {e : Environment} {image : String}
    (h : Chooses catalogue s args e image) : e.id ∈ catalogue.ids := by
  cases h with
  | mk _ _ _ hget _ _ => exact List.mem_map_of_mem (List.mem_of_find?_eq_some hget)

/-! ## Lists that are set -/

/-- A field is set at the top level of a script. -/
def Script.Sets (script : Script) (f : Field) : Prop :=
  ∃ line args, .directive f.name line args ∈ script

theorem Script.Sets.of_concat {t : Term} {f : Field}
    (ht : ∀ line args, t ≠ .directive f.name line args) (h : Script.Sets (script ++ [t]) f) :
    Script.Sets script f := by
  obtain ⟨line, args, hmem⟩ := h
  rcases List.mem_append.1 hmem with hmem | hmem
  · exact ⟨line, args, hmem⟩
  · exact absurd (List.mem_singleton.1 hmem).symm (ht line args)

theorem validExtensions_ne_nil {arg : Term} {args : List Term}
    (h : invalidExtensions (arg :: args) = []) : validExtensions (arg :: args) ≠ [] := by
  have harg := List.filter_eq_nil_iff.1 h arg List.mem_cons_self
  cases hvalid : State.extensions.validExtension? arg.plain with
  | none => simp [hvalid] at harg
  | some text => simp [validExtensions, hvalid]

theorem eq_nil_of_mapM_eq_nil {α β : Type} {f : α → Written β} {xs : List α}
    (h : xs.mapM f = .ok []) : xs = [] := by
  cases xs with
  | nil => rfl
  | cons x xs =>
      rw [List.mapM_cons, Written.bind_eq_ok] at h
      obtain ⟨y, -, h⟩ := h
      obtain ⟨ys, -, h⟩ := Written.bind_eq_ok.1 h
      cases h

/-- A list that a script without problems sets is not empty. -/
theorem ne_nil_of_statements (h : State.empty.statements catalogue script = .ok s)
    (hclean : s.errors = []) :
    (Script.Sets script .requiredFiles → s.configuration.requiredFiles ≠ []) ∧
      (Script.Sets script .allowedExtensions → s.configuration.allowedExtensions ≠ []) := by
  revert hclean
  refine State.statements_induction (P := fun script s => s.errors = [] →
    (Script.Sets script .requiredFiles → s.configuration.requiredFiles ≠ []) ∧
      (Script.Sets script .allowedExtensions → s.configuration.allowedExtensions ≠ [])) ?_ ?_ h
  · intro _
    constructor
    · rintro ⟨_, _, hmem⟩
      cases hmem
    · rintro ⟨_, _, hmem⟩
      cases hmem
  · intro script s t s' _ ih ht hclean
    -- Most statements set neither of the lists, and leave them as they are.
    have hother : s.errors = [] → (∀ line args, t ≠ .directive Field.requiredFiles.name line args) →
        (∀ line args, t ≠ .directive Field.allowedExtensions.name line args) →
          (Script.Sets (script ++ [t]) .requiredFiles → s.configuration.requiredFiles ≠ []) ∧
            (Script.Sets (script ++ [t]) .allowedExtensions →
              s.configuration.allowedExtensions ≠ []) :=
      fun hclean hfiles hextensions => ⟨fun hsets => (ih hclean).1 (hsets.of_concat hfiles),
        fun hsets => (ih hclean).2 (hsets.of_concat hextensions)⟩
    cases State.effect_of_statement ht with
    | rejected _ _ => simp at hclean
    | env hname _ =>
        exact hother hclean (directive_ne hname (by decide)) (directive_ne hname (by decide))
    | @requiredFiles _ _ _ _ files hname hfiles =>
        refine ⟨fun _ (hnil : files = []) => ?_, fun hsets => (ih hclean).2 (hsets.of_concat ?_)⟩
        · subst hnil
          cases eq_nil_of_mapM_eq_nil hfiles
        · exact directive_ne hname (by decide)
    | allowedExtensions hname hds =>
        obtain ⟨hbefore, rfl⟩ := List.append_eq_nil_iff.1 hclean
        refine ⟨fun hsets => (ih hbefore).1 (hsets.of_concat ?_), fun _ => ?_⟩
        · exact directive_ne hname (by decide)
        · exact validExtensions_ne_nil (eq_nil_of_mapM_eq_nil hds)
    | grade hname _ _ =>
        exact hother hclean (directive_ne hname (by decide)) (directive_ne hname (by decide))
    | networkAccess hname _ =>
        exact hother hclean (directive_ne hname (by decide)) (directive_ne hname (by decide))
    | assignment => exact hother hclean (fun _ _ => Term.noConfusion) fun _ _ => Term.noConfusion
    | step _ _ _ =>
        obtain ⟨hbefore, -⟩ := List.append_eq_nil_iff.1 hclean
        exact hother hbefore (fun _ _ => Term.noConfusion) fun _ _ => Term.noConfusion

/-- Environment and image are set together, and the environment is one of the catalogue. -/
theorem LastChoice.registered {id? image? : Option String}
    (h : LastChoice catalogue script id? image?) :
    (id? = .none ↔ image? = .none) ∧ ∀ id, id? = .some id → id ∈ catalogue.ids := by
  cases h with
  | none _ =>
      refine ⟨Iff.rfl, ?_⟩
      rintro _ ⟨⟩
  | some _ _ _ hchoice _ =>
      refine ⟨iff_of_false (Option.some_ne_none _) (Option.some_ne_none _), ?_⟩
      rintro _ ⟨⟩
      exact mem_ids_of_chooses hchoice

end Compile

/-! ## Outcomes -/

/-- What the outcome of a script and the configuration that it was compiled to have to do with each
other and with the script. -/
structure Outcome.Consistent (catalogue : Catalogue) (script : Script) (o : Outcome)
    (c : Configuration) : Prop where
  draft : o.draft = some c
  errors : c.errors = o.errors
  /-- There is a configuration if and only if there are no diagnostics. -/
  configuration_eq_none : o.configuration = none ↔ o.errors ≠ []
  configuration_eq_draft : o.errors = [] → o.configuration = some c
  /-- A step has its name even if its commands failed; of several of a name the first counts. -/
  stepNames : c.stepNames = script.stepLabels.eraseDups
  stepNames_nodup : c.stepNames.Nodup
  allowedExtensions : ∀ text ∈ c.allowedExtensions, IsDottedWords text
  image_eq_none : c.environment = none ↔ c.image = none
  registered : ∀ id, c.environment = some id → id ∈ catalogue.ids
  lastChoice : LastChoice catalogue script c.environment c.image
  requiredFiles_ne_nil : o.errors = [] → Script.Sets script .requiredFiles → c.requiredFiles ≠ []
  allowedExtensions_ne_nil :
    o.errors = [] → Script.Sets script .allowedExtensions → c.allowedExtensions ≠ []

/-- Every outcome agrees with the script that it comes of. -/
theorem compile_consistent {catalogue : Catalogue} {script : Script} {o : Outcome}
    (h : compile catalogue script = .ok o) : ∃ c, o.Consistent catalogue script c := by
  obtain ⟨s, hs, rfl⟩ := compile_eq_ok_iff.1 h
  have hnames := stepNames_of_statements hs
  have hchoice := lastChoice_of_statements hs
  have hconfiguration : (Outcome.ofState s).configuration =
      if s.errors = [] then some { s.configuration with errors := s.errors } else none := by
    simp [Outcome.ofState]
  exact ⟨{ s.configuration with errors := s.errors },
    { draft := rfl
      errors := rfl
      configuration_eq_none := by rw [hconfiguration, ite_eq_right_iff]; simp [Outcome.ofState]
      configuration_eq_draft := fun hclean => hconfiguration.trans (if_pos hclean)
      stepNames := hnames
      stepNames_nodup := hnames ▸ nodup_eraseDups _
      allowedExtensions := isDottedWords_of_statements hs
      image_eq_none := hchoice.registered.1
      registered := hchoice.registered.2
      lastChoice := hchoice
      requiredFiles_ne_nil := fun hclean => (ne_nil_of_statements hs hclean).1
      allowedExtensions_ne_nil := fun hclean => (ne_nil_of_statements hs hclean).2 }⟩

/-- The second `@env` directive chooses nothing, and the second step named `a` is dropped. -/
theorem consistent_of_rejected_env :
    ∃ c, Outcome.Consistent .standard
      [.directive "env" 1 [.literal (.string "java") 1,
        .keyword "version" (.literal (.string "11") 1) 1],
        .directive "env" 2 [.literal (.string "java") 2],
        .block "a" 3 [.atom "x" 4] "step", .block "b" 5 [] "step", .block "a" 6 [] "step"]
      ⟨none, [⟨2, "incorrect number of parameters for env: ", "java", ""⟩,
        ⟨4, "syntax error", "", ""⟩,
        ⟨6, "the step name has already been defined: ", "a", ""⟩],
        some ⟨some "openjdk:11-slim", some "java", [], [], none, false, [⟨"a", []⟩, ⟨"b", []⟩],
          [⟨2, "incorrect number of parameters for env: ", "java", ""⟩,
          ⟨4, "syntax error", "", ""⟩,
          ⟨6, "the step name has already been defined: ", "a", ""⟩]⟩⟩ c :=
  compile_consistent (by cbv)

end GradingScript
