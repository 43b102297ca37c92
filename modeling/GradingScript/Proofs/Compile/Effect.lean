import GradingScript.Compile.Basic
import GradingScript.Proofs.Number
import Mathlib.Data.List.Induction

/-!
# What a statement does

Compiling a statement does one of few things to the state: it adds one diagnostic and changes
nothing else, or it sets a field, binds a variable or adds a step.  All that is proved about runs of
the compilation follows from these.

* `Effect` lists what a statement can do, with the conditions under which it does it.
* `effect_of_statement` finds the effect of a statement that compiles.
* `statements_induction` carries a property of the state over all statements of a script.
-/

namespace GradingScript

namespace Field

/-- A field is found under its name alone. -/
theorem ofName?_eq_some_iff {name : String} {f : Field} :
    ofName? name = some f ↔ name = f.name := by
  constructor
  · intro h
    have hname := List.find?_some h
    exact (of_decide_eq_true hname).symm
  · rintro rfl
    exact ofName?_name f

theorem name_injective {f g : Field} (h : f.name = g.name) : f = g := by
  have hfound := ofName?_name f
  rw [h, ofName?_name] at hfound
  exact (Option.some.inj hfound).symm

end Field

/-- A diagnostic says what the problem says. -/
theorem Problem.diagnostic_eq_ok {p : Problem} {line : Int} {d : Diagnostic} :
    p.diagnostic line = .ok d ↔ d.line = line ∧ d.description = p.description ∧
      p.token = .ok d.token ∧ p.suggestion = .ok d.suggestion := by
  simp only [diagnostic, Written.bind_eq_ok, Written.pure_eq_ok]
  constructor
  · rintro ⟨token, htoken, suggestion, hsuggestion, rfl⟩
    exact ⟨rfl, rfl, htoken, hsuggestion⟩
  · rintro ⟨rfl, hdescription, htoken, hsuggestion⟩
    exact ⟨d.token, htoken, d.suggestion, hsuggestion, by rw [← hdescription]⟩

/-- An environment is found under its own id. -/
theorem Catalogue.id_of_get? {c : Catalogue} {id : String} {e : Environment}
    (h : c.get? id = some e) : e.id = id := by
  have hid := List.find?_some h
  exact of_decide_eq_true hid

namespace Compile

/-- The arguments of `@env` choose an environment of the catalogue, which makes an image of the
parameters. -/
inductive Chooses (catalogue : Catalogue) (s : State) : List Term → Environment → String → Prop
  | mk {nameArg : Term} {args : List Term} {parameters : List Parameter} {e : Environment}
      {image : String} (hshape : nameArg.isKeyword = false ∧ args.all Term.isKeyword = true)
      (hname : s.bindings.resolve nameArg.plain = .ok (.string e.id))
      (hparameters : s.parameters? args = .ok (some parameters))
      (hget : catalogue.get? e.id = some e) (hcount : e.accepts parameters.length = true)
      (himage : e.resolveImage parameters = .ok (.ok image)) :
      Chooses catalogue s (nameArg :: args) e image

/-- The valid extensions among terms, in order. -/
def validExtensions (args : List Term) : List String :=
  args.filterMap fun arg => State.extensions.validExtension? arg.plain

/-- The terms that are no valid extensions, in order. -/
def invalidExtensions (args : List Term) : List Term :=
  args.filter fun arg => (State.extensions.validExtension? arg.plain).isNone

/-- Whether a statement may be rejected as a whole.  An assignment never is, a step only if there is
one of its name, and a list of files or extensions only if it is empty. -/
def MayReject (s : State) : Term → Prop
  | .assignment .. => False
  | .block label _ _ keyword => keyword = "step" → label ∈ s.configuration.stepNames
  | .directive name _ args =>
    match Field.ofName? name with
    | some .requiredFiles | some .allowedExtensions => args = []
    | _ => True
  | _ => True

/-- What compiling a statement does to the state. -/
inductive Effect (catalogue : Catalogue) (s : State) : Term → State → Prop
  /-- The statement is rejected as a whole. -/
  | rejected {t : Term} {p : Problem} {d : Diagnostic} (hmay : MayReject s t)
      (hd : p.diagnostic t.line = .ok d) : Effect catalogue s t { s with errors := s.errors ++ [d] }
  | env {name : String} {line : Int} {args : List Term} {e : Environment} {image : String}
      (hname : name = Field.env.name) (h : Chooses catalogue s args e image) :
      Effect catalogue s (.directive name line args)
        { s with
          environment := some e
          configuration :=
            { s.configuration with environment := some e.id, image := some image } }
  | requiredFiles {name : String} {line : Int} {arg : Term} {args : List Term}
      {files : List String} (hname : name = Field.requiredFiles.name)
      (h : (arg :: args).mapM (fun arg => arg.plain.text) = .ok files) :
      Effect catalogue s (.directive name line (arg :: args))
        (s.configure fun c => { c with requiredFiles := files })
  /-- The valid extensions are kept, and each of the others is reported. -/
  | allowedExtensions {name : String} {line : Int} {arg : Term} {args : List Term}
      {ds : List Diagnostic} (hname : name = Field.allowedExtensions.name)
      (h : (invalidExtensions (arg :: args)).mapM
        (fun arg => (Problem.extension arg.plain).diagnostic line) = .ok ds) :
      Effect catalogue s (.directive name line (arg :: args))
        { s with
          errors := s.errors ++ ds
          configuration :=
            { s.configuration with allowedExtensions := validExtensions (arg :: args) } }
  | grade {name : String} {line : Int} {arg : Term} {value : Number}
      (hname : name = Field.grade.name) (hvalue : s.single arg = .number value)
      (hrange : State.outOfRange value = false) :
      Effect catalogue s (.directive name line [arg])
        (s.configure fun c => { c with grade := some value })
  | networkAccess {name : String} {line : Int} {arg : Term} {enabled : Bool}
      (hname : name = Field.networkAccess.name) (hvalue : s.single arg = .bool enabled) :
      Effect catalogue s (.directive name line [arg])
        (s.configure fun c => { c with networkAccess := enabled })
  | assignment {name : String} {value : Term} {line : Int} :
      Effect catalogue s (.assignment name value line)
        { s with bindings := s.bindings.bind name value }
  /-- The commands that fail are reported, and the step has the others. -/
  | step {label : String} {line : Int} {children : List Term} {keyword : String}
      {cs : List Command} {ds : List Diagnostic} (hkeyword : keyword = "step")
      (hnew : label ∉ s.configuration.stepNames)
      (h : commands s.bindings s.environment children = .ok (cs, ds)) :
      Effect catalogue s (.block label line children keyword)
        { s with
          errors := s.errors ++ ds
          configuration :=
            { s.configuration with steps := s.configuration.steps ++ [⟨label, cs⟩] } }

namespace State

variable {catalogue : Catalogue} {s s' : State}

/-! ## One statement -/

theorem effect_report {t : Term} {p : Problem} {line : Int} (hmay : MayReject s t)
    (hline : line = t.line) (h : s.report line p = .ok s') : Effect catalogue s t s' := by
  obtain ⟨d, hd, rfl⟩ := report_eq_ok h
  exact .rejected hmay (hline ▸ hd)

/-- Only a string names an environment, by its id. -/
theorem eq_string_of_environmentOf {value : Term} {e : Environment}
    (h : env.environmentOf catalogue value = some e) :
    value = .string e.id ∧ catalogue.get? e.id = some e := by
  unfold env.environmentOf at h
  split at h
  · rw [Catalogue.id_of_get? h]
    exact ⟨rfl, h⟩
  · cases h

theorem effect_env {name : String} {line : Int} {args : List Term} (hname : name = Field.env.name)
    (h : s.env catalogue line args = .ok s') :
    Effect catalogue s (.directive name line args) s' := by
  have hmay : MayReject s (.directive name line args) := by simp [MayReject, hname]
  cases args with
  | nil => exact effect_report hmay rfl h
  | cons nameArg args =>
      simp only [env] at h
      split at h
      · exact effect_report hmay rfl h
      · next hshape =>
          obtain ⟨value, hvalue, hbehind⟩ := Written.bind_eq_ok.1 h
          obtain ⟨parameters?, hparameters, hchosen⟩ := Written.bind_eq_ok.1 hbehind
          cases parameters? with
          | none => exact effect_report hmay rfl hchosen
          | some parameters =>
              simp only at hchosen
              split at hchosen
              · exact effect_report hmay rfl hchosen
              · next e henvironment =>
                  obtain ⟨rfl, hget⟩ := eq_string_of_environmentOf henvironment
                  split at hchosen
                  · next hcount =>
                      obtain ⟨image?, himage, hset⟩ := Written.bind_eq_ok.1 hchosen
                      cases image? with
                      | error rejection => exact effect_report hmay rfl hset
                      | ok image =>
                          obtain rfl := Written.pure_eq_ok.1 hset
                          have hshape : nameArg.isKeyword = false ∧
                              args.all Term.isKeyword = true := by simpa using hshape
                          exact .env hname (.mk hshape hvalue hparameters hget hcount himage)
                  · exact effect_report hmay rfl hchosen

theorem extensions_eq_ok {line : Int} {args : List Term} {texts : List String}
    (h : s.extensions line args = .ok (s', texts)) :
    texts = validExtensions args ∧ ∃ ds, s' = { s with errors := s.errors ++ ds } ∧
      (invalidExtensions args).mapM
        (fun arg => (Problem.extension arg.plain).diagnostic line) = .ok ds := by
  induction args generalizing s texts with
  | nil =>
      obtain ⟨rfl, rfl⟩ := Prod.mk.inj (Written.pure_eq_ok.1 h)
      exact ⟨rfl, [], by simp, rfl⟩
  | cons arg args ih =>
      rw [extensions] at h
      cases hvalid : extensions.validExtension? arg.plain with
      | some text =>
          simp only [hvalid] at h
          obtain ⟨⟨t, texts'⟩, hargs, h⟩ := Written.bind_eq_ok.1 h
          obtain ⟨rfl, rfl⟩ := Prod.mk.inj (Written.pure_eq_ok.1 h)
          obtain ⟨rfl, ds, ht, hds⟩ := ih hargs
          refine ⟨by simp [validExtensions, hvalid], ds, ht, ?_⟩
          simpa [invalidExtensions, hvalid] using hds
      | none =>
          simp only [hvalid] at h
          obtain ⟨t, ht, h⟩ := Written.bind_eq_ok.1 h
          obtain ⟨d, hd, rfl⟩ := report_eq_ok ht
          obtain ⟨rfl, ds, rfl, hds⟩ := ih h
          refine ⟨by simp [validExtensions, hvalid], d :: ds, by simp, ?_⟩
          have hinvalid : invalidExtensions (arg :: args) = arg :: invalidExtensions args := by
            simp [invalidExtensions, hvalid]
          rw [hinvalid, List.mapM_cons, hd, hds]
          rfl

theorem effect_requiredFiles {name : String} {line : Int} {args : List Term}
    (hname : name = Field.requiredFiles.name) (h : s.requiredFiles line args = .ok s') :
    Effect catalogue s (.directive name line args) s' := by
  unfold requiredFiles at h
  split at h
  · exact effect_report (by simp [MayReject, hname]) rfl h
  · next args hne =>
      obtain ⟨arg, args, rfl⟩ := List.exists_cons_of_ne_nil hne
      obtain ⟨files, hfiles, h⟩ := Written.bind_eq_ok.1 h
      obtain rfl := Written.pure_eq_ok.1 h
      exact .requiredFiles hname hfiles

theorem effect_allowedExtensions {name : String} {line : Int} {args : List Term}
    (hname : name = Field.allowedExtensions.name) (h : s.allowedExtensions line args = .ok s') :
    Effect catalogue s (.directive name line args) s' := by
  unfold allowedExtensions at h
  split at h
  · exact effect_report (by simp [MayReject, hname]) rfl h
  · next args hne =>
      obtain ⟨arg, args, rfl⟩ := List.exists_cons_of_ne_nil hne
      obtain ⟨⟨t, texts⟩, hextensions, h⟩ := Written.bind_eq_ok.1 h
      obtain rfl := Written.pure_eq_ok.1 h
      obtain ⟨rfl, ds, rfl, hds⟩ := extensions_eq_ok hextensions
      exact .allowedExtensions hname hds

theorem effect_grade {name : String} {line : Int} {args : List Term}
    (hname : name = Field.grade.name) (h : s.grade line args = .ok s') :
    Effect catalogue s (.directive name line args) s' := by
  have hmay : MayReject s (.directive name line args) := by simp [MayReject, hname]
  unfold grade at h
  split at h
  · next arg =>
      split at h
      · next value hvalue =>
          split at h
          · exact effect_report hmay rfl h
          · next hrange =>
              obtain rfl := Written.pure_eq_ok.1 h
              exact .grade hname hvalue (by simpa using hrange)
      · exact effect_report hmay rfl h
      · exact effect_report hmay rfl h
  · exact effect_report hmay rfl h

theorem effect_networkAccess {name : String} {line : Int} {args : List Term}
    (hname : name = Field.networkAccess.name) (h : s.networkAccess line args = .ok s') :
    Effect catalogue s (.directive name line args) s' := by
  have hmay : MayReject s (.directive name line args) := by simp [MayReject, hname]
  unfold networkAccess at h
  split at h
  · next arg =>
      split at h
      · next enabled hvalue =>
          obtain rfl := Written.pure_eq_ok.1 h
          exact .networkAccess hname hvalue
      · exact effect_report hmay rfl h
  · exact effect_report hmay rfl h

theorem effect_directive {name : String} {line : Int} {args : List Term}
    (h : s.directive catalogue name line args = .ok s') :
    Effect catalogue s (.directive name line args) s' := by
  unfold directive at h
  split at h
  · next hname => exact effect_env (Field.ofName?_eq_some_iff.1 hname) h
  · next hname => exact effect_requiredFiles (Field.ofName?_eq_some_iff.1 hname) h
  · next hname => exact effect_allowedExtensions (Field.ofName?_eq_some_iff.1 hname) h
  · next hname => exact effect_grade (Field.ofName?_eq_some_iff.1 hname) h
  · next hname => exact effect_networkAccess (Field.ofName?_eq_some_iff.1 hname) h
  · next hname => exact effect_report (by simp [MayReject, hname]) rfl h

theorem effect_step {label : String} {line : Int} {children : List Term}
    (h : s.step label line children = .ok s') :
    Effect catalogue s (.block label line children "step") s' := by
  unfold step at h
  split at h
  · next hold => exact effect_report (fun _ => hold) rfl h
  · next hnew =>
      obtain ⟨⟨cs, ds⟩, hcommands, h⟩ := Written.bind_eq_ok.1 h
      obtain rfl := Written.pure_eq_ok.1 h
      exact .step rfl hnew hcommands

/-- What compiles to a state has one of the effects. -/
theorem effect_of_statement {t : Term} (h : s.statement catalogue t = .ok s') :
    Effect catalogue s t s' := by
  unfold statement at h
  split at h
  · exact effect_directive h
  · obtain rfl := Written.pure_eq_ok.1 h
    exact .assignment
  · split at h
    · next hkeyword =>
        subst hkeyword
        exact effect_step h
    · next hkeyword => exact effect_report (fun h => absurd h hkeyword) rfl h
  · split at h
    · exact effect_report trivial rfl h
    · exact effect_report trivial rfl h
  · split at h
    · exact effect_report trivial rfl h
    · exact effect_report trivial rfl h
  · next hdirective hassignment hblock _ _ =>
      refine effect_report ?_ rfl h
      unfold MayReject
      split
      · exact hassignment _ _ _ rfl
      · exact (hblock _ _ _ _ rfl).elim
      · exact (hdirective _ _ _ rfl).elim
      · trivial

/-! ## Runs -/

theorem statements_cons (catalogue : Catalogue) (s : State) (t : Term) (ts : Script) :
    s.statements catalogue (t :: ts) =
      s.statement catalogue t >>= fun u => u.statements catalogue ts := by
  simp [statements]

theorem statements_cons_eq_ok {t : Term} {ts : Script} :
    s.statements catalogue (t :: ts) = .ok s' ↔
      ∃ u, s.statement catalogue t = .ok u ∧ u.statements catalogue ts = .ok s' := by
  rw [statements_cons, Written.bind_eq_ok]

theorem statements_concat_eq_ok {script : Script} {t : Term} :
    s.statements catalogue (script ++ [t]) = .ok s' ↔
      ∃ u, s.statements catalogue script = .ok u ∧ u.statement catalogue t = .ok s' := by
  simp [statements, Written.bind_eq_ok]

/-- What holds before the first statement and is kept by every statement holds of all that a script
compiles to. -/
theorem statements_induction {P : Script → State → Prop} (hempty : P [] .empty)
    (hstep : ∀ {script s t s'}, State.empty.statements catalogue script = .ok s → P script s →
      s.statement catalogue t = .ok s' → P (script ++ [t]) s')
    {script : Script} (h : State.empty.statements catalogue script = .ok s) : P script s := by
  -- From the end of the script: its last statement is compiled with what all others have built.
  induction script using List.reverseRecOn generalizing s with
  | nil =>
      obtain rfl := Except.ok.inj h
      exact hempty
  | append_singleton script t ih =>
      obtain ⟨u, hu, ht⟩ := statements_concat_eq_ok.1 h
      exact hstep hu (ih hu) ht

end State

end Compile

open Compile

/-- A text compiles to what the statements of its script lead to, or to the error of a text that is
no script. -/
theorem compileText_cases {catalogue : Catalogue} {text : String} {o : Outcome}
    (h : compileText catalogue text = .ok o) :
    (∃ script s, Script.ofText text = .ok script ∧
      State.empty.statements catalogue script = .ok s ∧ o = .ofState s) ∨
    ∃ e token, Script.ofText text = .error e ∧ e.fault.token = .ok token ∧
      o = ⟨none, [⟨e.line, e.fault.description, token, ""⟩], none⟩ := by
  unfold compileText at h
  split at h
  · next script hscript =>
      obtain ⟨s, hs, h⟩ := Written.bind_eq_ok.1 h
      exact .inl ⟨script, s, hscript, hs, (Written.pure_eq_ok.1 h).symm⟩
  · next e he =>
      obtain ⟨token, htoken, h⟩ := Written.bind_eq_ok.1 h
      exact .inr ⟨e, token, he, htoken, (Written.pure_eq_ok.1 h).symm⟩

end GradingScript
