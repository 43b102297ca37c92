import GradingScript.Proofs.Bindings.Held
import GradingScript.Proofs.Compile.Found
import GradingScript.Proofs.Compile.Journal
import GradingScript.Proofs.Environment.Answers

/-!
# Compilations come to an end

Compiling a script fails as a whole only where something cannot be written.  If what stands in its
statements can be written, and the environments to choose from answer, then whatever is wrong with a
statement is reported, and the next one is compiled.

* `Ready` is what a state must be like for that, and `ready_of_statement` says that it stays so.
* `exists_statement` is the step, with one lemma for each directive, and `exists_statements` the
  run.
-/

namespace GradingScript

open Term

/-! ## Problems -/

/-- What a problem shows can be written. -/
structure Problem.IsWritable (p : Problem) : Prop where
  shows : p.Shows Term.HasText
  arity : ∀ command arity, p = .argumentCount command arity → Number.isShort arity = true

namespace Problem

variable {p : Problem}

/-- Whether a problem is told without any term and any number. -/
def isPlain : Problem → Bool
  | .unknownEnvironment .. | .extension _ | .gradeKind _ | .argument _ | .argumentCount .. => false
  | _ => true

theorem isWritable_of_isPlain (h : p.isPlain = true) : p.IsWritable := by
  cases p with
  | unknownEnvironment | extension | gradeKind | argument | argumentCount => cases h
  | _ => exact ⟨trivial, by simp⟩

theorem exists_token (h : p.IsWritable) : ∃ text, p.token = .ok text := by
  obtain ⟨hshows, harity⟩ := h
  cases p with
  | unknownEnvironment term known => exact hshows
  | extension term => exact (exists_render_iff_hasText true).2 hshows
  | gradeKind term => exact hshows
  | argument value => exact hshows
  | argumentCount command arity =>
      exact Written.exists_bind (Number.exists_intText (harity command arity rfl)) fun text _ =>
        ⟨_, rfl⟩
  | _ => exact ⟨_, rfl⟩

theorem exists_suggestion (h : p.IsWritable) : ∃ text, p.suggestion = .ok text := by
  obtain ⟨hshows, -⟩ := h
  cases p with
  | unknownEnvironment term known =>
      exact Written.exists_bind hshows fun text _ => ⟨_, rfl⟩
  | _ => exact ⟨_, rfl⟩

theorem exists_diagnostic (h : p.IsWritable) (line : Int) : ∃ d, p.diagnostic line = .ok d :=
  Written.exists_bind (exists_token h) fun _ _ =>
    Written.exists_bind (exists_suggestion h) fun _ _ => ⟨_, rfl⟩

end Problem

namespace Compile

/-! ## Commands -/

section

variable {b : Bindings} {environment : Option Environment}

theorem exists_valueText {value : Term} (h : value.HasText) :
    ∃ text?, argument.valueText value = .ok text? := by
  unfold argument.valueText
  split
  · exact Written.exists_bind h fun text _ => ⟨_, rfl⟩
  · exact Written.exists_bind h fun text _ => ⟨_, rfl⟩
  · exact Written.exists_bind h fun text _ => ⟨_, rfl⟩
  · exact ⟨_, rfl⟩

theorem exists_argument (hb : b.Hold HasText) {arg : Term} (h : arg.HasText) :
    ∃ text?, argument b arg = .ok text? := by
  unfold argument
  split
  · split
    · next value hvalue => exact exists_valueText (hb _ value hvalue)
    · exact ⟨_, rfl⟩
  · refine Written.exists_bind (Bindings.exists_resolve hb _) fun value hvalue => ?_
    exact exists_valueText (hb.resolve inherited_hasText (inherited_hasText.plain h) hvalue)

theorem exists_arguments (hb : b.Hold HasText) {args : List Term}
    (h : ∀ arg ∈ args, arg.HasText) : ∃ texts?, arguments b args = .ok texts? := by
  induction args with
  | nil => exact ⟨_, rfl⟩
  | cons arg args ih =>
      rw [List.forall_mem_cons] at h
      rw [arguments]
      refine Written.exists_bind (exists_argument hb h.1) fun text? _ => ?_
      cases text? with
      | error p => exact ⟨_, rfl⟩
      | ok text =>
          refine Written.exists_bind (ih h.2) fun texts? _ => ?_
          cases texts? <;> exact ⟨_, rfl⟩

theorem exists_command (hb : b.Hold HasText) {t : Term} (h : ∀ v ∈ t.operands, v.HasText) :
    ∃ command?, command b environment t = .ok command? := by
  cases t with
  | call name line args =>
      rw [command]
      split
      · exact ⟨_, rfl⟩
      · split
        · refine Written.exists_bind (exists_arguments hb h) fun texts? _ => ?_
          cases texts? <;> exact ⟨_, rfl⟩
        · exact ⟨_, rfl⟩
  | _ => exact ⟨_, rfl⟩

/-- The numbers of arguments that the capabilities of an environment take can be written. -/
def HasShortArities (environment : Option Environment) : Prop :=
  ∀ e, environment = some e → ∀ c ∈ e.capabilities, Number.isShort c.arity = true

/-- The number of arguments that a command takes can be written. -/
theorem isShort_of_arityOf (hshort : HasShortArities environment) {name : String}
    {arity : Int} (h : arityOf environment name = .ok arity) : Number.isShort arity = true := by
  unfold arityOf at h
  split at h
  · cases h
    decide +kernel
  · split at h
    · cases h
    · next e =>
        split at h
        · next harity =>
            cases h
            obtain ⟨c, hc, rfl⟩ := Option.map_eq_some_iff.1 harity
            exact hshort e rfl c (List.mem_of_find?_eq_some hc)
        · cases h

theorem Failure.isWritable (hshort : HasShortArities environment) {p : Problem}
    (h : Failure HasText environment p) : p.IsWritable := by
  refine ⟨h.shows, fun command arity hp => ?_⟩
  cases h with
  | argumentCount harity =>
      cases hp
      exact isShort_of_arityOf hshort harity
  | _ => cases hp

theorem exists_commands (hb : b.Hold HasText)
    (hshort : HasShortArities environment) {children : List Term}
    (h : ∀ child ∈ children, ∀ v ∈ child.operands, v.HasText) :
    ∃ result, commands b environment children = .ok result := by
  induction children with
  | nil => exact ⟨_, rfl⟩
  | cons child children ih =>
      rw [List.forall_mem_cons] at h
      rw [commands]
      refine Written.exists_bind (exists_command hb h.1) fun command? hcommand => ?_
      cases command? with
      | ok c => exact Written.exists_bind (ih h.2) fun result _ => ⟨_, rfl⟩
      | error p =>
          have hp := failure_of_command inherited_hasText hb h.1 hcommand
          exact Written.exists_bind (Problem.exists_diagnostic (hp.isWritable hshort) _)
            fun _ _ => Written.exists_bind (ih h.2) fun _ _ => ⟨_, rfl⟩

end

namespace State

variable {catalogue : Catalogue} {s : State}

theorem exists_report {line : Int} {p : Problem} (h : p.IsWritable) :
    ∃ s', s.report line p = .ok s' :=
  Written.exists_bind (Problem.exists_diagnostic h line) fun _ _ => ⟨_, rfl⟩

theorem exists_report_of_isPlain {line : Int} {p : Problem} (h : p.isPlain = true) :
    ∃ s', s.report line p = .ok s' :=
  exists_report (Problem.isWritable_of_isPlain h)

/-! ## States -/

/-- The variables can be written, and the environment in force answers. -/
structure Ready (s : State) : Prop where
  bindings : s.bindings.Hold IsWritable
  environment : ∀ e, s.environment = some e → e.Answers

theorem Ready.hasText (hs : s.Ready) : s.bindings.Hold HasText :=
  hs.bindings.imp fun _ => IsWritable.hasText

theorem Ready.hasShortArities (hs : s.Ready) : HasShortArities s.environment :=
  fun e he => (hs.environment e he).arity

theorem ready_empty : Ready empty :=
  ⟨Bindings.hold_empty _, fun e he => by cases he⟩

/-- An environment that is chosen is one of those to choose from. -/
theorem ready_of_statement (hcatalogue : catalogue.Answers) (hs : s.Ready) {t : Term}
    (ht : ∀ v ∈ t.operands, v.IsWritable) {s' : State} (h : s.statement catalogue t = .ok s') :
    s'.Ready := by
  refine ⟨hold_of_statement inherited_isWritable hs.bindings ht h, fun e he => ?_⟩
  cases effect_of_statement h with
  | env hname hchooses =>
      cases he
      cases hchooses with
      | mk _ _ _ hget _ _ => exact hcatalogue e (List.mem_of_find?_eq_some hget)
  | _ => exact hs.environment e he

/-! ## Directives -/

theorem exists_parameters? (hs : s.Ready) (args : List Term) :
    ∃ parameters?, s.parameters? args = .ok parameters? := by
  induction args with
  | nil => exact ⟨_, rfl⟩
  | cons arg args ih =>
      cases arg with
      | keyword key value line =>
          rw [parameters?]
          exact Written.exists_bind (Bindings.exists_resolve hs.hasText _) fun _ _ =>
            Written.exists_bind ih fun _ _ => ⟨_, rfl⟩
      | _ => exact ⟨_, rfl⟩

/-- Parameters have the keys of the arguments. -/
theorem exists_key_of_parameters? {args : List Term} {parameters : List Parameter}
    (h : s.parameters? args = .ok (some parameters)) :
    ∀ p ∈ parameters, ∃ key, p.1 = .string key := by
  induction args generalizing parameters with
  | nil =>
      cases h
      simp
  | cons arg args ih =>
      cases arg with
      | keyword key value line =>
          obtain ⟨v, -, h⟩ := Written.bind_eq_ok.1 h
          obtain ⟨parameters?, hparameters, h⟩ := Written.bind_eq_ok.1 h
          cases parameters? with
          | none => cases h
          | some parameters' =>
              cases h
              exact List.forall_mem_cons.2 ⟨⟨key, rfl⟩, ih hparameters⟩
      | _ => cases h

theorem exists_env (hcatalogue : catalogue.Answers) (hs : s.Ready) (line : Int) {args : List Term}
    (hargs : ∀ arg ∈ args, arg.IsWritable) : ∃ s', s.env catalogue line args = .ok s' := by
  cases args with
  | nil => exact exists_report_of_isPlain rfl
  | cons nameArg args =>
      rw [List.forall_mem_cons] at hargs
      simp only [env]
      split
      · exact exists_report_of_isPlain rfl
      · refine Written.exists_bind (Bindings.exists_resolve hs.hasText _) fun value _ => ?_
        refine Written.exists_bind (exists_parameters? hs args) fun parameters? hparameters => ?_
        cases parameters? with
        | none => exact exists_report_of_isPlain rfl
        | some parameters =>
            have hwritable : Parameter.AreWritable parameters := fun p hp =>
              ⟨exists_key_of_parameters? hparameters p hp,
                found_of_parameters? inherited_isWritable hs.bindings hargs.2 hparameters p hp⟩
            simp only
            split
            · have hshown : (env.shown value nameArg.plain).IsWritable :=
                found_shown inherited_isWritable (inherited_isWritable.plain hargs.1)
              exact exists_report ⟨hshown.hasText, by simp⟩
            · next e he =>
                have hanswers : e.Answers :=
                  hcatalogue e (List.mem_of_find?_eq_some (eq_string_of_environmentOf he).2)
                split
                · have himage := hanswers.exists_resolveImage hwritable
                  refine Written.exists_bind himage fun image? _ => ?_
                  cases image? with
                  | ok image => exact ⟨_, rfl⟩
                  | error rejection =>
                      exact exists_report_of_isPlain rfl
                · exact exists_report_of_isPlain rfl

theorem exists_requiredFiles (s : State) (line : Int) {args : List Term}
    (hargs : ∀ arg ∈ args, arg.IsWritable) : ∃ s', s.requiredFiles line args = .ok s' := by
  unfold requiredFiles
  split
  · exact exists_report_of_isPlain rfl
  · refine Written.exists_bind (Written.exists_mapM fun arg harg => ?_) fun files _ => ⟨_, rfl⟩
    exact exists_text (inherited_isWritable.plain (hargs arg harg))

theorem exists_extensions (s : State) (line : Int) {args : List Term}
    (hargs : ∀ arg ∈ args, arg.HasText) : ∃ result, s.extensions line args = .ok result := by
  induction args generalizing s with
  | nil => exact ⟨_, rfl⟩
  | cons arg args ih =>
      rw [List.forall_mem_cons] at hargs
      rw [extensions]
      split
      · exact Written.exists_bind (ih s hargs.2) fun result _ => ⟨_, rfl⟩
      · have hextension : Problem.IsWritable (.extension arg.plain) :=
          ⟨inherited_hasText.plain hargs.1, by simp⟩
        exact Written.exists_bind (exists_report hextension) fun s' _ => ih s' hargs.2

theorem exists_allowedExtensions (s : State) (line : Int) {args : List Term}
    (hargs : ∀ arg ∈ args, arg.HasText) : ∃ s', s.allowedExtensions line args = .ok s' := by
  unfold allowedExtensions
  split
  · exact exists_report_of_isPlain rfl
  · exact Written.exists_bind (exists_extensions s line hargs) fun result _ => ⟨_, rfl⟩

theorem exists_grade (hs : s.Ready) (line : Int) {args : List Term}
    (hargs : ∀ arg ∈ args, arg.IsWritable) : ∃ s', s.grade line args = .ok s' := by
  unfold grade
  split
  · next arg =>
      rw [List.forall_mem_singleton] at hargs
      have hvalue := found_single inherited_isWritable hs.bindings hargs
      split
      · split
        · exact exists_report_of_isPlain rfl
        · exact ⟨_, rfl⟩
      · exact exists_report ⟨(inherited_isWritable.plain hargs).hasText, by simp⟩
      · exact exists_report ⟨hvalue.hasText, by simp⟩
  · exact exists_report_of_isPlain rfl

theorem exists_networkAccess (s : State) (line : Int) (args : List Term) :
    ∃ s', s.networkAccess line args = .ok s' := by
  unfold networkAccess
  split
  · split
    · exact ⟨_, rfl⟩
    · exact exists_report_of_isPlain rfl
  · exact exists_report_of_isPlain rfl

theorem exists_directive (hcatalogue : catalogue.Answers) (hs : s.Ready) (name : String)
    (line : Int) {args : List Term} (hargs : ∀ arg ∈ args, arg.IsWritable) :
    ∃ s', s.directive catalogue name line args = .ok s' := by
  unfold directive
  split
  · exact exists_env hcatalogue hs line hargs
  · exact exists_requiredFiles s line hargs
  · exact exists_allowedExtensions s line fun arg harg => (hargs arg harg).hasText
  · exact exists_grade hs line hargs
  · exact exists_networkAccess s line args
  · exact exists_report_of_isPlain rfl

/-! ## Statements -/

theorem exists_step (hs : s.Ready) (label : String) (line : Int) {children : List Term}
    (h : ∀ child ∈ children, ∀ v ∈ child.operands, v.IsWritable) :
    ∃ s', s.step label line children = .ok s' := by
  unfold step
  split
  · exact exists_report_of_isPlain rfl
  · have hoperands : ∀ child ∈ children, ∀ v ∈ child.operands, v.HasText :=
      fun child hchild v hv => (h child hchild v hv).hasText
    exact Written.exists_bind (exists_commands hs.hasText hs.hasShortArities hoperands)
      fun _ _ => ⟨_, rfl⟩

/-- Whatever is wrong with a statement, it is compiled or reported. -/
theorem exists_statement (hcatalogue : catalogue.Answers) (hs : s.Ready) {t : Term}
    (ht : t.Carries IsWritable) : ∃ s', s.statement catalogue t = .ok s' := by
  unfold statement
  split
  · exact exists_directive hcatalogue hs _ _ ht.operands
  · exact ⟨_, rfl⟩
  · split
    · exact exists_step hs _ _ ht.children
    · exact exists_report_of_isPlain rfl
  · split
    · exact exists_report_of_isPlain rfl
    · exact exists_report_of_isPlain rfl
  · split
    · exact exists_report_of_isPlain rfl
    · exact exists_report_of_isPlain rfl
  · exact exists_report_of_isPlain rfl

/-- So is a whole script. -/
theorem exists_statements (hcatalogue : catalogue.Answers) (hs : s.Ready) {script : Script}
    (hscript : ∀ t ∈ script, t.Carries IsWritable) :
    ∃ s', s.statements catalogue script = .ok s' := by
  induction script generalizing s with
  | nil => exact ⟨s, rfl⟩
  | cons t script ih =>
      rw [List.forall_mem_cons] at hscript
      obtain ⟨u, hu⟩ := exists_statement hcatalogue hs hscript.1
      obtain ⟨s', hs'⟩ := ih (ready_of_statement hcatalogue hs hscript.1.operands hu) hscript.2
      exact ⟨s', statements_cons_eq_ok.2 ⟨u, hu, hs'⟩⟩

end State

end Compile

/-- A script whose operands can be written is compiled to an outcome. -/
theorem exists_compile {catalogue : Catalogue} (hcatalogue : catalogue.Answers) {script : Script}
    (hscript : ∀ t ∈ script, t.Carries IsWritable) : ∃ o, compile catalogue script = .ok o := by
  obtain ⟨s, hs⟩ := Compile.State.exists_statements hcatalogue Compile.State.ready_empty hscript
  exact ⟨_, compile_eq_ok_iff.2 ⟨s, hs, rfl⟩⟩

end GradingScript
