import GradingScript.Proofs.Bindings.Placeholder
import GradingScript.Proofs.Compile.Effect

/-!
# What a statement reads and writes

Of what has been built before it, a directive reads the variables that it mentions, and a step also
the step names and the environment in force.  Each writes diagnostics and one part of the
configuration.  So a statement does the same in a state that is changed elsewhere, and the change is
still there behind it.

* `Setting` is what a statement can set, and `Part` the part of the configuration that it sets.
* `Spares` says of a change of the state that it leaves a part to be set before it or after it.
* `statement_spared` is the step: a statement may be compiled before or after a change that spares
  its part, if it reads the same.
* `statement_given` is the case of other variables, and diagnostics in front of its own.
-/

namespace GradingScript

/-- The variables behind a statement: only an assignment binds one. -/
def Bindings.after (b : Bindings) : Term → Bindings
  | .assignment target value _ => b.bind target value
  | _ => b

/-- The variables behind a script. -/
def Script.bindings (script : Script) : Bindings :=
  script.foldl Bindings.after .empty

namespace Compile

/-! ## Arguments -/

section

variable {b b' : Bindings}

theorem argument_congr {arg : Term} (h : b.AgreeOn b' arg) : argument b arg = argument b' arg := by
  unfold argument
  split
  · next name line hplain =>
      have hname : b.get? name = b'.get? name := h.plain name (hplain ▸ rfl)
      rw [hname]
  · rw [Bindings.resolve_congr h.plain]

theorem arguments_congr {args : List Term} (h : ∀ arg ∈ args, b.AgreeOn b' arg) :
    arguments b args = arguments b' args := by
  induction args with
  | nil => rfl
  | cons arg args ih =>
      rw [arguments, arguments, argument_congr (h arg (by simp)),
        ih fun arg harg => h arg (by simp [harg])]

theorem command_congr (environment : Option Environment) {t : Term} (h : b.AgreeOn b' t) :
    command b environment t = command b' environment t := by
  cases t with
  | call name line args =>
      have hargs : arguments b args = arguments b' args :=
        arguments_congr (Bindings.agreeOn_of_mem h)
      simp only [Compile.command, hargs]
  | _ => rfl

theorem commands_congr (environment : Option Environment) {children : List Term}
    (h : ∀ child ∈ children, b.AgreeOn b' child) :
    commands b environment children = commands b' environment children := by
  induction children with
  | nil => rfl
  | cons child children ih =>
      rw [commands, commands, command_congr environment (h child (by simp)),
        ih fun child hchild => h child (by simp [hchild])]

end

/-! ## Settings -/

/-- A part of the configuration that statements set: a field, or the list of steps. -/
inductive Part where
  | field (f : Field)
  | steps
  deriving DecidableEq, Repr

/-- What a statement sets. -/
inductive Setting where
  | env (e : Environment) (image : String)
  | requiredFiles (files : List String)
  | allowedExtensions (texts : List String)
  | grade (value : Number)
  | networkAccess (enabled : Bool)
  | step (added : Step)

namespace Setting

/-- The part of the configuration that is set. -/
def part : Setting → Part
  | .env .. => .field .env
  | .requiredFiles _ => .field .requiredFiles
  | .allowedExtensions _ => .field .allowedExtensions
  | .grade _ => .field .grade
  | .networkAccess _ => .field .networkAccess
  | .step _ => .steps

/-- The state with a part set. -/
def apply (x : Setting) (s : State) : State :=
  match x with
  | .env e image =>
    { s with
      environment := some e
      configuration :=
        { s.configuration with environment := some e.id, image := some image } }
  | .requiredFiles files => s.configure fun c => { c with requiredFiles := files }
  | .allowedExtensions texts => s.configure fun c => { c with allowedExtensions := texts }
  | .grade value => s.configure fun c => { c with grade := some value }
  | .networkAccess enabled => s.configure fun c => { c with networkAccess := enabled }
  | .step added => s.configure fun c => { c with steps := c.steps ++ [added] }

end Setting

/-- The part of the configuration that a statement sets, if it sets one. -/
def partOf? : Term → Option Part
  | .directive name _ _ => (Field.ofName? name).map .field
  | .block .. => some .steps
  | _ => none

namespace State

/-- The state with further diagnostics. -/
def reported (s : State) (ds : List Diagnostic) : State :=
  { s with errors := s.errors ++ ds }

/-- A change of the state leaves a part of the configuration alone: the part may be set, and
diagnostics added, before the change as well as after it. -/
structure Spares (f : State → State) (part? : Option Part) : Prop where
  reported : ∀ s ds, f (s.reported ds) = (f s).reported ds
  set : ∀ s (x : Setting), part? = some x.part → f (x.apply s) = x.apply (f s)

variable {catalogue : Catalogue} {f : State → State} {s : State} {part? : Option Part}

theorem report_eq_map (s : State) (line : Int) (p : Problem) :
    s.report line p = (fun d => s.reported [d]) <$> p.diagnostic line := by
  simp [report, reported]

theorem Spares.report (hf : Spares f part?) (s : State) (line : Int) (p : Problem) :
    (f s).report line p = f <$> s.report line p := by
  rw [report_eq_map, report_eq_map, Functor.map_map]
  exact congrArg (· <$> p.diagnostic line) (funext fun d => (hf.reported s [d]).symm)

/-! ## Directives -/

theorem parameters?_congr {s s' : State} {args : List Term}
    (h : ∀ arg ∈ args, s'.bindings.AgreeOn s.bindings arg) :
    s'.parameters? args = s.parameters? args := by
  induction args with
  | nil => rfl
  | cons arg args ih =>
      have hbehind := ih fun arg harg => h arg (by simp [harg])
      cases arg with
      | keyword key value line =>
          have hvalue : s'.bindings.AgreeOn s.bindings value :=
            h (.keyword key value line) (by simp)
          rw [parameters?, parameters?, Bindings.resolve_congr hvalue.plain, hbehind]
      | _ => rfl

theorem single_congr {s s' : State} {arg : Term} (h : s'.bindings.AgreeOn s.bindings arg) :
    s'.single arg = s.single arg := by
  unfold single
  split
  · next name line hplain =>
      have hname : s'.bindings.get? name = s.bindings.get? name := h.plain name (hplain ▸ rfl)
      rw [hname]
  · rfl

theorem env_spared (hf : Spares f (some (.field .env))) (line : Int) {args : List Term}
    (h : ∀ arg ∈ args, (f s).bindings.AgreeOn s.bindings arg) :
    (f s).env catalogue line args = f <$> s.env catalogue line args := by
  cases args with
  | nil => exact hf.report s line _
  | cons nameArg args =>
      have hname : (f s).bindings.resolve nameArg.plain = s.bindings.resolve nameArg.plain :=
        Bindings.resolve_congr (h nameArg (by simp)).plain
      have hparameters : (f s).parameters? args = s.parameters? args :=
        parameters?_congr fun arg harg => h arg (by simp [harg])
      simp only [env]
      split
      · exact hf.report s line _
      · rw [hname, hparameters, map_bind]
        refine bind_congr fun value => ?_
        rw [map_bind]
        refine bind_congr fun parameters? => ?_
        cases parameters? with
        | none => exact hf.report s line _
        | some parameters =>
            simp only
            split
            · exact hf.report s line _
            · next e _ =>
                split
                · rw [map_bind]
                  refine bind_congr fun image? => ?_
                  cases image? with
                  | error rejection => exact hf.report s line _
                  | ok image => exact congrArg pure (hf.set s (.env e image) rfl).symm
                · exact hf.report s line _

theorem requiredFiles_spared (hf : Spares f (some (.field .requiredFiles))) (s : State) (line : Int)
    (args : List Term) : (f s).requiredFiles line args = f <$> s.requiredFiles line args := by
  cases args with
  | nil => exact hf.report s line _
  | cons arg args =>
      simp only [requiredFiles, map_bind]
      refine bind_congr fun files => ?_
      exact congrArg pure (hf.set s (.requiredFiles files) rfl).symm

theorem extensions_spared (hf : Spares f part?) (s : State) (line : Int) (args : List Term) :
    (f s).extensions line args = (fun (t, texts) => (f t, texts)) <$> s.extensions line args := by
  induction args generalizing s with
  | nil => rfl
  | cons arg args ih =>
      simp only [extensions]
      split
      · rw [ih, map_bind, bind_map_left]
        rfl
      · rw [hf.report, map_bind, bind_map_left]
        exact bind_congr fun t => ih t

theorem allowedExtensions_spared (hf : Spares f (some (.field .allowedExtensions))) (s : State)
    (line : Int) (args : List Term) :
    (f s).allowedExtensions line args = f <$> s.allowedExtensions line args := by
  cases args with
  | nil => exact hf.report s line _
  | cons arg args =>
      simp only [allowedExtensions]
      rw [extensions_spared hf, map_bind, bind_map_left]
      refine bind_congr fun (t, texts) => ?_
      exact congrArg pure (hf.set t (.allowedExtensions texts) rfl).symm

theorem grade_spared (hf : Spares f (some (.field .grade))) (line : Int) {args : List Term}
    (h : ∀ arg ∈ args, (f s).bindings.AgreeOn s.bindings arg) :
    (f s).grade line args = f <$> s.grade line args := by
  unfold grade
  split
  · next arg =>
      rw [single_congr (h arg (by simp))]
      split
      · next value _ =>
          split
          · exact hf.report s line _
          · exact congrArg pure (hf.set s (.grade value) rfl).symm
      · exact hf.report s line _
      · exact hf.report s line _
  · exact hf.report s line _

theorem networkAccess_spared (hf : Spares f (some (.field .networkAccess))) (line : Int)
    {args : List Term} (h : ∀ arg ∈ args, (f s).bindings.AgreeOn s.bindings arg) :
    (f s).networkAccess line args = f <$> s.networkAccess line args := by
  unfold networkAccess
  split
  · next arg =>
      rw [single_congr (h arg (by simp))]
      split
      · next enabled _ => exact congrArg pure (hf.set s (.networkAccess enabled) rfl).symm
      · exact hf.report s line _
  · exact hf.report s line _

theorem directive_spared {name : String} (hf : Spares f ((Field.ofName? name).map .field))
    (line : Int) {args : List Term} (h : ∀ arg ∈ args, (f s).bindings.AgreeOn s.bindings arg) :
    (f s).directive catalogue name line args = f <$> s.directive catalogue name line args := by
  unfold directive
  split
  · next hname =>
      rw [hname] at hf
      exact env_spared hf line h
  · next hname =>
      rw [hname] at hf
      exact requiredFiles_spared hf s line args
  · next hname =>
      rw [hname] at hf
      exact allowedExtensions_spared hf s line args
  · next hname =>
      rw [hname] at hf
      exact grade_spared hf line h
  · next hname =>
      rw [hname] at hf
      exact networkAccess_spared hf line h
  · exact hf.report s line _

/-! ## Statements -/

/-- What a step reads is the same: the step names and the environment in force. -/
def SameForSteps (s s' : State) : Prop :=
  s'.environment = s.environment ∧ s'.configuration.stepNames = s.configuration.stepNames

theorem step_spared (hf : Spares f (some .steps)) (hsame : SameForSteps s (f s)) (label : String)
    (line : Int) {children : List Term}
    (h : ∀ child ∈ children, (f s).bindings.AgreeOn s.bindings child) :
    (f s).step label line children = f <$> s.step label line children := by
  obtain ⟨henvironment, hnames⟩ := hsame
  have hcommands : commands (f s).bindings (f s).environment children =
      commands s.bindings s.environment children := by
    rw [henvironment, commands_congr s.environment h]
  unfold step
  rw [hnames, hcommands]
  split
  · exact hf.report s line _
  · rw [map_bind]
    refine bind_congr fun (cs, ds) => ?_
    -- The diagnostics of the commands are added, and then the step.
    have hset := hf.set (s.reported ds) (.step ⟨label, cs⟩) rfl
    rw [hf.reported] at hset
    exact congrArg pure hset.symm

/-- A statement that binds no variable may be compiled before a change that spares its part or after
it, if it reads the same. -/
theorem statement_spared {t : Term} (hf : Spares f (partOf? t))
    (hbindings : (f s).bindings.AgreeOn s.bindings t)
    (hsteps : partOf? t = some .steps → SameForSteps s (f s))
    (ht : ∀ name value line, t ≠ .assignment name value line) :
    (f s).statement catalogue t = f <$> s.statement catalogue t := by
  cases t with
  | directive name line args =>
      exact directive_spared hf line (Bindings.agreeOn_of_mem hbindings)
  | assignment name value line => exact absurd rfl (ht name value line)
  | block label line children kind =>
      simp only [statement]
      split
      · exact step_spared hf (hsteps rfl) label line (Bindings.agreeOn_of_mem hbindings)
      · exact hf.report s line _
  | call name line args =>
      simp only [statement]
      split
      · exact hf.report s line _
      · exact hf.report s line _
  | identifier name line =>
      simp only [statement]
      split
      · exact hf.report s line _
      · exact hf.report s line _
  | _ => exact hf.report s _ _

/-! ## Other variables -/

/-- The state with other variables, and with diagnostics in front of its own. -/
def given (b : Bindings) (es : List Diagnostic) (s : State) : State :=
  { s with bindings := b, errors := es ++ s.errors }

variable {b : Bindings} (es : List Diagnostic)

theorem spares_given (part? : Option Part) : Spares (given b es) part? where
  reported s ds := by simp [given, State.reported]
  set s x _ := by cases x <;> rfl

/-- A statement does the same behind any diagnostics, and with any variables that agree on what it
mentions. -/
theorem statement_given {t : Term} (h : b.AgreeOn s.bindings t) :
    (s.given b es).statement catalogue t = given (b.after t) es <$> s.statement catalogue t := by
  cases t with
  | assignment name value line => rfl
  | _ => exact statement_spared (spares_given es _) h (fun _ => ⟨rfl, rfl⟩) nofun

/-- Behind a statement the variables are those before it, but for what it assigns. -/
theorem bindings_of_statement {s' : State} {t : Term} (h : s.statement catalogue t = .ok s') :
    s'.bindings = s.bindings.after t := by
  cases effect_of_statement h with
  | rejected hmay _ =>
      cases t with
      | assignment _ _ _ => exact hmay.elim
      | _ => rfl
  | _ => rfl

theorem bindings_of_statements {script : Script}
    (h : State.empty.statements catalogue script = .ok s) : s.bindings = script.bindings := by
  refine statements_induction (P := fun script s => s.bindings = script.bindings) rfl ?_ h
  intro script s t s' _ hs ht
  rw [bindings_of_statement ht, hs, Script.bindings, Script.bindings, List.foldl_append]
  rfl

end State

end Compile

end GradingScript
