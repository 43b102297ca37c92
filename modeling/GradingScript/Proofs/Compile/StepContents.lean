import GradingScript.Proofs.Compile.Completion
import GradingScript.Proofs.Compile.SourceOrder
import GradingScript.Proofs.Term.Integers

/-!
# What the statements of a step contribute

Every statement of a step becomes one command or one diagnostic, and nothing else comes out of the
step.  Which of the two it is does not depend on the other statements.

* `Yields` says which command a statement yields, without the order in which the compilation finds
  out: a command that every step may use, or a capability of the environment in force, with
  arguments that have texts.
* `command_eq_ok_iff` is the step: the compilation makes a command of a statement just when the
  statement yields it.  `exists_contributions` is the run over the statements of a step.
-/

namespace GradingScript

/-- Whether a term is one of the data that a command can be given. -/
def Term.isScalar : Term → Bool
  | .string _ | .number _ | .bool _ => true
  | _ => false

namespace Compile

/-- What an argument comes to: a name must be bound, and the value must be a string, a number or a
boolean with this text. -/
structure ArgumentText (b : Bindings) (arg : Term) (text : String) : Prop where
  bound : ∀ name line, arg.plain = .identifier name line → b.isBound name = true
  value : ∃ value, b.resolve arg.plain = .ok value ∧ value.isScalar = true ∧
    value.text = .ok text

/-- The command that a statement of a step yields.  What every step may use takes one argument, also
where the environment has a capability of that name. -/
inductive Yields (b : Bindings) (environment : Option Environment) : Term → Command → Prop
  | common {name : String} {line : Int} {arg : Term} {text : String}
      (hname : name ∈ commonCommands) (harg : ArgumentText b arg text) :
      Yields b environment (.call name line [arg]) ⟨name, [text]⟩
  | capability {name : String} {line : Int} {args : List Term} {texts : List String}
      {e : Environment} {c : Capability} {made : Command} (hname : name ∉ commonCommands)
      (henvironment : environment = some e) (hcapability : e.capability? name = some c)
      (harity : c.arity = args.length) (hargs : List.Forall₂ (ArgumentText b) args texts)
      (hmade : c.handler texts = .ok made) :
      Yields b environment (.call name line args) made

/-- What a statement of a step contributes: the command that it yields, or a diagnostic on its line
if it yields none. -/
def Contributes (b : Bindings) (environment : Option Environment) (child : Term) :
    Diagnostic ⊕ Command → Prop
  | .inr c => Yields b environment child c
  | .inl d => d.line = child.line ∧ ∀ c, ¬Yields b environment child c

variable {b : Bindings} {environment : Option Environment}

/-! ## Arguments -/

theorem valueText_eq_ok_iff {value : Term} {text : String} :
    argument.valueText value = .ok (.ok text) ↔
      value.isScalar = true ∧ value.text = .ok text := by
  cases value with
  | string _ | number _ | bool _ =>
      simp only [argument.valueText, Written.bind_eq_ok, Written.pure_eq_ok, Except.ok.injEq,
        exists_eq_right, Term.isScalar, true_and]
  | _ =>
      constructor
      · intro h
        cases h
      · rintro ⟨h, -⟩
        cases h

theorem argument_eq_ok_iff {arg : Term} {text : String} :
    argument b arg = .ok (.ok text) ↔ ArgumentText b arg text := by
  unfold argument
  split
  · next name line hplain =>
      have hresolve : b.resolve arg.plain = .ok ((b.get? name).getD .nil) := by
        rw [hplain, Bindings.resolve]
        rfl
      split
      · next value hvalue =>
          rw [hvalue] at hresolve
          rw [valueText_eq_ok_iff]
          constructor
          · intro h
            refine ⟨fun name' line' hplain' => ?_, value, hresolve, h⟩
            rw [hplain] at hplain'
            cases hplain'
            rw [Bindings.isBound, hvalue]
            rfl
          · rintro ⟨-, value', hresolve', h⟩
            obtain rfl := Except.ok.inj (hresolve.symm.trans hresolve')
            exact h
      · next hnone =>
          constructor
          · intro h
            cases h
          · rintro ⟨hbound, -⟩
            have hsome := hbound name line hplain
            rw [Bindings.isBound, hnone] at hsome
            cases hsome
  · next hplain =>
      rw [Written.bind_eq_ok]
      constructor
      · rintro ⟨value, hresolve, h⟩
        exact ⟨fun name line h => absurd h (hplain name line), value, hresolve,
          valueText_eq_ok_iff.1 h⟩
      · rintro ⟨-, value, hresolve, h⟩
        exact ⟨value, hresolve, valueText_eq_ok_iff.2 h⟩

theorem arguments_eq_ok_iff {args : List Term} {texts : List String} :
    arguments b args = .ok (.ok texts) ↔ List.Forall₂ (ArgumentText b) args texts := by
  induction args generalizing texts with
  | nil =>
      rw [List.forall₂_nil_left_iff, arguments, Written.pure_eq_ok, Except.ok.injEq, eq_comm]
  | cons arg args ih =>
      rw [List.forall₂_cons_left_iff, arguments]
      constructor
      · intro h
        obtain ⟨text?, htext, h⟩ := Written.bind_eq_ok.1 h
        cases text? with
        | error p => cases h
        | ok text =>
            obtain ⟨texts?, htexts, h⟩ := Written.bind_eq_ok.1 h
            cases texts? with
            | error p => cases h
            | ok texts' =>
                cases h
                exact ⟨text, texts', argument_eq_ok_iff.1 htext, ih.1 htexts, rfl⟩
      · rintro ⟨text, texts', htext, htexts, rfl⟩
        rw [argument_eq_ok_iff.2 htext, Written.ok_bind, ih.2 htexts]
        rfl

/-! ## Commands -/

/-- So many arguments are asked for as the command takes that is made of them. -/
theorem arityOf_eq_ok_iff {name : String} {arity : Int} :
    arityOf environment name = .ok arity ↔
      (name ∈ commonCommands ∧ arity = 1) ∨ (name ∉ commonCommands ∧
        ∃ e c, environment = some e ∧ e.capability? name = some c ∧ c.arity = arity) := by
  unfold arityOf
  split
  · next hcommon => simp [hcommon, eq_comm]
  · next hcommon =>
      cases environment with
      | none => simp [hcommon]
      | some e =>
          cases hcapability : e.capability? name with
          | none => simp [hcommon, Environment.arityOf?, hcapability]
          | some c => simp [hcommon, Environment.arityOf?, hcapability]

theorem makeCommand_common {name : String} (h : name ∈ commonCommands) (texts : List String) :
    makeCommand environment name texts = .ok ⟨name, texts⟩ :=
  if_pos h

/-- A capability that has been found makes a command of as many arguments as it takes, if its
handler does. -/
theorem makeCommand_capability {name : String} {e : Environment} {c : Capability}
    {texts : List String} {made : Command} (hcommon : name ∉ commonCommands)
    (hcapability : e.capability? name = some c) (harity : c.arity = texts.length) :
    makeCommand (some e) name texts = .ok made ↔ c.handler texts = .ok made := by
  have hinvoke : e.invoke name texts = c.handler texts := by
    simp only [Environment.invoke, hcapability, if_pos harity]
  simp only [makeCommand, if_neg hcommon, hinvoke]
  cases c.handler texts with
  | ok c' => simp [Except.mapError]
  | error rejection => simp [Except.mapError]

/-- A command is made of as many arguments as are asked for, if they all have texts. -/
theorem command_call_eq_ok_iff {name : String} {line : Int} {args : List Term} {made : Command} :
    command b environment (.call name line args) = .ok (.ok made) ↔
      arityOf environment name = .ok args.length ∧ ∃ texts,
        List.Forall₂ (ArgumentText b) args texts ∧
          makeCommand environment name texts = .ok made := by
  simp only [← arguments_eq_ok_iff]
  constructor
  · intro h
    rw [command] at h
    split at h
    · cases h
    · next arity harity =>
        split at h
        · next hcount =>
            obtain ⟨texts?, htexts, h⟩ := Written.bind_eq_ok.1 h
            cases texts? with
            | error p => cases h
            | ok texts => exact ⟨hcount ▸ harity, texts, htexts, Written.pure_eq_ok.1 h⟩
        · cases h
  · rintro ⟨harity, texts, htexts, hmade⟩
    simp only [command, harity, if_true, htexts, Written.ok_bind, hmade]
    rfl

/-- The compilation makes the commands that statements yield, and no others. -/
theorem command_eq_ok_iff {t : Term} {made : Command} :
    command b environment t = .ok (.ok made) ↔ Yields b environment t made := by
  constructor
  · intro h
    cases t with
    | call name line args =>
        obtain ⟨harity, texts, htexts, hmade⟩ := command_call_eq_ok_iff.1 h
        rcases arityOf_eq_ok_iff.1 harity with
          ⟨hcommon, hone⟩ | ⟨hcommon, e, c, rfl, hcapability, hcount⟩
        · obtain ⟨arg, rfl⟩ := List.length_eq_one_iff.1 (by exact_mod_cast hone)
          obtain ⟨text, rest, harg, hrest, rfl⟩ := List.forall₂_cons_left_iff.1 htexts
          obtain rfl := List.forall₂_nil_left_iff.1 hrest
          rw [makeCommand_common hcommon] at hmade
          cases hmade
          exact .common hcommon harg
        · have hlength : c.arity = texts.length := by rw [hcount, htexts.length_eq]
          rw [makeCommand_capability hcommon hcapability hlength] at hmade
          exact .capability hcommon rfl hcapability hcount htexts hmade
    | _ => cases h
  · intro h
    cases h with
    | common hname harg =>
        exact command_call_eq_ok_iff.2 ⟨arityOf_eq_ok_iff.2 (.inl ⟨hname, rfl⟩), _,
          .cons harg .nil, makeCommand_common hname _⟩
    | capability hname henvironment hcapability harity hargs hmade =>
        subst henvironment
        have hlength := harity.trans (congrArg Nat.cast hargs.length_eq)
        exact command_call_eq_ok_iff.2
          ⟨arityOf_eq_ok_iff.2 (.inr ⟨hname, _, _, rfl, hcapability, harity⟩), _, hargs,
            (makeCommand_capability hname hcapability hlength).2 hmade⟩

/-! ## Steps -/

/-- What a statement of a step that fails is reported with. -/
theorem contributes_of_command {child : Term} {p : Problem} {d : Diagnostic}
    (h : command b environment child = .ok (.error p)) (hd : p.diagnostic child.line = .ok d) :
    Contributes b environment child (.inl d) := by
  refine ⟨Problem.line_of_diagnostic hd, fun c hc => ?_⟩
  rw [← command_eq_ok_iff, h] at hc
  cases hc

/-- The statements of a step contribute in order, and all that comes of the step is what they
contribute. -/
theorem exists_contributions {children : List Term} {cs : List Command} {ds : List Diagnostic}
    (h : commands b environment children = .ok (cs, ds)) :
    ∃ outs : List (Diagnostic ⊕ Command),
      List.Forall₂ (Contributes b environment) children outs ∧
        cs = outs.filterMap Sum.getRight? ∧ ds = outs.filterMap Sum.getLeft? := by
  induction children generalizing cs ds with
  | nil =>
      cases h
      exact ⟨[], .nil, rfl, rfl⟩
  | cons child children ih =>
      rw [commands] at h
      obtain ⟨command?, hcommand, h⟩ := Written.bind_eq_ok.1 h
      cases command? with
      | ok c =>
          obtain ⟨⟨cs', ds'⟩, hrest, h⟩ := Written.bind_eq_ok.1 h
          obtain ⟨outs, houts, rfl, rfl⟩ := ih hrest
          cases h
          exact ⟨.inr c :: outs, .cons (command_eq_ok_iff.1 hcommand) houts, rfl, rfl⟩
      | error p =>
          obtain ⟨d, hd, h⟩ := Written.bind_eq_ok.1 h
          obtain ⟨⟨cs', ds'⟩, hrest, h⟩ := Written.bind_eq_ok.1 h
          obtain ⟨outs, houts, rfl, rfl⟩ := ih hrest
          cases h
          exact ⟨.inl d :: outs, .cons (contributes_of_command hcommand hd) houts, rfl, rfl⟩

/-- A step with a new label is added with the commands that its statements yield.  Each of the
others is reported once, on its line, and all else stays. -/
theorem step_accounts_for_children {s : State} (hs : s.bindings.Hold Term.HasShortIntegers)
    (harities : HasShortArities s.environment) {label : String}
    (hnew : label ∉ s.configuration.stepNames) {children : List Term}
    (hchildren : ∀ child ∈ children, child.HasShortIntegers) (catalogue : Catalogue) (line : Int) :
    ∃ outs : List (Diagnostic ⊕ Command),
      List.Forall₂ (Contributes s.bindings s.environment) children outs ∧
        s.statement catalogue (.block label line children "step") = .ok
          { s with
            errors := s.errors ++ outs.filterMap Sum.getLeft?
            configuration :=
              { s.configuration with
                steps := s.configuration.steps ++ [⟨label, outs.filterMap Sum.getRight?⟩] } } := by
  have hvalues : s.bindings.Hold Term.HasText := hs.imp fun _ => Term.HasShortIntegers.hasText
  have hoperands : ∀ child ∈ children, ∀ v ∈ child.operands, v.HasText :=
    fun child hchild => (hchildren child hchild).operands
  obtain ⟨⟨cs, ds⟩, hcommands⟩ := exists_commands hvalues harities hoperands
  obtain ⟨outs, houts, rfl, rfl⟩ := exists_contributions hcommands
  refine ⟨outs, houts, ?_⟩
  rw [State.statement, if_pos rfl, State.step, if_neg hnew, hcommands]
  rfl

/-- Two commands and two diagnostics, of a step that uses a variable and an environment. -/
theorem step_accounts_for_children_mixed :
    let s : State := ⟨.empty, Bindings.empty.bind "x" (.string "all"), some .elixir, []⟩
    let children : List Term := [.call "run" 2 [.literal (.string "make %x") 2], .literal .nil 3,
      .call "format" 4 [.identifier "x" 4], .call "print" 5 [.literal .nil 5]]
    s.bindings.Hold Term.HasShortIntegers ∧ HasShortArities s.environment ∧
      "build" ∉ s.configuration.stepNames ∧ (∀ child ∈ children, child.HasShortIntegers) ∧
      ∃ s', s.statement .standard (.block "build" 1 children "step") = .ok s' ∧
        s'.configuration.steps =
          [⟨"build", [⟨"run", ["make all"]⟩, ⟨"run", ["mix format all"]⟩]⟩] ∧
        s'.errors.map Diagnostic.line = [3, 5] := by
  intro s children
  have hs : s.bindings.Hold Term.HasShortIntegers := by
    refine (Bindings.hold_empty _).bind_plain "x" ?_
    simp [Term.HasShortIntegers, Term.plain, Term.integers]
  have harities : HasShortArities s.environment := by
    intro e he
    cases he
    decide +kernel
  have hnew : "build" ∉ s.configuration.stepNames := List.not_mem_nil
  have hchildren : ∀ child ∈ children, child.HasShortIntegers := by
    simp only [children, List.forall_mem_cons, Term.HasShortIntegers, Term.integers]
    decide +kernel
  obtain ⟨outs, houts, hstatement⟩ :=
    step_accounts_for_children hs harities hnew hchildren .standard 1
  have hcomputed :
      (fun s' : State => (s'.configuration.steps, s'.errors.map Diagnostic.line)) <$>
        s.statement .standard (.block "build" 1 children "step") =
      .ok ([⟨"build", [⟨"run", ["make all"]⟩, ⟨"run", ["mix format all"]⟩]⟩], [3, 5]) := by
    cbv
  rw [hstatement] at hcomputed
  obtain ⟨hsteps, hlines⟩ := Prod.mk.inj (Except.ok.inj hcomputed)
  exact ⟨hs, harities, hnew, hchildren, _, hstatement, hsteps, hlines⟩

end Compile

end GradingScript
