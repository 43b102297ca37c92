import GradingScript.Proofs.Compile.Frame

/-!
# Diagnostics are only written

What a statement does never depends on what was reported before it.  So a script compiles behind any
diagnostics as it does without them, and adds the same ones: `statement_behind` for one statement,
`statements_behind` for a script.  If the diagnostics are told in another way, what is built behind
them is the same: `retold_bind_statements`.
-/

namespace GradingScript

/-- What a configuration says, whatever is wrong with the script. -/
def Configuration.withoutErrors (c : Configuration) : Configuration :=
  { c with errors := [] }

/-- A script compiles to the outcome of the state that its statements lead to. -/
theorem compile_eq_ok_iff {catalogue : Catalogue} {script : Script} {o : Outcome} :
    compile catalogue script = .ok o ↔
      ∃ s, Compile.State.empty.statements catalogue script = .ok s ∧ o = .ofState s := by
  simp only [compile, Written.bind_eq_ok, Written.pure_eq_ok]
  exact exists_congr fun s => and_congr_right fun _ => eq_comm

namespace Compile.State

variable {catalogue : Catalogue}

/-- The state with diagnostics in front of its own. -/
def behind (es : List Diagnostic) (s : State) : State :=
  { s with errors := es ++ s.errors }

@[simp] theorem behind_configuration (es : List Diagnostic) (s : State) :
    (s.behind es).configuration = s.configuration := rfl

@[simp] theorem behind_bindings (es : List Diagnostic) (s : State) :
    (s.behind es).bindings = s.bindings := rfl

@[simp] theorem behind_environment (es : List Diagnostic) (s : State) :
    (s.behind es).environment = s.environment := rfl

@[simp] theorem behind_errors (es : List Diagnostic) (s : State) :
    (s.behind es).errors = es ++ s.errors := rfl

/-- A state is what it has built, behind its own diagnostics. -/
theorem behind_errors_self (s : State) : ({ s with errors := [] } : State).behind s.errors = s := by
  simp [behind]

variable (es : List Diagnostic) (s : State)

/-- A statement does behind any diagnostics what it does without them. -/
theorem statement_behind (t : Term) :
    (s.behind es).statement catalogue t = behind es <$> s.statement catalogue t := by
  have hframe : (s.behind es).statement catalogue t =
      given (s.bindings.after t) es <$> s.statement catalogue t :=
    statement_given es (.refl s.bindings t)
  rw [hframe]
  cases hstatement : s.statement catalogue t with
  | error e => rfl
  | ok u =>
      -- The variables are those that the statement has made itself.
      rw [← bindings_of_statement hstatement]
      rfl

/-- A script compiles behind any diagnostics as it does without them. -/
theorem statements_behind (script : Script) :
    (s.behind es).statements catalogue script = behind es <$> s.statements catalogue script := by
  induction script generalizing s with
  | nil => rfl
  | cons t script ih =>
      rw [statements_cons, statements_cons, statement_behind, map_bind, bind_map_left]
      exact bind_congr fun u => ih u

theorem statement_behind_eq_ok {s u : State} {t : Term} (h : s.statement catalogue t = .ok u) :
    (s.behind es).statement catalogue t = .ok (u.behind es) := by
  rw [statement_behind, h]
  rfl

theorem statements_behind_eq_ok {s u : State} {script : Script}
    (h : s.statements catalogue script = .ok u) :
    (s.behind es).statements catalogue script = .ok (u.behind es) := by
  rw [statements_behind, h]
  rfl

/-- What a script adds to a state stands behind the diagnostics of that state, whatever these
are. -/
theorem statements_eq_ok_iff {s s' : State} {script : Script} :
    s.statements catalogue script = .ok s' ↔
      ∃ u, ({ s with errors := [] } : State).statements catalogue script = .ok u ∧
        s' = u.behind s.errors := by
  conv_lhs => rw [← behind_errors_self s, statements_behind]
  rw [Written.map_eq_ok]
  exact exists_congr fun u => and_congr_right fun _ => eq_comm

/-! ## Diagnostics told in another way -/

section

variable {tell : Diagnostic → Diagnostic}

/-- The state with each diagnostic told in another way. -/
def retold (tell : Diagnostic → Diagnostic) (s : State) : State :=
  { s with errors := s.errors.map tell }

theorem retold_report {p q : Problem} (s : State) (line : Int)
    (h : tell <$> p.diagnostic line = tell <$> q.diagnostic line) :
    retold tell <$> s.report line p = retold tell <$> s.report line q := by
  have hreport (p : Problem) : retold tell <$> s.report line p =
      (fun d => { s with errors := s.errors.map tell ++ [d] }) <$>
        tell <$> p.diagnostic line := by
    simp [report, retold]
  rw [hreport, hreport, h]

/-- Statements do the same behind diagnostics that are told in another way. -/
theorem retold_statements {s s' : State} (h : s.retold tell = s'.retold tell) (script : Script) :
    retold tell <$> s.statements catalogue script =
      retold tell <$> s'.statements catalogue script := by
  -- The two states differ in their diagnostics alone, and these no statement reads.
  have hsplit (s : State) : retold tell <$> s.statements catalogue script =
      (behind (s.errors.map tell) ∘ retold tell) <$>
        ({ s with errors := [] } : State).statements catalogue script := by
    conv_lhs => rw [← behind_errors_self s, statements_behind]
    simp [retold, behind, Function.comp_def]
  obtain ⟨hconfiguration, hbindings, henvironment, herrors⟩ := State.mk.inj h
  rw [hsplit, hsplit, herrors, hconfiguration, hbindings, henvironment]

/-- What differs in how it is told differs in nothing else when more statements are compiled. -/
theorem retold_bind_statements {x y : Written State} (h : retold tell <$> x = retold tell <$> y)
    (script : Script) :
    retold tell <$> (x >>= fun u => u.statements catalogue script) =
      retold tell <$> (y >>= fun u => u.statements catalogue script) := by
  cases x with
  | error e =>
      cases y with
      | error e' =>
          cases h
          rfl
      | ok u' => cases h
  | ok u =>
      cases y with
      | error e' => cases h
      | ok u' => exact retold_statements (Except.ok.inj h) script

end

end Compile.State

/-- A configuration, with each of its diagnostics told in another way. -/
def Configuration.retold (tell : Diagnostic → Diagnostic) (c : Configuration) : Configuration :=
  { c with errors := c.errors.map tell }

/-- An outcome, with each of its diagnostics told in another way. -/
def Outcome.retold (tell : Diagnostic → Diagnostic) (o : Outcome) : Outcome :=
  { configuration := o.configuration.map (Configuration.retold tell)
    errors := o.errors.map tell
    draft := o.draft.map (Configuration.retold tell) }

theorem Outcome.retold_ofState (tell : Diagnostic → Diagnostic) (s : Compile.State) :
    (Outcome.ofState s).retold tell = .ofState (s.retold tell) := by
  by_cases hclean : s.errors = [] <;>
    simp [Outcome.retold, Outcome.ofState, Configuration.retold, Compile.State.retold, hclean]

theorem retold_compile (tell : Diagnostic → Diagnostic) (catalogue : Catalogue) (script : Script) :
    Outcome.retold tell <$> compile catalogue script =
      Outcome.ofState <$> Compile.State.retold tell <$>
        Compile.State.empty.statements catalogue script := by
  simp [compile, Outcome.retold_ofState]

end GradingScript
