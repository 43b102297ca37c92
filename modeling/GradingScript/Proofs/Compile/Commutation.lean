import GradingScript.Proofs.Compile.Journal

/-!
# Independent statements change places

Two directives of different names, or a directive and a block, set different parts of the
configuration.  Neither reads what the other sets, unless a step stands next to an `@env`
directive.  So they may change places, and only their diagnostics do so too.

* `Independent` says which statements may change places.
* `Deed` is what such a statement does, and `statement_deed` lets another be compiled before it.
* `exists_swapped` is the step for both orders, and `compile_swap` says what becomes of a script.
-/

namespace GradingScript

/-- Two statements that may change places. -/
inductive Independent : Term → Term → Prop
  | directives {name name' : String} {line line' : Int} {args args' : List Term}
      (h : name ≠ name') :
      Independent (.directive name line args) (.directive name' line' args')
  | directive_block {name label keyword : String} {line line' : Int} {args children : List Term}
      (h : name ≠ "env") :
      Independent (.directive name line args) (.block label line' children keyword)
  | block_directive {name label keyword : String} {line line' : Int} {args children : List Term}
      (h : name ≠ "env") :
      Independent (.block label line' children keyword) (.directive name line args)

namespace Independent

open Compile

theorem symm {t t' : Term} (h : Independent t t') : Independent t' t := by
  cases h with
  | directives h => exact .directives h.symm
  | directive_block h => exact .block_directive h
  | block_directive h => exact .directive_block h

/-- What one of them sets, the other neither sets nor reads. -/
theorem part_ne {t t' : Term} (h : Independent t t') {part : Part} (hpart : partOf? t = some part) :
    partOf? t' ≠ some part ∧ (partOf? t' = some .steps → part ≠ .field .env) := by
  cases h with
  | directives hne =>
      obtain ⟨f, hf, rfl⟩ := Option.map_eq_some_iff.1 hpart
      have hname := Field.ofName?_eq_some_iff.1 hf
      constructor
      · intro hpart'
        obtain ⟨g, hg, heq⟩ := Option.map_eq_some_iff.1 hpart'
        cases heq
        exact hne (hname.trans (Field.ofName?_eq_some_iff.1 hg).symm)
      · intro hsteps
        obtain ⟨g, -, heq⟩ := Option.map_eq_some_iff.1 hsteps
        cases heq
  | directive_block hne =>
      obtain ⟨f, hf, rfl⟩ := Option.map_eq_some_iff.1 hpart
      refine ⟨by simp [partOf?], fun _ heq => ?_⟩
      cases heq
      exact hne (Field.ofName?_eq_some_iff.1 hf)
  | block_directive hne =>
      obtain rfl : Part.steps = part := Option.some.inj hpart
      exact ⟨by simp [partOf?], fun _ => by simp⟩

/-- Neither of them is an assignment. -/
theorem ne_assignment {t t' : Term} (h : Independent t t') (name : String) (value : Term)
    (line : Int) : t ≠ .assignment name value line := by
  cases h <;> simp

end Independent

namespace Compile

variable {catalogue : Catalogue}

/-- Settings of different parts may be made in either order. -/
theorem Setting.apply_comm {x y : Setting} (h : x.part ≠ y.part) (s : State) :
    x.apply (y.apply s) = y.apply (x.apply s) := by
  cases x <;> cases y <;> first | rfl | exact absurd rfl h

/-! ## Deeds -/

/-- What a statement that binds no variable does: it adds diagnostics, and may set a part of the
configuration. -/
structure Deed where
  reported : List Diagnostic
  setting? : Option Setting

namespace Deed

/-- The state with the part set. -/
def set (d : Deed) (s : State) : State :=
  match d.setting? with
  | some x => x.apply s
  | none => s

/-- The state with the part set, and with the diagnostics in front of its own. -/
def apply (d : Deed) (s : State) : State :=
  (d.set s).behind d.reported

/-- The part that is set is the one that a statement sets. -/
def IsOf (d : Deed) (t : Term) : Prop :=
  ∀ x, d.setting? = some x → partOf? t = some x.part

theorem bindings_set (d : Deed) (s : State) : (d.set s).bindings = s.bindings := by
  unfold set
  split
  · next x _ => cases x <;> rfl
  · rfl

theorem errors_set (d : Deed) (s : State) : (d.set s).errors = s.errors := by
  unfold set
  split
  · next x _ => cases x <;> rfl
  · rfl

theorem set_behind (d : Deed) (es : List Diagnostic) (s : State) :
    d.set (s.behind es) = (d.set s).behind es := by
  unfold set
  split
  · next x _ => cases x <;> rfl
  · rfl

theorem set_reported (d : Deed) (ds : List Diagnostic) (s : State) :
    d.set (s.reported ds) = (d.set s).reported ds := by
  unfold set
  split
  · next x _ => cases x <;> rfl
  · rfl

/-- What independent statements set may be set in either order. -/
theorem set_comm {d d' : Deed} {t t' : Term} (h : Independent t t') (hd : d.IsOf t)
    (hd' : d'.IsOf t') (s : State) : d.set (d'.set s) = d'.set (d.set s) := by
  unfold set
  split
  · next x hx =>
      split
      · next y hy =>
          refine Setting.apply_comm (fun heq => ?_) s
          exact (h.part_ne (hd x hx)).1 (heq ▸ hd' y hy)
      · rfl
  · rfl

/-- A deed leaves alone what an independent statement sets. -/
theorem spares_apply {d : Deed} {t t' : Term} (h : Independent t t') (hd : d.IsOf t) :
    State.Spares d.apply (partOf? t') where
  reported s ds := by
    rw [apply, apply, set_reported]
    simp [State.behind, State.reported]
  set s y hy := by
    have hy' : IsOf ⟨[], some y⟩ t' := by
      rintro _ ⟨⟩
      exact hy
    have hcomm : d.set (y.apply s) = y.apply (d.set s) := set_comm h hd hy' s
    have hbehind : y.apply ((d.set s).behind d.reported) = (y.apply (d.set s)).behind d.reported :=
      set_behind ⟨[], some y⟩ d.reported (d.set s)
    rw [apply, apply, hcomm, hbehind]

/-- A deed leaves alone what an independent statement reads. -/
theorem sameForSteps_apply {d : Deed} {t t' : Term} (h : Independent t t') (hd : d.IsOf t)
    (ht' : partOf? t' = some .steps) (s : State) : State.SameForSteps s (d.apply s) := by
  unfold apply set
  split
  · next x hx =>
      obtain ⟨hpart, henv⟩ := h.part_ne (hd x hx)
      cases x with
      | env => exact absurd rfl (henv ht')
      | step => exact absurd ht' hpart
      | _ => exact ⟨rfl, rfl⟩
  · exact ⟨rfl, rfl⟩

end Deed

/-- What a statement has done is a deed of its own. -/
theorem Effect.exists_deed {s s' : State} {t : Term} (h : Effect catalogue s t s')
    (hs : s.errors = []) (ht : ∀ name value line, t ≠ .assignment name value line) :
    ∃ d : Deed, d.IsOf t ∧ s' = d.apply s := by
  have hset {x : Setting} {ds : List Diagnostic} (hpart : partOf? t = some x.part) :
      Deed.IsOf ⟨ds, some x⟩ t := by
    rintro _ ⟨⟩
    exact hpart
  cases h with
  | @rejected _ _ d hmay hd =>
      exact ⟨⟨[d], none⟩, nofun, by simp [Deed.apply, Deed.set, State.behind, hs]⟩
  | @env _ _ _ e image hname hchoice =>
      subst hname
      exact ⟨⟨[], some (.env e image)⟩, hset rfl, rfl⟩
  | @requiredFiles _ _ _ _ files hname hfiles =>
      subst hname
      exact ⟨⟨[], some (.requiredFiles files)⟩, hset rfl, rfl⟩
  | @allowedExtensions _ _ arg args ds hname hds =>
      subst hname
      refine ⟨⟨ds, some (.allowedExtensions (validExtensions (arg :: args)))⟩, hset rfl, ?_⟩
      simp [Deed.apply, Deed.set, State.behind, Setting.apply, State.configure, hs]
  | @grade _ _ _ value hname hvalue hrange =>
      subst hname
      exact ⟨⟨[], some (.grade value)⟩, hset rfl, rfl⟩
  | @networkAccess _ _ _ enabled hname hvalue =>
      subst hname
      exact ⟨⟨[], some (.networkAccess enabled)⟩, hset rfl, rfl⟩
  | assignment => exact absurd rfl (ht _ _ _)
  | @step label _ _ _ cs ds hkeyword hnew hcommands =>
      refine ⟨⟨ds, some (.step ⟨label, cs⟩)⟩, hset rfl, ?_⟩
      simp [Deed.apply, Deed.set, State.behind, Setting.apply, State.configure, hs]

namespace State

variable {s : State} {t t' : Term}

/-- A statement may be compiled before the deed of an independent one, or behind it. -/
theorem statement_deed (h : Independent t t') {d : Deed} (hd : d.IsOf t) (s : State) :
    (d.apply s).statement catalogue t' = d.apply <$> s.statement catalogue t' := by
  have hbindings : (d.apply s).bindings = s.bindings := d.bindings_set s
  refine statement_spared (Deed.spares_apply h hd) ?_ (fun ht' => ?_) h.symm.ne_assignment
  · rw [hbindings]
    exact .refl _ _
  · exact Deed.sameForSteps_apply h hd ht' s

/-- Before any diagnostics, independent statements lead to the same state in both orders, but for
the diagnostics, and each has the same to report. -/
theorem exists_swapped (h : Independent t t') {u v : State} (hs : s.errors = [])
    (hu : s.statement catalogue t = .ok u) (hv : u.statement catalogue t' = .ok v) :
    ∃ u' r, s.statement catalogue t' = .ok u' ∧ r.errors = [] ∧
      v = behind (u.errors ++ u'.errors) r ∧
      u'.statement catalogue t = .ok (behind (u'.errors ++ u.errors) r) := by
  obtain ⟨d, hd, rfl⟩ := (effect_of_statement hu).exists_deed hs h.ne_assignment
  rw [statement_deed h hd] at hv
  obtain ⟨u', hu', rfl⟩ := Written.map_eq_ok.1 hv
  obtain ⟨d', hd', rfl⟩ := (effect_of_statement hu').exists_deed hs h.symm.ne_assignment
  have herrors (e : Deed) : (e.apply s).errors = e.reported := by
    rw [Deed.apply, behind_errors, e.errors_set, hs, List.append_nil]
  have happly (e e' : Deed) :
      e.apply (e'.apply s) = behind (e.reported ++ e'.reported) (e.set (e'.set s)) := by
    rw [Deed.apply, Deed.apply, e.set_behind]
    simp [behind]
  refine ⟨d'.apply s, d.set (d'.set s), hu', ?_, ?_, ?_⟩
  · rw [d.errors_set, d'.errors_set, hs]
  · rw [herrors, herrors, happly]
  · rw [statement_deed h.symm hd', hu, herrors, herrors, Deed.set_comm h hd hd']
    exact congrArg Except.ok (happly d' d)

end State

end Compile

open Compile

/-- Behind a part of a script, a statement reports these diagnostics. -/
def Contributes (catalogue : Catalogue) (xs : Script) (t : Term) (es : List Diagnostic) : Prop :=
  ∃ o o', compile catalogue xs = .ok o ∧ compile catalogue (xs ++ [t]) = .ok o' ∧
    o'.errors = o.errors ++ es

theorem contributes_of_statement {catalogue : Catalogue} {xs : Script} {t : Term} {s u : State}
    (hs : State.empty.statements catalogue xs = .ok s) (hu : s.statement catalogue t = .ok u)
    {es : List Diagnostic} (hes : u.errors = s.errors ++ es) : Contributes catalogue xs t es :=
  ⟨.ofState s, .ofState u, compile_eq_ok_iff.2 ⟨s, hs, rfl⟩,
    compile_eq_ok_iff.2 ⟨u, State.statements_concat_eq_ok.2 ⟨s, hs, hu⟩, rfl⟩, hes⟩

/-- Independent statements next to each other may change places: the configuration is the same, and
of the diagnostics only those of the two statements change places, each in its own order. -/
theorem compile_swap {catalogue : Catalogue} {xs ys : Script} {t t' : Term} {o : Outcome}
    (h : Independent t t') (ho : compile catalogue (xs ++ t :: t' :: ys) = .ok o) :
    ∃ o' p es es' behind, compile catalogue (xs ++ t' :: t :: ys) = .ok o' ∧
      compile catalogue xs = .ok p ∧
      Contributes catalogue xs t es ∧ Contributes catalogue (xs ++ [t]) t' es' ∧
      Contributes catalogue xs t' es' ∧ Contributes catalogue (xs ++ [t']) t es ∧
      o.errors = p.errors ++ es ++ es' ++ behind ∧
      o'.errors = p.errors ++ es' ++ es ++ behind ∧
      o'.draft.map Configuration.withoutErrors = o.draft.map Configuration.withoutErrors := by
  obtain ⟨w, hw, rfl⟩ := compile_eq_ok_iff.1 ho
  rw [State.statements_append] at hw
  obtain ⟨p, hp, hpair⟩ := Written.bind_eq_ok.1 hw
  -- The diagnostics of the statements before the two are set aside.
  obtain ⟨s, before, hs, rfl⟩ : ∃ (s : State) (before : List Diagnostic),
      s.errors = [] ∧ p = s.behind before :=
    ⟨{ p with errors := [] }, p.errors, rfl, p.behind_errors_self.symm⟩
  rw [State.statements_behind] at hpair
  obtain ⟨_, hrun, rfl⟩ := Written.map_eq_ok.1 hpair
  obtain ⟨u, hu, hsecond⟩ := State.statements_cons_eq_ok.1 hrun
  obtain ⟨v, hv, hrest⟩ := State.statements_cons_eq_ok.1 hsecond
  obtain ⟨u', r, hu', hr, rfl, hv'⟩ := State.exists_swapped h hs hu hv
  rw [State.statements_behind] at hrest
  obtain ⟨q, hq, rfl⟩ := Written.map_eq_ok.1 hrest
  -- The same four steps, and the rest of the script, behind those diagnostics.
  have ht := State.statement_behind_eq_ok before hu
  have htt' := State.statement_behind_eq_ok before hv
  have ht' := State.statement_behind_eq_ok before hu'
  have ht't := State.statement_behind_eq_ok before hv'
  have hys : ((r.behind (u'.errors ++ u.errors)).behind before).statements catalogue ys =
      .ok ((q.behind (u'.errors ++ u.errors)).behind before) :=
    State.statements_behind_eq_ok _ (State.statements_behind_eq_ok _ hq)
  have hswapped : State.empty.statements catalogue (xs ++ t' :: t :: ys) =
      .ok ((q.behind (u'.errors ++ u.errors)).behind before) := by
    rw [State.statements_append, hp]
    exact State.statements_cons_eq_ok.2 ⟨_, ht', State.statements_cons_eq_ok.2 ⟨_, ht't, hys⟩⟩
  refine ⟨.ofState ((q.behind (u'.errors ++ u.errors)).behind before),
    .ofState (s.behind before), u.errors, u'.errors, q.errors, ?_, ?_, ?_, ?_, ?_, ?_, ?_, ?_, ?_⟩
  · exact compile_eq_ok_iff.2 ⟨_, hswapped, rfl⟩
  · exact compile_eq_ok_iff.2 ⟨_, hp, rfl⟩
  · exact contributes_of_statement hp ht (by simp [hs])
  · exact contributes_of_statement (State.statements_concat_eq_ok.2 ⟨_, hp, ht⟩) htt'
      (by simp [hr])
  · exact contributes_of_statement hp ht' (by simp [hs])
  · exact contributes_of_statement (State.statements_concat_eq_ok.2 ⟨_, hp, ht'⟩) ht't
      (by simp [hr])
  · simp [Outcome.ofState, hs]
  · simp [Outcome.ofState, hs]
  · rfl

/-- A list of extensions of which one is bad, and a step of which two commands fail, between
statements that are reported. -/
theorem compile_swap_extensions_step :
    let xs : Script := [.directive "grade" 1 [.literal (.number (.int 2)) 1]]
    let t : Term := .directive "allowed_file_extensions" 2
      [.literal (.string "ex") 2, .literal (.string ".ex") 2]
    let t' : Term := .block "s" 3 [.call "help" 4 [], .call "run" 5 [.literal (.string "ls") 5],
      .call "print" 6 [.identifier "x" 6]] "step"
    let ys : Script := [.directive "required_files" 7 []]
    let errors : List Diagnostic := [⟨1, "grade must be a value between 0 and 1", "", ""⟩,
      ⟨2, "Invalid file extension: ", "\"ex\"",
        "A file extension must start with a dot and not contain any special characters."⟩,
      ⟨4, "undefined function: ", "help", ""⟩, ⟨6, "undefined variable: ", "x", ""⟩,
      ⟨7, "list can not be empty: ", "required_files", ""⟩]
    let c : Configuration := ⟨none, none, [], [".ex"], none, false, [⟨"s", [⟨"run", ["ls"]⟩]⟩], []⟩
    Independent t t' ∧
      compile .standard (xs ++ t :: t' :: ys) =
        .ok ⟨none, errors, some { c with errors := errors }⟩ ∧
      ∃ o', compile .standard (xs ++ t' :: t :: ys) = .ok o' ∧
        o'.draft.map Configuration.withoutErrors = some c := by
  intro xs t t' ys errors c
  have hindependent : Independent t t' := .directive_block (by decide)
  have hcompile : compile .standard (xs ++ t :: t' :: ys) =
      .ok ⟨none, errors, some { c with errors := errors }⟩ := by decide +kernel
  obtain ⟨o', _, _, _, _, ho', -, -, -, -, -, -, -, hdraft⟩ := compile_swap hindependent hcompile
  exact ⟨hindependent, hcompile, o', ho', hdraft⟩

end GradingScript
