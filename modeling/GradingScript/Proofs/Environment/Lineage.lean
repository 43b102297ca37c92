import GradingScript.Environment.Catalogue
import GradingScript.Proofs.Lists
import Mathlib.Data.List.Basic

/-!
# Capabilities along a line of environments

An environment is built in, or it extends another one.  So it comes at the end of a line of
environments, of which each has stated methods of its own, and the methods of the whole line decide
what it offers:

* a name is offered if some generation has stated it with an arity;
* the arity is the one that was stated last, and the handler is that of the last method of the name,
  whether that states an arity or not;
* names come in the order in which they were first stated with an arity.

`find?_extendCapabilities` and `names_extendCapabilities` are the step from one generation to the
next, and `find?_capabilitiesOf` and `names_capabilitiesOf` are about the whole line.  `Family` is
about environments that are defined one after the other: a definition leaves those before it as they
are.
-/

namespace GradingScript

namespace Environment

/-! ## The methods of one generation -/

/-- The arity that a generation states for a name. -/
def statedArity? (methods : List Method) (name : String) : Option Int :=
  (method? methods name).bind (·.arity?)

/-- The names that a generation states an arity for, in order. -/
def statedNames (methods : List Method) : List String :=
  (methods.map (·.name)).filter fun name => (statedArity? methods name).isSome

/-- The capability that a generation states under a name. -/
def stated? (methods : List Method) (name : String) : Option Capability :=
  (method? methods name).bind fun m => m.arity?.map fun arity => ⟨name, arity, m.handler⟩

theorem name_of_method? {methods : List Method} {name : String} {m : Method}
    (h : method? methods name = some m) : m.name = name := by
  have hname := List.find?_some h
  exact of_decide_eq_true hname

theorem name_of_stated? {methods : List Method} {name : String} {c : Capability}
    (h : stated? methods name = some c) : c.name = name := by
  obtain ⟨m, -, h⟩ := Option.bind_eq_some_iff.1 h
  obtain ⟨arity, -, rfl⟩ := Option.map_eq_some_iff.1 h
  rfl

theorem map_arity_stated? (methods : List Method) (name : String) :
    (stated? methods name).map (·.arity) = statedArity? methods name := by
  simp [stated?, statedArity?, Option.map_bind, Function.comp_def]

/-- What a generation states, it has a method for. -/
theorem mem_names_of_stated? {methods : List Method} {name : String} {c : Capability}
    (h : stated? methods name = some c) : name ∈ methods.map (·.name) := by
  obtain ⟨m, hm, -⟩ := Option.bind_eq_some_iff.1 h
  exact List.mem_map.2 ⟨m, List.mem_reverse.1 (List.mem_of_find?_eq_some hm), name_of_method? hm⟩

/-- A name has an arity in a generation just if it is one of the stated names. -/
theorem mem_statedNames {methods : List Method} {name : String} :
    name ∈ statedNames methods ↔ (statedArity? methods name).isSome = true := by
  rw [statedNames, List.mem_filter, and_iff_right_iff_imp, ← map_arity_stated?, Option.isSome_map]
  intro h
  obtain ⟨c, hc⟩ := Option.isSome_iff_exists.1 h
  exact mem_names_of_stated? hc

/-! ## From one generation to the next -/

/-- A table with what a generation states under a name. -/
def putStated (methods : List Method) (table : List Capability) (name : String) :
    List Capability :=
  match stated? methods name with
  | some c => putCapability c table
  | none => table

/-- An inherited capability with its newest handler. -/
def rebind (methods : List Method) (c : Capability) : Capability :=
  match method? methods c.name with
  | some method => { c with handler := method.handler }
  | none => c

@[simp] theorem name_rebind (methods : List Method) (c : Capability) :
    (rebind methods c).name = c.name := by
  unfold rebind
  split <;> rfl

/-- The inherited capabilities are bound anew, and then what is stated is put in, name by name. -/
theorem extendCapabilities_eq_foldl (inherited : List Capability) (methods : List Method) :
    extendCapabilities inherited methods =
      (methods.map (·.name)).foldl (putStated methods) (inherited.map (rebind methods)) := by
  rw [List.foldl_map]
  unfold extendCapabilities
  refine congrArg (fun f => List.foldl f _ methods) (funext fun table => funext fun own => ?_)
  cases hmethod : method? methods own.name with
  | none => simp [putStated, stated?, hmethod]
  | some m =>
      obtain ⟨name, arity?, handler⟩ := m
      obtain rfl : name = own.name := name_of_method? hmethod
      cases arity? <;> simp [putStated, stated?, hmethod]

theorem find?_putStated (methods : List Method) (table : List Capability) (first name : String) :
    (putStated methods table first).find? (·.name = name) =
      if first = name then (stated? methods name).or (table.find? (·.name = name))
      else table.find? (·.name = name) := by
  unfold putStated
  split
  · next c hc =>
      rw [find?_putCapability, name_of_stated? hc]
      split
      · next hname => rw [← hname, hc, Option.some_or]
      · rfl
  · next hnone =>
      split
      · next hname => rw [← hname, hnone, Option.none_or]
      · rfl

/-- The names that are put in stand for what is stated under them, and other names for what they
stood for. -/
theorem find?_foldl_putStated (methods : List Method) (name : String) (names : List String)
    (table : List Capability) :
    (names.foldl (putStated methods) table).find? (·.name = name) =
      if name ∈ names then (stated? methods name).or (table.find? (·.name = name))
      else table.find? (·.name = name) := by
  induction names generalizing table with
  | nil => rfl
  | cons first names ih =>
      rw [List.foldl_cons, ih, find?_putStated]
      by_cases hfirst : first = name
      · -- What is stated under the name counts once, however often it is put in.
        rw [if_pos hfirst, if_pos (List.mem_cons.2 (.inl hfirst.symm)), ← Option.or_assoc,
          Option.or_self, ite_self]
      · simp [hfirst, Ne.symm hfirst]

/-- A capability of a new environment is what its methods state, or else it is inherited, with the
newest handler. -/
theorem find?_extendCapabilities (inherited : List Capability) (methods : List Method)
    (name : String) :
    (extendCapabilities inherited methods).find? (·.name = name) =
      (stated? methods name).or ((inherited.find? (·.name = name)).map (rebind methods)) := by
  have hrebound : (inherited.map (rebind methods)).find? (·.name = name) =
      (inherited.find? (·.name = name)).map (rebind methods) := by
    have hname : (fun c : Capability => decide (c.name = name)) ∘ rebind methods =
        fun c => decide (c.name = name) :=
      funext fun c => congrArg (fun other => decide (other = name)) (name_rebind methods c)
    rw [List.find?_map, hname]
  rw [extendCapabilities_eq_foldl, find?_foldl_putStated, hrebound, ite_eq_left_iff]
  intro hname
  cases hstated : stated? methods name with
  | none => rfl
  | some c => exact absurd (mem_names_of_stated? hstated) hname

/-- A new name comes last, and one that is in the table keeps its place. -/
theorem names_putCapability (c : Capability) (table : List Capability) :
    (putCapability c table).map (·.name) =
      if c.name ∈ table.map (·.name) then table.map (·.name)
      else table.map (·.name) ++ [c.name] := by
  induction table with
  | nil => simp [putCapability]
  | cons old rest ih =>
      by_cases h : old.name = c.name
      · simp [putCapability, h]
      · simp only [putCapability, h, if_false, List.map_cons, List.mem_cons, Ne.symm h, false_or,
          ih]
        split <;> rfl

theorem names_foldl_putStated (methods : List Method) {before : List String} (names : List String)
    {table : List Capability} (h : table.map (·.name) = before.eraseDups) :
    (names.foldl (putStated methods) table).map (·.name) =
      (before ++ names.filter fun name => (statedArity? methods name).isSome).eraseDups := by
  induction names generalizing before table with
  | nil => simpa using h
  | cons first names ih =>
      rw [List.foldl_cons, List.filter_cons]
      cases hstated : stated? methods first with
      | none =>
          have hnone : (statedArity? methods first).isSome = false := by
            rw [← map_arity_stated?, hstated]
            rfl
          rw [if_neg (by simp [hnone])]
          exact ih (by rw [putStated, hstated, h])
      | some c =>
          have hsome : (statedArity? methods first).isSome = true := by
            rw [← map_arity_stated?, hstated]
            rfl
          have hput : (putStated methods table first).map (·.name) =
              (before ++ [first]).eraseDups := by
            rw [putStated, hstated, names_putCapability, name_of_stated? hstated, h,
              eraseDups_concat]
            simp only [List.mem_eraseDups]
          rw [if_pos hsome, ih hput, List.append_assoc, List.singleton_append]

/-- The names that a generation states come behind those that are inherited, unless they are among
them. -/
theorem names_extendCapabilities {inherited : List Capability} {before : List String}
    (h : inherited.map (·.name) = before.eraseDups) (methods : List Method) :
    (extendCapabilities inherited methods).map (·.name) =
      (before ++ statedNames methods).eraseDups := by
  rw [extendCapabilities_eq_foldl]
  refine names_foldl_putStated methods _ ?_
  rw [← h, List.map_map]
  exact List.map_congr_left fun c _ => name_rebind methods c

/-! ## The whole line -/

/-- The capabilities of an environment whose line has stated these methods, from the first
generation on. -/
def capabilitiesOf (generations : List (List Method)) : List Capability :=
  generations.foldl extendCapabilities []

theorem capabilitiesOf_concat (generations : List (List Method)) (methods : List Method) :
    capabilitiesOf (generations ++ [methods]) =
      extendCapabilities (capabilitiesOf generations) methods :=
  List.foldl_concat extendCapabilities [] methods generations

/-- The arity that was stated last for a name. -/
def lastArity? (generations : List (List Method)) (name : String) : Option Int :=
  (generations.filterMap (statedArity? · name)).getLast?

/-- The last method of a name. -/
def lastMethod? (generations : List (List Method)) (name : String) : Option Method :=
  (generations.filterMap (method? · name)).getLast?

/-- The names that were stated, in the order in which they first were. -/
def offeredNames (generations : List (List Method)) : List String :=
  (generations.flatMap statedNames).eraseDups

/-- What the last generation states counts before what was stated earlier. -/
theorem lastArity?_concat (generations : List (List Method)) (methods : List Method)
    (name : String) : lastArity? (generations ++ [methods]) name =
      (statedArity? methods name).or (lastArity? generations name) := by
  rw [lastArity?, List.filterMap_append, List.getLast?_append]
  cases h : statedArity? methods name <;> simp [h, lastArity?]

theorem lastMethod?_concat (generations : List (List Method)) (methods : List Method)
    (name : String) : lastMethod? (generations ++ [methods]) name =
      (method? methods name).or (lastMethod? generations name) := by
  rw [lastMethod?, List.filterMap_append, List.getLast?_append]
  cases h : method? methods name <;> simp [h, lastMethod?]

/-- A name with an arity has a method. -/
theorem exists_lastMethod? {generations : List (List Method)} {name : String} {arity : Int}
    (h : lastArity? generations name = some arity) :
    ∃ m, lastMethod? generations name = some m := by
  obtain ⟨methods, hmethods, harity⟩ := List.mem_filterMap.1 (List.mem_of_getLast? h)
  obtain ⟨m, hm, -⟩ := Option.bind_eq_some_iff.1 harity
  refine Option.isSome_iff_exists.1 (List.getLast?_isSome.2 ?_)
  exact List.ne_nil_of_mem (List.mem_filterMap.2 ⟨methods, hmethods, hm⟩)

/-- The capability of a name has the arity that was stated last, and the handler of the last
method. -/
theorem find?_capabilitiesOf (generations : List (List Method)) (name : String) :
    (capabilitiesOf generations).find? (·.name = name) =
      (lastArity? generations name).bind fun arity =>
        (lastMethod? generations name).map fun m => ⟨name, arity, m.handler⟩ := by
  -- From the last generation back: what it states is newer than all that is inherited.
  induction generations using List.reverseRecOn with
  | nil => rfl
  | append_singleton generations methods ih =>
      rw [capabilitiesOf_concat, find?_extendCapabilities, ih, lastArity?_concat,
        lastMethod?_concat, stated?, statedArity?]
      cases hmethod : method? methods name with
      | none => simp [Option.map_bind, Function.comp_def, rebind, hmethod]
      | some m =>
          cases harity : m.arity? with
          | some arity => simp [harity]
          | none =>
              -- The method has no arity, so only the handler is new.
              cases hlast : lastArity? generations name with
              | none => simp [harity]
              | some arity =>
                  obtain ⟨m', hm'⟩ := exists_lastMethod? hlast
                  simp [harity, hm', rebind, hmethod]

theorem names_capabilitiesOf (generations : List (List Method)) :
    (capabilitiesOf generations).map (·.name) = offeredNames generations := by
  induction generations using List.reverseRecOn with
  | nil => rfl
  | append_singleton generations methods ih =>
      rw [capabilitiesOf_concat, offeredNames, List.flatMap_append, List.flatMap_singleton]
      exact names_extendCapabilities ih methods

/-- What an environment offers follows from what the generations of its line have stated. -/
structure OffersStated (e : Environment) (generations : List (List Method)) : Prop where
  /-- A name is offered if some generation has stated an arity for it. -/
  offers_iff : ∀ name, name ∈ e.commandNames ↔
    ∃ methods ∈ generations, (statedArity? methods name).isSome = true
  commandNames_eq : e.commandNames = offeredNames generations
  commandNames_nodup : e.commandNames.Nodup
  arityOf?_eq : ∀ name, e.arityOf? name = lastArity? generations name
  /-- The last method of a name is its handler, and it is run if there are as many arguments as were
  stated last. -/
  handler : ∀ name arity, lastArity? generations name = some arity →
    ∃ m, lastMethod? generations name = some m ∧
      e.capability? name = some ⟨name, arity, m.handler⟩ ∧
      ∀ args : List String, arity = args.length → e.invoke name args = m.handler args
  undefined : ∀ name (args : List String), lastArity? generations name ≠ some (args.length : Int) →
    e.invoke name args = .error ⟨"undefined function: ", name⟩

/-- It does so if its table is the one of the line. -/
theorem offersStated_of_capabilities {e : Environment} {generations : List (List Method)}
    (h : e.capabilities = capabilitiesOf generations) : e.OffersStated generations := by
  have hnames : e.commandNames = offeredNames generations := by
    rw [commandNames, h, names_capabilitiesOf]
  have hcapability (name : String) : e.capability? name =
      (lastArity? generations name).bind fun arity =>
        (lastMethod? generations name).map fun m => ⟨name, arity, m.handler⟩ := by
    rw [capability?, h, find?_capabilitiesOf]
  have hfound {name : String} {arity : Int} (harity : lastArity? generations name = some arity) :
      ∃ m, lastMethod? generations name = some m ∧
        e.capability? name = some ⟨name, arity, m.handler⟩ := by
    obtain ⟨m, hm⟩ := exists_lastMethod? harity
    exact ⟨m, hm, by rw [hcapability, harity, hm]; rfl⟩
  refine ⟨fun name => ?_, hnames, hnames ▸ nodup_eraseDups _, fun name => ?_, ?_, ?_⟩
  · simp only [hnames, offeredNames, List.mem_eraseDups, List.mem_flatMap, mem_statedNames]
  · cases harity : lastArity? generations name with
    | none => rw [arityOf?, hcapability, harity]; rfl
    | some arity =>
        obtain ⟨m, -, hc⟩ := hfound harity
        rw [arityOf?, hc]
        rfl
  · intro name arity harity
    obtain ⟨m, hm, hc⟩ := hfound harity
    refine ⟨m, hm, hc, fun args hargs => ?_⟩
    simp only [invoke, hc, if_pos hargs]
  · intro name args hargs
    cases harity : lastArity? generations name with
    | none =>
        simp only [invoke, hcapability, harity]
        rfl
    | some arity =>
        obtain ⟨m, -, hc⟩ := hfound harity
        simp only [invoke, hc]
        rw [if_neg fun hcount => hargs (harity.trans (congrArg some hcount))]
        rfl

/-- A capability as the method that states it. -/
def methodOf (c : Capability) : Method :=
  ⟨c.name, some c.arity, c.handler⟩

end Environment

/-! ## Lines of environments -/

/-- Where an environment comes from. -/
inductive Lineage where
  | base
  | custom
  | elixir
  | java
  | extension (parent : Lineage) (x : Extension)

namespace Lineage

open Environment

/-- The environment at the end of a line. -/
def environment : Lineage → Environment
  | .base => .base
  | .custom => .custom
  | .elixir => .elixir
  | .java => .java
  | .extension parent x => parent.environment.extend x

/-- The methods that each generation of a line states, from the first on.  The built-in environments
are the first generation. -/
def generations : Lineage → List (List Method)
  | .base => []
  | .custom | .java => [[]]
  | .elixir => [[mixFormat, mixHelp, createProject, testProject].map methodOf]
  | .extension parent x => parent.generations ++ [x.methods]

/-- The methods of a line decide the capabilities of the environment at its end. -/
theorem capabilities_eq (l : Lineage) :
    l.environment.capabilities = capabilitiesOf l.generations := by
  induction l with
  | base => rfl
  | custom => rfl
  | elixir => rfl
  | java => rfl
  | extension parent x ih =>
      rw [generations, capabilitiesOf_concat, ← ih]
      rfl

end Lineage

/-- Environments in the order in which they were defined. -/
abbrev Family := List Lineage

namespace Family

/-- The environments that there are before any definition. -/
def builtin : Family :=
  [.base, .custom, .elixir, .java]

/-- A definition: the place of the environment that is extended, and what is different. -/
structure Definition where
  parent : Nat
  extension : Extension

/-- A family with one more environment. -/
def define (f : Family) (d : Definition) : Family :=
  match f[d.parent]? with
  | some parent => f ++ [.extension parent d.extension]
  | none => f

theorem prefix_define (f : Family) (d : Definition) : f <+: f.define d := by
  unfold define
  split
  · exact List.prefix_append f _
  · exact List.prefix_rfl

/-- All that are defined later come behind. -/
theorem prefix_foldl_define (f : Family) (ds : List Definition) : f <+: ds.foldl define f := by
  induction ds generalizing f with
  | nil => exact List.prefix_rfl
  | cons d ds ih => exact (f.prefix_define d).trans (ih (f.define d))

/-- An environment of a family offers what its line has stated, and whatever is defined later leaves
it as it is. -/
theorem offersStated {f : Family} (place : Nat) {l : Lineage} (h : f[place]? = some l)
    (later : List Definition) :
    l.environment.OffersStated l.generations ∧ (later.foldl define f)[place]? = some l := by
  refine ⟨Environment.offersStated_of_capabilities l.capabilities_eq, ?_⟩
  obtain ⟨defined, hdefined⟩ := f.prefix_foldl_define later
  have hplace : place < f.length := (List.getElem?_eq_some_iff.1 h).1
  rw [← hdefined, List.getElem?_append_left hplace, h]

/-- The second extension states `help` with another arity, and `format` without one; the first,
which the second extends, still has the `help` of no arguments. -/
theorem offersStated_redefined_help :
    let run (command : String) : List String → Except Rejection Command :=
      fun args => .ok (Environment.shell (" ".intercalate (command :: args)))
    let loud : Definition := ⟨2, ⟨"Loud", some "loud", none, none, [], none,
      [⟨"deploy", some 2, run "deploy"⟩, ⟨"help", none, run "help --verbose"⟩]⟩⟩
    let terse : Definition := ⟨4, ⟨"Terse", some "terse", none, none, [], none,
      [⟨"help", some 1, run "help --topic"⟩, ⟨"format", none, run "format --check"⟩]⟩⟩
    let f : Family := [loud, terse].foldl define builtin
    ∃ l, f[5]? = some l ∧
      l.environment.commandNames = ["format", "help", "create_project", "test", "deploy"] ∧
      l.environment.invoke "help" ["test"] = .ok ⟨"run", ["help --topic test"]⟩ ∧
      l.environment.invoke "format" ["a.ex"] = .ok ⟨"run", ["format --check a.ex"]⟩ ∧
      l.environment.invoke "help" [] = .error ⟨"undefined function: ", "help"⟩ ∧
      ∃ l', f[4]? = some l' ∧
        l'.environment.invoke "help" [] = .ok ⟨"run", ["help --verbose"]⟩ := by
  intro run loud terse f
  obtain ⟨hterse, -⟩ := offersStated (f := f) 5 rfl []
  obtain ⟨hloud, hkept⟩ := offersStated (f := [loud].foldl define builtin) 4 rfl [terse]
  refine ⟨_, rfl, hterse.commandNames_eq.trans (by decide), ?_, ?_, ?_, _, hkept, ?_⟩
  · obtain ⟨m, hm, -, hinvoke⟩ := hterse.handler "help" 1 (by decide)
    cases hm
    exact hinvoke ["test"] rfl
  · obtain ⟨m, hm, -, hinvoke⟩ := hterse.handler "format" 1 (by decide)
    cases hm
    exact hinvoke ["a.ex"] rfl
  · exact hterse.undefined "help" [] (by decide)
  · obtain ⟨m, hm, -, hinvoke⟩ := hloud.handler "help" 0 (by decide)
    cases hm
    exact hinvoke [] rfl

end Family

end GradingScript
