import GradingScript.Proofs.Compile.Frame

/-!
# Dead assignments

An assignment of a name that no statement behind it mentions can be deleted.  With it and without
it, the statements behind it are compiled with variables that agree on every other name, and they
ask for no more.  What the other variables are bound to may mention the name, since it is not looked
at again.
-/

namespace GradingScript

open Compile

namespace Bindings

/-- Two sets of variables agree on all names but one. -/
def AgreeOff (name : String) (b b' : Bindings) : Prop :=
  ∀ other, other ≠ name → b.get? other = b'.get? other

variable {name : String} {b b' : Bindings}

theorem agreeOff_bind (b : Bindings) (name : String) (value : Term) :
    (b.bind name value).AgreeOff name b := by
  intro other hother
  rw [get?_bind, if_neg (Ne.symm hother)]

theorem AgreeOff.agreeOn {t : Term} (h : b.AgreeOff name b') (ht : ¬ t.Mentions name) :
    b.AgreeOn b' t := by
  intro other hother
  refine h other ?_
  rintro rfl
  exact ht hother

/-- The same statement keeps the variables in agreement, also if it assigns the name anew. -/
theorem AgreeOff.after (h : b.AgreeOff name b') (t : Term) :
    (b.after t).AgreeOff name (b'.after t) := by
  cases t with
  | assignment target value line =>
      intro other hother
      rw [Bindings.after, Bindings.after, get?_bind, get?_bind, h other hother]
  | _ => exact h

end Bindings

namespace Compile.State

/-- What statements build does not depend on a name that they do not mention. -/
theorem ofState_statements_given {catalogue : Catalogue} {name : String} {b : Bindings} {s : State}
    (hb : b.AgreeOff name s.bindings) {script : Script}
    (hscript : ∀ t ∈ script, ¬ t.Mentions name) :
    Outcome.ofState <$> (s.given b []).statements catalogue script =
      Outcome.ofState <$> s.statements catalogue script := by
  induction script generalizing s b with
  | nil => rfl
  | cons t script ih =>
      have hstep : (s.given b []).statement catalogue t =
          given (b.after t) [] <$> s.statement catalogue t :=
        statement_given [] (hb.agreeOn (hscript t (by simp)))
      rw [statements_cons, statements_cons, hstep, bind_map_left]
      cases hstatement : s.statement catalogue t with
      | error e => rfl
      | ok u =>
          have hbehind : (b.after t).AgreeOff name u.bindings := by
            rw [bindings_of_statement hstatement]
            exact hb.after t
          exact ih hbehind fun t ht => hscript t (by simp [ht])

end Compile.State

/-- An assignment of a name that nothing behind it mentions can be deleted, whatever is assigned
and whatever stands before it. -/
theorem compile_dead_assignment {ys : Script} {name : String}
    (hys : ∀ t ∈ ys, ¬ t.Mentions name) (catalogue : Catalogue) (xs : Script) (value : Term)
    (line : Int) :
    compile catalogue (xs ++ .assignment name value line :: ys) = compile catalogue (xs ++ ys) := by
  have hcompile (script : Script) : compile catalogue script =
      Outcome.ofState <$> State.empty.statements catalogue script := by simp [compile]
  rw [hcompile, hcompile, State.statements_append, State.statements_append, map_bind, map_bind]
  refine bind_congr fun s => ?_
  exact State.ofState_statements_given (Bindings.agreeOff_bind s.bindings name value) hys

/-- The step asks for a variable whose value has a placeholder of the name, and for one whose value
is the name; neither value is looked at again, and the longer word is another name. -/
theorem compile_dead_assignment_chain :
    let xs : Script := [.assignment "a" (.literal (.string "%n") 1) 1,
      .assignment "b" (.identifier "n" 2) 2]
    let ys : Script := [.assignment "n" (.literal .nil 4) 4,
      .block "s" 5 [.call "run" 6 [.literal (.string "%a %nn") 6],
        .call "print" 7 [.identifier "b" 7]] "step"]
    (∀ t ∈ ys, ¬ t.Mentions "n") ∧
      compile .standard (xs ++ .assignment "n" (.literal (.string "x") 3) 3 :: ys) =
        .ok ⟨none, [⟨7, "invalid argument: ", "n", ""⟩],
          some ⟨none, none, [], [], none, false, [⟨"s", [⟨"run", ["%n %nn"]⟩]⟩],
            [⟨7, "invalid argument: ", "n", ""⟩]⟩⟩ := by
  intro xs ys
  have htext : ¬ Text.HasPlaceholder ['n'] ['%', 'a', ' ', '%', 'n', 'n'] := by
    rw [Text.hasPlaceholder_iff]
    rintro ⟨rest, hrest, hword, -⟩
    have hplaces : rest = ['a', ' ', '%', 'n', 'n'] ∨ rest = ['n', 'n'] := by
      simpa [List.suffix_cons_iff] using hrest
    rcases hplaces with rfl | rfl <;> revert hword <;> decide +kernel
  have hys : ∀ t ∈ ys, ¬ t.Mentions "n" := by
    simpa [ys, Term.Mentions] using htext
  exact ⟨hys, (compile_dead_assignment hys .standard xs _ 3).trans (by decide +kernel)⟩

end GradingScript
