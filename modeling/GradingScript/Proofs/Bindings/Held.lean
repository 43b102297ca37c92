import GradingScript.Bindings
import GradingScript.Proofs.Term.Writable

/-!
# What variables hold

If all variables are bound to terms with an inherited property, then what a term with the property
is resolved to has it too; and if they are bound to terms that can be written, then every term has a
value.
-/

namespace GradingScript.Bindings

open Term

variable {P : Term → Prop}

/-- All variables are bound to terms with a property. -/
def Hold (P : Term → Prop) (b : Bindings) : Prop :=
  ∀ name value, b.get? name = some value → P value

theorem hold_empty (P : Term → Prop) : empty.Hold P := by
  intro name value h
  cases h

variable {b : Bindings}

theorem Hold.imp {Q : Term → Prop} (h : b.Hold P) (hPQ : ∀ t, P t → Q t) : b.Hold Q :=
  fun name value hvalue => hPQ value (h name value hvalue)

theorem Hold.bind_plain (h : b.Hold P) (name : String) {value : Term} (hvalue : P value.plain) :
    (b.bind name value).Hold P := by
  intro other v hother
  rw [get?_bind] at hother
  split at hother
  · cases hother
    exact hvalue
  · exact h other v hother

theorem Hold.bind (hP : Inherited P) (h : b.Hold P) (name : String) {value : Term}
    (hvalue : P value) : (b.bind name value).Hold P :=
  h.bind_plain name (hP.plain hvalue)

/-- A name stands for the term that it is bound to, or for nil. -/
theorem Hold.getD (hP : Inherited P) (h : b.Hold P) (name : String) :
    P ((b.get? name).getD .nil) := by
  cases hvalue : b.get? name with
  | none => exact hP.nil
  | some value => exact h name value hvalue

mutual

theorem Hold.resolve (hP : Inherited P) (h : b.Hold P) {t v : Term} (ht : P t)
    (hv : b.resolve t = .ok v) : P v := by
  cases t with
  | identifier name line =>
      rw [Bindings.resolve, Written.pure_eq_ok] at hv
      exact hv ▸ h.getD hP name
  | string text =>
      rw [Bindings.resolve, Written.bind_eq_ok] at hv
      obtain ⟨text', -, hv⟩ := hv
      cases hv
      exact hP.string text'
  | list items =>
      rw [Bindings.resolve, Written.bind_eq_ok] at hv
      obtain ⟨values, hvalues, hv⟩ := hv
      cases hv
      exact hP.list.2 (h.resolveAll hP (hP.list.1 ht) hvalues)
  | _ => exact Written.pure_eq_ok.1 hv ▸ ht

theorem Hold.resolveAll (hP : Inherited P) (h : b.Hold P) {ts vs : List Term}
    (hts : ∀ t ∈ ts, P t) (hvs : b.resolveAll ts = .ok vs) : ∀ v ∈ vs, P v := by
  cases ts with
  | nil =>
      rw [Bindings.resolveAll, Written.pure_eq_ok] at hvs
      subst hvs
      simp
  | cons t ts =>
      rw [Bindings.resolveAll, Written.bind_eq_ok] at hvs
      obtain ⟨v, hv, hvs⟩ := hvs
      obtain ⟨us, hus, hvs⟩ := Written.bind_eq_ok.1 hvs
      cases hvs
      rw [List.forall_mem_cons] at hts ⊢
      exact ⟨h.resolve hP hts.1 hv, h.resolveAll hP hts.2 hus⟩

end

/-!
## Variables that can be written

Substitution writes what variables are bound to, and nothing else.  So with variables that can be
written it gives a text, and every term has a value.
-/

theorem exists_replacement (h : b.Hold HasText) (name : List Char) :
    ∃ cs, b.replacement name = .ok cs := by
  unfold replacement
  split
  · next value hvalue =>
      exact Written.exists_bind (h _ value hvalue) fun text _ => ⟨_, rfl⟩
  · exact ⟨_, rfl⟩

theorem exists_substituteChars (h : b.Hold HasText) (cs : List Char) :
    ∃ ds, b.substituteChars cs = .ok ds := by
  fun_induction substituteChars b cs with
  | case1 => exact ⟨[], rfl⟩
  | case2 c cs hplaceholder ih =>
      exact Written.exists_bind (exists_replacement h _) fun first _ =>
        Written.exists_bind ih fun behind _ => ⟨_, rfl⟩
  | case3 c cs hplain ih => exact Written.exists_bind ih fun behind _ => ⟨_, rfl⟩

mutual

theorem exists_resolve (h : b.Hold HasText) (t : Term) : ∃ v, b.resolve t = .ok v := by
  cases t with
  | string text =>
      rw [resolve, substitute]
      exact Written.exists_bind
        (Written.exists_bind (exists_substituteChars h text.toList) fun cs _ => ⟨_, rfl⟩)
        fun text' _ => ⟨_, rfl⟩
  | list items =>
      rw [resolve]
      exact Written.exists_bind (exists_resolveAll h items) fun values _ => ⟨_, rfl⟩
  | _ => exact ⟨_, rfl⟩

theorem exists_resolveAll (h : b.Hold HasText) (ts : List Term) :
    ∃ vs, b.resolveAll ts = .ok vs := by
  cases ts with
  | nil => exact ⟨[], rfl⟩
  | cons t ts =>
      rw [resolveAll]
      exact Written.exists_bind (exists_resolve h t) fun v _ =>
        Written.exists_bind (exists_resolveAll h ts) fun vs _ => ⟨_, rfl⟩

end

end GradingScript.Bindings
