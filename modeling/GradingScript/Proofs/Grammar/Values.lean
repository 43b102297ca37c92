import GradingScript.Proofs.Grammar.Basic
import GradingScript.Proofs.Term.Value

/-!
# What stands in statements

Where the grammar asks for a value or for arguments, a derivation puts the data of tokens together.
So an inherited property of the data of tokens is one of all that stands in the statements that they
spell, and in the statements of their blocks.  In particular no statement is ever an argument.
-/

namespace GradingScript

namespace Term

/-- The arguments of a statement, or the value that it assigns. -/
def operands : Term → List Term
  | .directive _ _ args | .call _ _ args => args
  | .assignment _ value _ => [value]
  | _ => []

/-- The statements of a block. -/
def children : Term → List Term
  | .block _ _ children _ => children
  | _ => []

theorem numbers_of_mem_operands {t v : Term} (hv : v ∈ t.operands) {n : Number}
    (hn : n ∈ v.numbers) : n ∈ t.numbers := by
  cases t with
  | directive name line args => simpa [numbers] using ⟨v, hv, hn⟩
  | call name line args => simpa [numbers] using ⟨v, hv, hn⟩
  | assignment name value line =>
      obtain rfl := List.mem_singleton.1 hv
      simpa [numbers] using hn
  | _ => cases hv

/-- What stands in a statement has a property, and so has what stands in the statements of a
block. -/
structure Carries (P : Term → Prop) (t : Term) : Prop where
  operands : ∀ v ∈ t.operands, P v
  children : ∀ child ∈ t.children, ∀ v ∈ child.operands, P v

/-- What stands in a statement are values, and so it is in the statements of a block. -/
abbrev HasValues (t : Term) : Prop :=
  t.Carries fun v => v.isValue = true

end Term

/-- The datum of a lexeme, if it stands for one, has a property. -/
def Lexeme.Holds (P : Term → Prop) : Lexeme → Prop
  | .literal _ value => P value
  | _ => True

/-- A datum that is of the kind that its lexeme says has an inherited property, if booleans have it
and the number that it may be has it. -/
theorem Lexeme.holds_of_isTyped {P : Term → Prop} (hP : Term.Inherited P)
    (hbool : ∀ value, P (.bool value)) {l : Lexeme} (h : l.isTyped = true)
    (hnumber : ∀ value, l = .ofNumber value → P (.number value)) : l.Holds P := by
  cases l with
  | literal kind value =>
      cases kind <;> cases value <;> simp [isTyped, LiteralKind.admits] at h
      · exact hP.string _
      · exact hnumber _ rfl
      · exact hbool _
      · exact hbool _
      · exact hP.nil
  | _ => trivial

theorem Lexeme.holds_isValue {l : Lexeme} (h : l.isTyped = true) :
    l.Holds fun v => v.isValue = true :=
  holds_of_isTyped Term.inherited_isValue (fun _ => rfl) h fun _ _ => rfl

namespace Grammar

open Term

variable {P : Term → Prop}

mutual

theorem Value.holds (hP : Inherited P) (hneg : Negatable P) {ts : List Token} {value : Term}
    (h : Value ts value) (hts : ∀ t ∈ ts, t.lexeme.Holds P) : P value := by
  cases h with
  | @literal t kind value ht =>
      have hvalue := hts t (by simp)
      rw [ht] at hvalue
      exact hP.literal.2 hvalue
  | @negative minus t value negated hminus ht hnegated =>
      have hvalue := hts t (by simp)
      rw [ht] at hvalue
      exact hP.literal.2 (hneg value negated hvalue hnegated)
  | atom => exact hP.atom _ _
  | name => exact hP.identifier _ _
  | @list opening closing ts items hopening hitems hclosing =>
      exact hP.listNode.2 (hitems.holds hP hneg fun t ht => hts t (by simp [ht]))
termination_by 4 * ts.length + 0

theorem Argument.holds (hP : Inherited P) (hneg : Negatable P) {ts : List Token} {arg : Term}
    (h : Argument ts arg) (hts : ∀ t ∈ ts, t.lexeme.Holds P) : P arg := by
  cases h with
  | keyword ht hvalue =>
      exact hP.keyword.2 (hvalue.holds hP hneg fun u hu => hts u (by simp [hu]))
  | value hvalue => exact hvalue.holds hP hneg hts
termination_by 4 * ts.length + 1

theorem Items.holds (hP : Inherited P) (hneg : Negatable P) {ts : List Token} {args : List Term}
    (h : Items ts args) (hts : ∀ t ∈ ts, t.lexeme.Holds P) : ∀ arg ∈ args, P arg := by
  cases h with
  | one harg hnls => simpa using harg.holds hP hneg fun t ht => hts t (by simp [ht])
  | more hargs hcomma hnls harg hnls' =>
      have hbefore := hargs.holds hP hneg fun t ht => hts t (by simp [ht])
      have hlast := harg.holds hP hneg fun t ht => hts t (by simp [ht])
      exact List.forall_mem_append.2 ⟨hbefore, by simpa using hlast⟩
termination_by 4 * ts.length + 2

theorem Enclosed.holds (hP : Inherited P) (hneg : Negatable P) {ts : List Token}
    {args : List Term} (h : Enclosed ts args) (hts : ∀ t ∈ ts, t.lexeme.Holds P) :
    ∀ arg ∈ args, P arg := by
  cases h with
  | empty => simp
  | items hnls hargs => exact hargs.holds hP hneg fun t ht => hts t (by simp [ht])
  | trailing hnls hargs => exact hargs.holds hP hneg fun t ht => hts t (by simp [ht])
termination_by 4 * ts.length + 3

end

theorem Bare.holds (hP : Inherited P) (hneg : Negatable P) {ts : List Token} {args : List Term}
    (h : Bare ts args) (hts : ∀ t ∈ ts, t.lexeme.Holds P) : ∀ arg ∈ args, P arg := by
  induction h with
  | one harg => simpa using harg.holds hP hneg hts
  | more hargs hcomma hnls harg ih =>
      have hbefore := ih fun t ht => hts t (by simp [ht])
      have hlast := harg.holds hP hneg fun t ht => hts t (by simp [ht])
      exact List.forall_mem_append.2 ⟨hbefore, by simpa using hlast⟩

theorem Arguments.holds (hP : Inherited P) (hneg : Negatable P) {ts : List Token}
    {args : List Term} (h : Arguments ts args) (hts : ∀ t ∈ ts, t.lexeme.Holds P) :
    ∀ arg ∈ args, P arg := by
  cases h with
  | none => simp
  | parens hopening hargs => exact hargs.holds hP hneg fun t ht => hts t (by simp [ht])
  | bare hargs => exact hargs.holds hP hneg hts

/-! ## Statements -/

/-- A statement among others is spelled by some of their tokens. -/
theorem Lines.exists_statement {ts : List Token} {statements : List Term}
    (h : Lines ts statements) :
    ∀ statement ∈ statements, ∃ us, us ⊆ ts ∧ Statement us statement := by
  cases h with
  | one hstatement => simpa using ⟨ts, List.Subset.refl ts, hstatement⟩
  | @more ts nls us statements last hlines hnls hne hstatement =>
      have hpos : 0 < nls.length := List.length_pos_iff.2 hne
      have hbefore := hlines.exists_statement
      intro statement hmem
      rcases List.mem_append.1 hmem with hmem | hmem
      · obtain ⟨vs, hvs, hstatement⟩ := hbefore statement hmem
        refine ⟨vs, fun t ht => ?_, hstatement⟩
        simp [hvs ht]
      · obtain rfl := List.mem_singleton.1 hmem
        exact ⟨us, List.subset_append_right _ _, hstatement⟩
termination_by ts.length

theorem Body.exists_statement {ts : List Token} {statements : List Term}
    (h : Body ts statements) :
    ∀ statement ∈ statements, ∃ us, us ⊆ ts ∧ Statement us statement := by
  cases h with
  | empty hnls => simp
  | lines hnls hlines hnls' =>
      intro statement hmem
      obtain ⟨us, hus, hstatement⟩ := hlines.exists_statement statement hmem
      refine ⟨us, fun t ht => ?_, hstatement⟩
      simp [hus ht]

theorem Spells.exists_statement {ts : List Token} {script : Script} (h : Spells ts script) :
    ∀ statement ∈ script, ∃ us, us ⊆ ts ∧ Statement us statement := by
  cases h with
  | @mk ts eof _ hbody heof =>
      intro statement hmem
      obtain ⟨us, hus, hstatement⟩ := hbody.exists_statement statement hmem
      exact ⟨us, List.Subset.trans hus (List.subset_append_left ts [eof]), hstatement⟩

/-- The keyword of a block is a name. -/
theorem Statement.exists_name_of_block {ts : List Token} {label keyword : String} {line : Int}
    {children : List Term} (h : Statement ts (.block label line children keyword)) :
    ∃ t ∈ ts, t.lexeme = .name keyword := by
  cases h with
  | @block name _ _ _ _ _ _ _ _ hname => exact ⟨name, by simp, hname⟩
  | value hvalue => cases hvalue

theorem Statement.holds_operands (hP : Inherited P) (hneg : Negatable P) {ts : List Token}
    {statement : Term} (h : Statement ts statement) (hts : ∀ t ∈ ts, t.lexeme.Holds P) :
    ∀ v ∈ statement.operands, P v := by
  cases h with
  | directive hat hname hargs => exact hargs.holds hP hneg fun t ht => hts t (by simp [ht])
  | assignment hname hequals hvalue =>
      simpa [Term.operands] using hvalue.holds hP hneg fun t ht => hts t (by simp [ht])
  | call hname hargs => exact hargs.holds hP hneg fun t ht => hts t (by simp [ht])
  | block => simp [Term.operands]
  | value hvalue => cases hvalue <;> simp [Term.operands]

theorem Statement.carries (hP : Inherited P) (hneg : Negatable P) {ts : List Token}
    {statement : Term} (h : Statement ts statement) (hts : ∀ t ∈ ts, t.lexeme.Holds P) :
    statement.Carries P := by
  refine ⟨h.holds_operands hP hneg hts, fun child hchild => ?_⟩
  cases h with
  | block hname hlabel hopening hchildren =>
      obtain ⟨us, hus, hstatement⟩ := hchildren.exists_statement child hchild
      exact hstatement.holds_operands hP hneg fun t ht => hts t (by simp [hus ht])
  | value hvalue => cases hvalue <;> cases hchild
  | directive => cases hchild
  | assignment => cases hchild
  | call => cases hchild

/-- What stands in the statements of a script has every inherited property of the data of its
tokens. -/
theorem Spells.carries (hP : Inherited P) (hneg : Negatable P) {ts : List Token} {script : Script}
    (h : Spells ts script) (hts : ∀ t ∈ ts, t.lexeme.Holds P) : ∀ t ∈ script, t.Carries P := by
  intro t ht
  obtain ⟨us, hus, hstatement⟩ := h.exists_statement t ht
  exact hstatement.carries hP hneg fun u hu => hts u (hus hu)

/-- What stands in the statements of a script are values. -/
theorem Spells.hasValues {ts : List Token} {script : Script} (h : Spells ts script)
    (htyped : ∀ t ∈ ts, t.lexeme.isTyped = true) : ∀ t ∈ script, t.HasValues :=
  h.carries inherited_isValue negatable_isValue fun t ht => Lexeme.holds_isValue (htyped t ht)

end Grammar

end GradingScript
