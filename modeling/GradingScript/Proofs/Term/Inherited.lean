import GradingScript.Term.Basic

/-!
# Properties of what stands in a term

Some properties of a term are those of everything that stands in it: that there is no statement
among it, or that no number in it is of some kind.  The compilation takes terms apart and puts data
together, but finds no new data, so a property of all terms of a script becomes one of all terms
that the compilation comes to.

* `Inherited` says of a property that a literal, a list or an argument with a key has it just when
  what stands in it does.
* `numbers` are the numbers in a term, and what holds of all of them is inherited.
-/

namespace GradingScript.Term

/-- A property of strings, names and nil that other terms have just when what stands in them
does.  It says nothing about numbers, booleans and statements. -/
structure Inherited (P : Term → Prop) : Prop where
  nil : P .nil
  string (text : String) : P (.string text)
  identifier (name : String) (line : Int) : P (.identifier name line)
  atom (name : String) (line : Int) : P (.atom name line)
  literal {value : Term} {line : Int} : P (.literal value line) ↔ P value
  keyword {key : String} {value : Term} {line : Int} : P (.keyword key value line) ↔ P value
  list {items : List Term} : P (.list items) ↔ ∀ t ∈ items, P t
  listNode {items : List Term} {line : Int} : P (.listNode items line) ↔ ∀ t ∈ items, P t

/-- A property that the negative of a datum has if the datum does. -/
def Negatable (P : Term → Prop) : Prop :=
  ∀ value negated, P value → value.neg? = some negated → P negated

theorem inherited_true : Inherited fun _ => True := by
  constructor <;> simp

namespace Inherited

variable {P Q : Term → Prop}

theorem and (hP : Inherited P) (hQ : Inherited Q) : Inherited fun t => P t ∧ Q t where
  nil := ⟨hP.nil, hQ.nil⟩
  string text := ⟨hP.string text, hQ.string text⟩
  identifier name line := ⟨hP.identifier name line, hQ.identifier name line⟩
  atom name line := ⟨hP.atom name line, hQ.atom name line⟩
  literal := and_congr hP.literal hQ.literal
  keyword := and_congr hP.keyword hQ.keyword
  list := by
    intro items
    rw [hP.list, hQ.list]
    simp only [imp_and, forall_and]
  listNode := by
    intro items line
    rw [hP.listNode, hQ.listNode]
    simp only [imp_and, forall_and]

mutual

/-- The datum that a term stands for is found in it. -/
theorem plain (hP : Inherited P) {t : Term} (h : P t) : P t.plain := by
  cases t with
  | literal value line =>
      rw [plain_literal]
      exact hP.literal.1 h
  | listNode items line =>
      rw [plain_listNode, hP.list]
      exact hP.plainAll (hP.listNode.1 h)
  | _ => simpa [Term.plain] using h

theorem plainAll (hP : Inherited P) {ts : List Term} (h : ∀ t ∈ ts, P t) :
    ∀ t ∈ ts.map Term.plain, P t := by
  cases ts with
  | nil => simp
  | cons t ts =>
      rw [List.forall_mem_cons] at h
      rw [List.map_cons, List.forall_mem_cons]
      exact ⟨hP.plain h.1, hP.plainAll h.2⟩

end

end Inherited

/-! ## Numbers -/

mutual

/-- The numbers in a term, at any depth, in order. -/
def numbers : Term → List Number
  | .number value => [value]
  | .literal value _ | .keyword _ value _ | .assignment _ value _ => value.numbers
  | .list ts | .listNode ts _ | .directive _ _ ts | .call _ _ ts | .block _ _ ts _ =>
      numbersOfAll ts
  | .nil | .bool _ | .string _ | .identifier .. | .atom .. => []

/-- The numbers in the terms of a list. -/
def numbersOfAll : List Term → List Number
  | [] => []
  | t :: ts => t.numbers ++ numbersOfAll ts

end

@[simp] theorem numbersOfAll_eq_flatMap (ts : List Term) :
    numbersOfAll ts = ts.flatMap numbers := by
  induction ts with
  | nil => rfl
  | cons t ts ih => simp [numbersOfAll, ih]

/-- What holds of all numbers in a term. -/
def HasNumbers (p : Number → Prop) (t : Term) : Prop :=
  ∀ n ∈ t.numbers, p n

variable {p : Number → Prop}

theorem hasNumbers_flatMap {ts : List Term} :
    (∀ n ∈ ts.flatMap numbers, p n) ↔ ∀ t ∈ ts, HasNumbers p t := by
  simp only [List.mem_flatMap, HasNumbers]
  exact ⟨fun h t ht n hn => h n ⟨t, ht, hn⟩, fun h n ⟨t, ht, hn⟩ => h t ht n hn⟩

theorem hasNumbers_number {value : Number} : HasNumbers p (.number value) ↔ p value := by
  simp [HasNumbers, numbers]

theorem inherited_hasNumbers (p : Number → Prop) : Inherited (HasNumbers p) where
  nil := by simp [HasNumbers, numbers]
  string text := by simp [HasNumbers, numbers]
  identifier name line := by simp [HasNumbers, numbers]
  atom name line := by simp [HasNumbers, numbers]
  literal := by simp [HasNumbers, numbers]
  keyword := by simp [HasNumbers, numbers]
  list := by
    intro items
    rw [HasNumbers, numbers, numbersOfAll_eq_flatMap, hasNumbers_flatMap]
  listNode := by
    intro items line
    rw [HasNumbers, numbers, numbersOfAll_eq_flatMap, hasNumbers_flatMap]

end GradingScript.Term
