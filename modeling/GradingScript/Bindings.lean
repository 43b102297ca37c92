import GradingScript.Term.Render
import GradingScript.Text.CharClass

/-!
# Bindings

The variables of a script and the terms that they are bound to, in the order in which the names
were first bound.  Binding a name again changes its term and keeps its place.
-/

namespace GradingScript

/-- Names with their terms. -/
@[ext]
structure Bindings where
  entries : List (String × Term)
  /-- No name occurs twice. -/
  nodup : (entries.map (·.1)).Nodup
  deriving Repr

namespace Bindings

/-- No variable is bound. -/
def empty : Bindings :=
  ⟨[], List.nodup_nil⟩

/-- The term that the entry of a name holds. -/
def lookup (name : String) : List (String × Term) → Option Term
  | [] => none
  | (key, value) :: entries => if key = name then some value else lookup name entries

/-- The entries with a name bound to a term. -/
def put (name : String) (value : Term) : List (String × Term) → List (String × Term)
  | [] => [(name, value)]
  | (key, old) :: entries =>
    if key = name then (key, value) :: entries else (key, old) :: put name value entries

/-- A new name comes last, and one that is bound keeps its place. -/
theorem keys_put (name : String) (value : Term) (entries : List (String × Term)) :
    (put name value entries).map (·.1) =
      if name ∈ entries.map (·.1) then entries.map (·.1) else entries.map (·.1) ++ [name] := by
  induction entries with
  | nil => simp [put]
  | cons entry entries ih =>
    obtain ⟨key, old⟩ := entry
    by_cases h : key = name
    · simp [put, h]
    · simp only [put, h, if_false, List.map_cons, List.mem_cons, Ne.symm h, false_or, ih]
      split <;> simp

theorem nodup_keys_put {name : String} {value : Term} {entries : List (String × Term)}
    (h : (entries.map (·.1)).Nodup) : ((put name value entries).map (·.1)).Nodup := by
  rw [keys_put]
  split
  · exact h
  · next hnew => grind [List.nodup_append]

/-- The term that a name is bound to. -/
def get? (b : Bindings) (name : String) : Option Term :=
  lookup name b.entries

/-- Whether a name is bound. -/
def isBound (b : Bindings) (name : String) : Bool :=
  (b.get? name).isSome

/-- The number of names that are bound. -/
def size (b : Bindings) : Nat :=
  b.entries.length

/-- Binds a name to a term as it is. -/
def set (b : Bindings) (name : String) (value : Term) : Bindings :=
  ⟨put name value b.entries, nodup_keys_put b.nodup⟩

/-- Binds a name to the datum that a term stands for. -/
def bind (b : Bindings) (name : String) (value : Term) : Bindings :=
  b.set name value.plain

/-- The bindings made by binding one name after the other. -/
def ofList (entries : List (String × Term)) : Bindings :=
  entries.foldl (fun b (name, value) => b.set name value) empty

theorem lookup_put (name other : String) (value : Term) (entries : List (String × Term)) :
    lookup other (put name value entries) =
      if name = other then some value else lookup other entries := by
  induction entries with
  | nil => simp [put, lookup]
  | cons entry entries ih =>
    obtain ⟨key, old⟩ := entry
    by_cases h : key = name
    · subst h
      by_cases h' : key = other <;> simp [put, lookup, h']
    · by_cases h' : key = other
      · subst h'
        simp [put, lookup, h, Ne.symm h]
      · simp [put, lookup, h, h', ih]

/-- A name has the term that it was last bound to. -/
theorem get?_set (b : Bindings) (name other : String) (value : Term) :
    (b.set name value).get? other = if name = other then some value else b.get? other :=
  lookup_put name other value b.entries

theorem get?_bind (b : Bindings) (name other : String) (value : Term) :
    (b.bind name value).get? other =
      if name = other then some value.plain else b.get? other :=
  get?_set b name other value.plain

/-- The entries between braces, as in `{'x': 1}`. -/
def dump (b : Bindings) : Written String := do
  let parts ← b.entries.mapM fun (name, value) => do
    pure (Text.quoted name ++ ": " ++ (← value.dump))
  pure ("VariableTable(\x7b" ++ ", ".intercalate parts ++ "\x7d)")

end Bindings

end GradingScript

/-!
## Substitution

A placeholder is a percent sign with a word behind it, as long as the word reaches.  Substitution
puts the text of the bound term in the place of every placeholder whose word is bound, from left to
right and once: what it puts in is not looked at again.
-/

namespace GradingScript.Bindings

/-- What stands in the place of a placeholder. -/
def replacement (b : Bindings) (name : List Char) : Written (List Char) :=
  match b.get? (String.ofList name) with
  | some value => do pure (← value.text).toList
  | none => pure ('%' :: name)

/-- Substitution in a text. -/
def substituteChars (b : Bindings) : List Char → Written (List Char)
  | [] => pure []
  | c :: cs =>
    if c = '%' ∧ cs.takeWhile Text.isWord ≠ [] then do
      let first ← b.replacement (cs.takeWhile Text.isWord)
      pure (first ++ (← substituteChars b (cs.dropWhile Text.isWord)))
    else do pure (c :: (← substituteChars b cs))
termination_by cs => cs.length
decreasing_by
  · have := (List.dropWhile_suffix (p := Text.isWord) (l := cs)).length_le
    simp only [List.length_cons]
    omega
  · simp

@[simp] theorem substituteChars_nil (b : Bindings) : b.substituteChars [] = .ok [] := by
  rw [substituteChars]
  rfl

/-- A placeholder is replaced as a whole, and substitution goes on behind it. -/
theorem substituteChars_placeholder (b : Bindings) {word rest : List Char} (hne : word ≠ [])
    (hword : ∀ c ∈ word, Text.isWord c = true)
    (hrest : ∀ c, rest.head? = some c → Text.isWord c = false) :
    b.substituteChars ('%' :: (word ++ rest)) =
      b.replacement word >>= fun first =>
        b.substituteChars rest >>= fun behind => .ok (first ++ behind) := by
  rw [substituteChars, Text.takeWhile_run hword hrest, Text.dropWhile_run hword hrest,
    if_pos ⟨rfl, hne⟩]
  rfl

/-- A character that begins no placeholder stays. -/
theorem substituteChars_cons (b : Bindings) {c : Char} {cs : List Char}
    (h : ¬(c = '%' ∧ cs.takeWhile Text.isWord ≠ [])) :
    b.substituteChars (c :: cs) =
      b.substituteChars cs >>= fun behind => .ok (c :: behind) := by
  rw [substituteChars, if_neg h]
  rfl

/-- Substitution in a string. -/
def substitute (b : Bindings) (text : String) : Written String := do
  pure (String.ofList (← b.substituteChars text.toList))

mutual

/-- The value of a term: a name stands for the term that it is bound to, or for nil, and the
placeholders of a string are replaced. -/
def resolve (b : Bindings) : Term → Written Term
  | .identifier name _ => pure ((b.get? name).getD .nil)
  | .string text => do pure (.string (← b.substitute text))
  | .list items => do pure (.list (← b.resolveAll items))
  | t => pure t

/-- The values of a list of terms. -/
def resolveAll (b : Bindings) : List Term → Written (List Term)
  | [] => pure []
  | t :: ts => do pure ((← b.resolve t) :: (← b.resolveAll ts))

end

end GradingScript.Bindings
