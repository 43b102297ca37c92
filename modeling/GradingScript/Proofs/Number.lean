import GradingScript.Number.Basic

/-!
# Order and texts of numbers

Numbers are compared by their exact values, and whatever is written in parts is written just when
all parts are; only integers cannot be written.
-/

/-!
## The order of numbers

That one number is at most another is told apart from that the other is not less, because `nan`
stands outside of the order: it is neither less nor greater than a number, and neither at most nor
at least one.  Any two other numbers are comparable.
-/

namespace GradingScript.Number

/-- Whether an integer is at most a binary number. -/
def intLe (i : Int) : Double → Bool
  | .nan => false
  | .infinity negative => !negative
  | .finite s m p => i * (twoTo (-Double.minExponent).toNat : Nat) ≤ Double.units s m p

/-- Whether a binary number is at most an integer. -/
def realLe (i : Int) : Double → Bool
  | .nan => false
  | .infinity negative => negative
  | .finite s m p => Double.units s m p ≤ i * (twoTo (-Double.minExponent).toNat : Nat)

/-- Whether the first number is at most the second, whatever their kinds. -/
def le : Number → Number → Bool
  | .int i, .int j => i ≤ j
  | .int i, .real y => intLe i y
  | .real x, .int j => realLe j x
  | .real x, .real y => x.le y

theorem intLe_eq_not_realLt {y : Double} (hy : y ≠ .nan) (i : Int) : intLe i y = !realLt i y := by
  cases y with
  | nan => exact absurd rfl hy
  | infinity negative => rfl
  | finite s m p =>
      rw [intLe, realLt, ← decide_not]
      exact decide_eq_decide.2 Int.not_lt.symm

theorem realLe_eq_not_intLt {x : Double} (hx : x ≠ .nan) (i : Int) : realLe i x = !intLt i x := by
  cases x with
  | nan => exact absurd rfl hx
  | infinity negative => cases negative <;> rfl
  | finite s m p =>
      rw [realLe, intLt, ← decide_not]
      exact decide_eq_decide.2 Int.not_lt.symm

/-- Two numbers other than `nan` are always comparable. -/
theorem le_eq_not_lt {x y : Number} (hx : x ≠ .real .nan) (hy : y ≠ .real .nan) :
    x.le y = !y.lt x := by
  have hne {z : Double} (hz : Number.real z ≠ .real .nan) : z ≠ .nan :=
    fun h => hz (congrArg Number.real h)
  match x, y with
  | .int i, .int j =>
      rw [le, lt, ← decide_not]
      exact decide_eq_decide.2 Int.not_lt.symm
  | .int i, .real y => exact intLe_eq_not_realLt (hne hy) i
  | .real x, .int j => exact realLe_eq_not_intLt (hne hx) j
  | .real x, .real y => exact Double.le_iff_not_lt (hne hx) (hne hy)

theorem nan_le (y : Number) : le (.real .nan) y = false := by
  cases y <;> rfl

end GradingScript.Number

/-! ## Writing in parts -/

namespace GradingScript

namespace Written

theorem ok_bind {α β : Type} (a : α) (f : α → Written β) : ((.ok a : Written α) >>= f) = f a := rfl

/-- What is written in two parts is written if both are. -/
theorem bind_eq_ok {α β : Type} {x : Written α} {f : α → Written β} {b : β} :
    (x >>= f) = .ok b ↔ ∃ a, x = .ok a ∧ f a = .ok b := by
  cases x with
  | error e =>
      constructor
      · intro h
        cases h
      · rintro ⟨_, h, -⟩
        cases h
  | ok a =>
      constructor
      · intro h
        exact ⟨a, rfl, h⟩
      · rintro ⟨_, ha, h⟩
        cases ha
        exact h

theorem pure_eq_ok {α : Type} {a b : α} : (pure a : Written α) = .ok b ↔ a = b :=
  ⟨Except.ok.inj, congrArg Except.ok⟩

theorem map_eq_ok {α β : Type} {x : Written α} {f : α → β} {b : β} :
    f <$> x = .ok b ↔ ∃ a, x = .ok a ∧ f a = b := by
  rw [map_eq_pure_bind, bind_eq_ok]
  exact exists_congr fun a => and_congr_right fun _ => pure_eq_ok

/-- What is written in two parts can be written if the first can, and the second behind it. -/
theorem exists_bind {α β : Type} {x : Written α} {f : α → Written β} (hx : ∃ a, x = .ok a)
    (hf : ∀ a, x = .ok a → ∃ b, f a = .ok b) : ∃ b, (x >>= f) = .ok b := by
  obtain ⟨a, ha⟩ := hx
  obtain ⟨b, hb⟩ := hf a ha
  exact ⟨b, bind_eq_ok.2 ⟨a, ha, hb⟩⟩

/-- What is made of a part can be written if the part can. -/
theorem exists_bind_pure {α β : Type} {x : Written α} {f : α → β} :
    (∃ b, (x >>= fun a => pure (f a)) = .ok b) ↔ ∃ a, x = .ok a := by
  constructor
  · rintro ⟨b, h⟩
    obtain ⟨a, ha, -⟩ := bind_eq_ok.1 h
    exact ⟨a, ha⟩
  · intro h
    exact exists_bind h fun a _ => ⟨_, rfl⟩

theorem exists_mapM {α β : Type} {f : α → Written β} {xs : List α}
    (h : ∀ x ∈ xs, ∃ b, f x = .ok b) : ∃ bs, xs.mapM f = .ok bs := by
  induction xs with
  | nil => exact ⟨[], rfl⟩
  | cons x xs ih =>
      rw [List.forall_mem_cons] at h
      rw [List.mapM_cons]
      exact exists_bind h.1 fun b _ => exists_bind (ih h.2) fun bs _ => ⟨b :: bs, rfl⟩

/-- What is made of each part can be made of all of them at the end. -/
theorem mapM_map {α β γ : Type} (f : α → Written β) (g : β → γ) (xs : List α) :
    xs.mapM (fun x => g <$> f x) = List.map g <$> xs.mapM f := by
  induction xs with
  | nil => rfl
  | cons x xs ih =>
      rw [List.mapM_cons, List.mapM_cons, ih]
      cases f x with
      | error e => rfl
      | ok b => cases xs.mapM f <;> rfl

/-- Each of many results is the result of one of the parts. -/
theorem exists_of_mem_mapM {α β : Type} {f : α → Written β} {xs : List α} {bs : List β}
    (h : xs.mapM f = .ok bs) {b : β} (hb : b ∈ bs) : ∃ x ∈ xs, f x = .ok b := by
  induction xs generalizing bs with
  | nil =>
      obtain rfl := pure_eq_ok.1 h
      cases hb
  | cons x xs ih =>
      rw [List.mapM_cons] at h
      obtain ⟨c, hc, h⟩ := bind_eq_ok.1 h
      obtain ⟨cs, hcs, h⟩ := bind_eq_ok.1 h
      obtain rfl := pure_eq_ok.1 h
      rcases List.mem_cons.1 hb with rfl | hb
      · exact ⟨x, List.mem_cons_self, hc⟩
      · obtain ⟨x', hx', hb⟩ := ih hcs hb
        exact ⟨x', List.mem_cons_of_mem x hx', hb⟩

end Written

namespace Number

/-- A number has a text, unless it is an integer of too many digits. -/
def IsWritable : Number → Prop
  | .int i => isShort i = true
  | .real _ => True

theorem exists_intText {i : Int} (h : isShort i = true) : ∃ text, intText i = .ok text :=
  ⟨_, if_pos h⟩

theorem exists_text {n : Number} (h : n.IsWritable) : ∃ text, n.text = .ok text := by
  cases n with
  | int i => exact exists_intText h
  | real x => exact ⟨_, rfl⟩

theorem IsWritable.neg {n : Number} (h : n.IsWritable) : n.neg.IsWritable := by
  cases n with
  | int i => simpa [IsWritable, Number.neg, isShort] using h
  | real x => trivial

end Number

end GradingScript
