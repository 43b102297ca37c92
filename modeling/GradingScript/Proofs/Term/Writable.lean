import GradingScript.Proofs.Number
import GradingScript.Proofs.Term.Value

/-!
# Terms that can be written

A value can be written if every integer in it can.  Statements are left out: they show the lines
that they stand on, and these are integers too.

`HasText` says of any term that it can be written, for whatever reason.
-/

namespace GradingScript.Term

/-- A value whose numbers can all be written. -/
def IsWritable (t : Term) : Prop :=
  t.isValue = true ∧ t.HasNumbers Number.IsWritable

theorem inherited_isWritable : Inherited IsWritable :=
  inherited_isValue.and (inherited_hasNumbers Number.IsWritable)

theorem isWritable_number {value : Number} : IsWritable (.number value) ↔ value.IsWritable := by
  simp [IsWritable, isValue, hasNumbers_number]

theorem isWritable_bool (value : Bool) : IsWritable (.bool value) :=
  ⟨rfl, by simp [HasNumbers, numbers]⟩

theorem negatable_isWritable : Negatable IsWritable := by
  intro value negated h hneg
  cases value with
  | number n =>
      cases hneg
      exact isWritable_number.2 (isWritable_number.1 h).neg
  | bool value =>
      cases hneg
      rw [isWritable_number]
      have hshort : Number.isShort (if value then -1 else 0) = true := by
        cases value <;> decide +kernel
      exact hshort
  | _ => cases hneg

mutual

/-- A value whose numbers can be written has a text. -/
theorem exists_render {t : Term} (h : t.IsWritable) (inQuotes : Bool) :
    ∃ text, t.render inQuotes = .ok text := by
  cases t with
  | number value => exact Number.exists_text (isWritable_number.1 h)
  | list items =>
      rw [render]
      exact Written.exists_bind (exists_renderItems (inherited_isWritable.list.1 h))
        fun texts _ => ⟨_, rfl⟩
  | listNode items line =>
      rw [render]
      exact Written.exists_bind (exists_renderItems (inherited_isWritable.listNode.1 h))
        fun texts _ => ⟨_, rfl⟩
  | literal value line =>
      rw [render]
      exact exists_render (inherited_isWritable.literal.1 h) inQuotes
  | keyword key value line =>
      rw [render]
      exact Written.exists_bind (exists_render (inherited_isWritable.keyword.1 h) true)
        fun text _ => ⟨_, rfl⟩
  | directive => exact absurd h.1 (by simp [isValue])
  | assignment => exact absurd h.1 (by simp [isValue])
  | call => exact absurd h.1 (by simp [isValue])
  | block => exact absurd h.1 (by simp [isValue])
  | _ => exact ⟨_, rfl⟩

theorem exists_renderItems {ts : List Term} (h : ∀ t ∈ ts, t.IsWritable) :
    ∃ texts, renderItems ts = .ok texts := by
  cases ts with
  | nil => exact ⟨[], rfl⟩
  | cons t ts =>
      rw [List.forall_mem_cons] at h
      rw [renderItems]
      exact Written.exists_bind (exists_render h.1 true) fun text _ =>
        Written.exists_bind (exists_renderItems h.2) fun texts _ => ⟨_, rfl⟩

end

/-- The text of such a value. -/
theorem exists_text {t : Term} (h : t.IsWritable) : ∃ text, t.text = .ok text :=
  exists_render h false

/-! ## Terms that have a text -/

/-- A term can be written. -/
def HasText (t : Term) : Prop :=
  ∃ text, t.text = .ok text

theorem IsWritable.hasText {t : Term} (h : t.IsWritable) : t.HasText :=
  exists_text h

/-- Quotes make no difference to whether a term can be written. -/
theorem exists_render_iff_hasText (inQuotes : Bool) {t : Term} :
    (∃ text, t.render inQuotes = .ok text) ↔ t.HasText := by
  cases t with
  | string text => exact ⟨fun _ => ⟨_, rfl⟩, fun _ => ⟨_, rfl⟩⟩
  | literal value line =>
      rw [HasText, text, render, render]
      exact exists_render_iff_hasText inQuotes
  | _ => simp only [HasText, text, render]

theorem exists_renderItems_iff_hasText {ts : List Term} :
    (∃ texts, renderItems ts = .ok texts) ↔ ∀ t ∈ ts, t.HasText := by
  induction ts with
  | nil => exact ⟨fun _ => by simp, fun _ => ⟨[], rfl⟩⟩
  | cons t ts ih =>
      rw [List.forall_mem_cons, ← ih, ← exists_render_iff_hasText true, renderItems]
      constructor
      · rintro ⟨texts, h⟩
        obtain ⟨text, htext, h⟩ := Written.bind_eq_ok.1 h
        obtain ⟨texts', htexts, -⟩ := Written.bind_eq_ok.1 h
        exact ⟨⟨text, htext⟩, texts', htexts⟩
      · rintro ⟨ht, hts⟩
        exact Written.exists_bind ht fun text _ =>
          Written.exists_bind hts fun texts _ => ⟨_, rfl⟩

/-- A term has a text just when what stands in it has one. -/
theorem inherited_hasText : Inherited HasText where
  nil := ⟨_, rfl⟩
  string text := ⟨_, rfl⟩
  identifier name line := ⟨_, rfl⟩
  atom name line := ⟨_, rfl⟩
  literal := by
    intro value line
    simp only [HasText, text, render]
  keyword := by
    intro key value line
    rw [HasText, text, render, Written.exists_bind_pure, exists_render_iff_hasText]
  list := by
    intro items
    rw [HasText, text, render, Written.exists_bind_pure, exists_renderItems_iff_hasText]
  listNode := by
    intro items line
    rw [HasText, text, render, Written.exists_bind_pure, exists_renderItems_iff_hasText]

end GradingScript.Term
