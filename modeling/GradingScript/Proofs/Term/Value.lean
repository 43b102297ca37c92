import GradingScript.Proofs.Term.Inherited
import GradingScript.Term.Render
import GradingScript.Token.Basic

/-!
# Values and their texts

A value is a datum, or a node that stands for one: there is no statement in it, at any depth.  The
text of a value tells neither on which lines it stands, since only the text of a statement has
lines in it, nor whether its datum was taken before it was rendered.
-/

namespace GradingScript.Term

/-!
## Lines

A term holds a line in every node, at every depth.  What changes lines alone leaves the data of a
term as they are, and is known by what it does to a line: a script that stands further down adds to
every line, and two terms are the same up to lines if they are the same with all lines forgotten.
-/

mutual

/-- The term with every line in it, at every depth, changed. -/
def mapLines (f : Int → Int) : Term → Term
  | .nil => .nil
  | .bool value => .bool value
  | .number value => .number value
  | .string value => .string value
  | .list items => .list (mapLinesAll f items)
  | .literal value line => .literal (mapLines f value) (f line)
  | .identifier name line => .identifier name (f line)
  | .atom name line => .atom name (f line)
  | .listNode items line => .listNode (mapLinesAll f items) (f line)
  | .keyword key value line => .keyword key (mapLines f value) (f line)
  | .directive name line args => .directive name (f line) (mapLinesAll f args)
  | .assignment name value line => .assignment name (mapLines f value) (f line)
  | .call name line args => .call name (f line) (mapLinesAll f args)
  | .block label line children kind => .block label (f line) (mapLinesAll f children) kind

/-- `mapLines` on every term of a list. -/
def mapLinesAll (f : Int → Int) : List Term → List Term
  | [] => []
  | t :: ts => mapLines f t :: mapLinesAll f ts

end

@[simp] theorem mapLinesAll_eq_map (f : Int → Int) (ts : List Term) :
    mapLinesAll f ts = ts.map (mapLines f) := by
  induction ts with
  | nil => rfl
  | cons t ts ih => simp [mapLinesAll, ih]

/-- The sign of a datum has nothing to do with lines. -/
theorem neg?_mapLines (f : Int → Int) (t : Term) :
    (t.mapLines f).neg? = t.neg?.map (mapLines f) := by
  cases t <;> simp [mapLines, neg?]

/-- A datum that a kind admits holds no lines. -/
theorem mapLines_of_admits {kind : LiteralKind} {value : Term} (f : Int → Int)
    (h : kind.admits value = true) : value.mapLines f = value := by
  cases kind <;> cases value <;> simp [LiteralKind.admits] at h <;> rfl

/-- The term `k` lines further down. -/
def shift (k : Int) : Term → Term :=
  mapLines (· + k)

/-- The term with its lines forgotten. -/
def unplaced : Term → Term :=
  mapLines fun _ => 0

theorem unplaced_list (items : List Term) :
    (Term.list items).unplaced = .list (items.map unplaced) := by
  rw [unplaced, mapLines, mapLinesAll_eq_map]

theorem unplaced_identifier (name : String) (line : Int) :
    (Term.identifier name line).unplaced = .identifier name 0 := rfl

theorem unplaced_keyword (key : String) (value : Term) (line : Int) :
    (Term.keyword key value line).unplaced = .keyword key value.unplaced 0 := rfl

theorem unplaced_directive (name : String) (line : Int) (args : List Term) :
    (Term.directive name line args).unplaced = .directive name 0 (args.map unplaced) := by
  rw [unplaced, mapLines, mapLinesAll_eq_map]

theorem unplaced_call (name : String) (line : Int) (args : List Term) :
    (Term.call name line args).unplaced = .call name 0 (args.map unplaced) := by
  rw [unplaced, mapLines, mapLinesAll_eq_map]

theorem unplaced_block (label : String) (line : Int) (children : List Term) (kind : String) :
    (Term.block label line children kind).unplaced =
      .block label 0 (children.map unplaced) kind := by
  rw [unplaced, mapLines, mapLinesAll_eq_map]

theorem line_unplaced (t : Term) : t.unplaced.line = 0 := by
  cases t <;> rfl

theorem isKeyword_unplaced (t : Term) : t.unplaced.isKeyword = t.isKeyword := by
  cases t <;> rfl

/-! ## Values -/

mutual

/-- Whether there is no statement in a term, at any depth. -/
def isValue : Term → Bool
  | .nil | .bool _ | .number _ | .string _ | .identifier .. | .atom .. => true
  | .literal value _ | .keyword _ value _ => value.isValue
  | .list items | .listNode items _ => areValues items
  | .directive .. | .assignment .. | .call .. | .block .. => false

/-- Whether all terms of a list are values. -/
def areValues : List Term → Bool
  | [] => true
  | t :: ts => t.isValue && areValues ts

end

@[simp] theorem areValues_iff {ts : List Term} :
    areValues ts = true ↔ ∀ t ∈ ts, t.isValue = true := by
  induction ts with
  | nil => simp [areValues]
  | cons t ts ih => simp [areValues, ih]

/-- There is no statement in a term just when there is none in what stands in it. -/
theorem inherited_isValue : Inherited fun t => t.isValue = true where
  nil := rfl
  string _ := rfl
  identifier _ _ := rfl
  atom _ _ := rfl
  literal := by simp [isValue]
  keyword := by simp [isValue]
  list := by simp [isValue]
  listNode := by simp [isValue]

theorem negatable_isValue : Negatable fun t => t.isValue = true := by
  intro value negated _ h
  cases value <;> cases h <;> rfl

/-! ### Data of values -/

mutual

/-- The datum that a term stands for has nothing to do with the line of the term. -/
theorem plain_mapLines (f : Int → Int) (t : Term) : (t.mapLines f).plain = t.plain.mapLines f := by
  cases t with
  | listNode items line =>
      rw [mapLines, mapLinesAll_eq_map, plain_listNode, plain_listNode, mapLines,
        mapLinesAll_eq_map, plain_mapLinesAll]
  | literal value line => rw [mapLines, plain_literal, plain_literal]
  | _ => rfl

theorem plain_mapLinesAll (f : Int → Int) (ts : List Term) :
    (ts.map (mapLines f)).map plain = (ts.map plain).map (mapLines f) := by
  cases ts with
  | nil => rfl
  | cons t ts =>
      simp only [List.map_cons]
      rw [plain_mapLines f t, plain_mapLinesAll f ts]

end

theorem plain_unplaced (t : Term) : t.unplaced.plain = t.plain.unplaced :=
  plain_mapLines _ t

/-! ### Texts of values -/

/-- The text of a term does not tell on which lines it stands. -/
def ShowsNoLines (t : Term) : Prop :=
  ∀ f inQuotes, (t.mapLines f).render inQuotes = t.render inQuotes

theorem renderItems_mapLines {ts : List Term} (h : ∀ t ∈ ts, t.ShowsNoLines) (f : Int → Int) :
    renderItems (ts.map (mapLines f)) = renderItems ts := by
  induction ts with
  | nil => rfl
  | cons t ts ih =>
      have ht := h t (by simp) f true
      have hts := ih fun u hu => h u (by simp [hu])
      simp only [List.map_cons, renderItems, ht, hts]

/-- A value shows no lines. -/
theorem showsNoLines_of_isValue {t : Term} (h : t.isValue = true) : t.ShowsNoLines := by
  intro f inQuotes
  cases t with
  | list items =>
      have hitems : ∀ t ∈ items, t.ShowsNoLines := fun t ht =>
        showsNoLines_of_isValue (by simp only [isValue, areValues_iff] at h; exact h t ht)
      rw [mapLines, mapLinesAll_eq_map, render, render, renderItems_mapLines hitems]
  | listNode items line =>
      have hitems : ∀ t ∈ items, t.ShowsNoLines := fun t ht =>
        showsNoLines_of_isValue (by simp only [isValue, areValues_iff] at h; exact h t ht)
      rw [mapLines, mapLinesAll_eq_map, render, render, renderItems_mapLines hitems]
  | literal value line =>
      rw [mapLines, render, render, showsNoLines_of_isValue (by simpa [isValue] using h) f]
  | keyword key value line =>
      rw [mapLines, render, render, showsNoLines_of_isValue (by simpa [isValue] using h) f]
  | directive => cases h
  | assignment => cases h
  | call => cases h
  | block => cases h
  | _ => rfl

/-!
## Texts of data

A literal is rendered as the datum that it stands for, and a list of literals as the list of their
data.  So a term has one text, whether its datum is taken before it is rendered or not, and whatever
stands where a datum or a node is expected.
-/

/-- The texts of the items of a list, one after the other. -/
theorem renderItems_eq_mapM (ts : List Term) : renderItems ts = ts.mapM (render true) := by
  induction ts with
  | nil => rfl
  | cons t ts ih => rw [renderItems, List.mapM_cons, ih]

/-- A literal is one step away from its datum, and only for a list there is more to do: its items
have to be rendered as their data are. -/
theorem render_plain_of_items {t : Term}
    (h : ∀ items line, t = .listNode items line →
      renderItems (items.map plain) = renderItems items) (inQuotes : Bool) :
    t.plain.render inQuotes = t.render inQuotes := by
  cases t with
  | literal value line => rw [plain_literal, render]
  | listNode items line => rw [plain_listNode, render, render, h items line rfl]
  | _ => rfl

/-- Items are rendered as their data are, because the items of a list among them are. -/
theorem renderItems_map_plain (ts : List Term) : renderItems (ts.map plain) = renderItems ts := by
  match ts with
  | [] => rfl
  | t :: ts =>
      have hitems : ∀ items line, t = .listNode items line →
          renderItems (items.map plain) = renderItems items := by
        rintro items line rfl
        exact renderItems_map_plain items
      rw [List.map_cons, renderItems, renderItems, render_plain_of_items hitems,
        renderItems_map_plain ts]

theorem mapM_render_plain (ts : List Term) :
    ts.mapM (fun t => t.plain.render true) = ts.mapM (render true) := by
  rw [← renderItems_eq_mapM, ← renderItems_map_plain, renderItems_eq_mapM, List.mapM_map]
  rfl

/-- A term is rendered as its datum, and if one of them cannot be written, neither can the other. -/
theorem render_plain (t : Term) (inQuotes : Bool) :
    t.plain.render inQuotes = t.render inQuotes :=
  render_plain_of_items (fun items _ _ => renderItems_map_plain items) inQuotes

end GradingScript.Term
