import GradingScript.Proofs.Printing.Basic
import GradingScript.Proofs.Token.Place
import GradingScript.Proofs.Token.Reads

/-!
# Strings between quotes

Between its quotes a string is written item by item: a character as it is, a character behind a
backslash, or a line feed that a backslash hides.  Each item adds to the value what it stands for,
and what is read as a string is always written in this way.

* `read_items` reads what is written by items, and `exists_items_of_read` finds the items of what is
  read.
* `ofText_quoted` says the same of texts and their tokens.
-/

namespace GradingScript

namespace Quote

/-- What a string is written with, between its quotes. -/
inductive Item where
  | raw (c : Char) (hquote : c ≠ '"') (hescape : c ≠ '\\')
  | escape (c : Char) (h : c ≠ '\n')
  | hiddenLineFeed

/-- The letters that stand for other characters behind a backslash. -/
def escapes : List (Char × Char) :=
  [('n', '\n'), ('t', '\t'), ('r', '\r'), ('s', ' '), ('0', '\x00')]

namespace Item

/-- How an item is written. -/
def text : Item → List Char
  | raw c _ _ => [c]
  | escape c _ => ['\\', c]
  | hiddenLineFeed => ['\\', '\n']

/-- What an item adds to the string. -/
def value : Item → List Char
  | raw c _ _ => [c]
  | escape c _ => [(escapes.lookup c).getD c]
  | hiddenLineFeed => []

end Item

/-- Items between quotes. -/
def literal (items : List Item) : String :=
  String.ofList ('"' :: items.flatMap Item.text ++ ['"'])

/-- The string that items write. -/
def valueOf (items : List Item) : String :=
  String.ofList (items.flatMap Item.value)

theorem unescape_eq (c : Char) : unescape c = (escapes.lookup c).getD c := by
  unfold unescape
  split
  iterate 5 rfl
  next hn ht hr hs hzero =>
    have hlookup : escapes.lookup c = none := by
      simp only [escapes, List.lookup_cons, List.lookup_nil, beq_false_of_ne hn, beq_false_of_ne ht,
        beq_false_of_ne hr, beq_false_of_ne hs, beq_false_of_ne hzero]
    rw [hlookup, Option.getD_none]

theorem read_items (items : List Item) (rest : List Char) :
    read (items.flatMap Item.text ++ '"' :: rest) =
      some (items.flatMap Item.value, (items.flatMap Item.text).length + 1) := by
  induction items with
  | nil => rfl
  | cons item items ih =>
      cases item with
      | raw c hquote hescape =>
          simp only [List.flatMap_cons, Item.text, Item.value, List.cons_append, List.nil_append]
          rw [read_plain hquote hescape, ih]
          rfl
      | escape c hc =>
          simp only [List.flatMap_cons, Item.text, Item.value, List.cons_append, List.nil_append]
          rw [read_escaped hc, ih, Option.map_some, unescape_eq]
          rfl
      | hiddenLineFeed =>
          simp only [List.flatMap_cons, Item.text, Item.value, List.cons_append, List.nil_append]
          rw [read_hidden, ih]
          rfl

/-- What is read is written by items. -/
theorem exists_items_of_read {cs value : List Char} {more : Nat}
    (h : read cs = some (value, more)) :
    ∃ items : List Item, cs.take more = items.flatMap Item.text ++ ['"'] ∧
      value = items.flatMap Item.value := by
  induction cs using read.induct generalizing value more with
  | case1 => simp [read] at h
  | case2 cs =>
      obtain ⟨rfl, rfl⟩ : [] = value ∧ 1 = more := by simpa [read] using h
      exact ⟨[], rfl, rfl⟩
  | case3 cs ih =>
      rw [read_hidden, Option.map_eq_some_iff] at h
      obtain ⟨⟨value', more'⟩, hread, heq⟩ := h
      cases heq
      obtain ⟨items, htext, rfl⟩ := ih hread
      exact ⟨.hiddenLineFeed :: items, by simp [htext, Item.text], rfl⟩
  | case4 c cs hc ih =>
      rw [read_escaped hc, Option.map_eq_some_iff] at h
      obtain ⟨⟨value', more'⟩, hread, heq⟩ := h
      cases heq
      obtain ⟨items, htext, rfl⟩ := ih hread
      refine ⟨.escape c hc :: items, by simp [htext, Item.text], ?_⟩
      rw [unescape_eq]
      rfl
  | case5 c cs hquote _ hescape ih =>
      have hne := ne_escape_of_read hescape h
      rw [read_plain hquote hne, Option.map_eq_some_iff] at h
      obtain ⟨⟨value', more'⟩, hread, heq⟩ := h
      cases heq
      obtain ⟨items, htext, rfl⟩ := ih hread
      exact ⟨.raw c hquote hne :: items, by simp [htext, Item.text], rfl⟩

/-- The item of a character that is escaped only if it has to be. -/
def itemOf (c : Char) : Item :=
  if h : c = '\\' ∨ c = '"' then .escape c (by rcases h with rfl | rfl <;> decide)
  else .raw c (fun hc => h (.inr hc)) (fun hc => h (.inl hc))

theorem text_itemOf (c : Char) : (itemOf c).text = Printing.escaped c := by
  unfold itemOf Printing.escaped
  split <;> rfl

theorem value_itemOf (c : Char) : (itemOf c).value = [c] := by
  unfold itemOf
  split
  · next h => rcases h with rfl | rfl <;> rfl
  · rfl

theorem literal_map_itemOf (value : String) :
    literal (value.toList.map itemOf) = Printing.quoted value := by
  simp only [Printing.quoted, literal, List.flatMap_map, text_itemOf]

theorem valueOf_map_itemOf (value : String) : valueOf (value.toList.map itemOf) = value := by
  simp only [valueOf, List.flatMap_map, value_itemOf, List.flatMap_singleton', String.ofList_toList]

/-- An item does not begin with a quote. -/
theorem flatMap_text_ne {items : List Item} {rest : List Char}
    (h : items = [] → rest.head? ≠ some '"') (ds : List Char) :
    items.flatMap Item.text ++ '"' :: rest ≠ '"' :: '"' :: ds := by
  cases items with
  | nil =>
      intro heq
      obtain rfl : rest = '"' :: ds := (List.cons.inj heq).2
      exact h rfl rfl
  | cons item items => cases item <;> simp_all [Item.text]

end Quote

namespace Piece

open Quote

/-- The piece that items between quotes are. -/
theorem read_literal {items : List Item} {rest : List Char}
    (h : items = [] → rest.head? ≠ some '"') :
    read '"' (items.flatMap Item.text ++ ['"'] ++ rest) =
      .ok ⟨some (.ofString (valueOf items)), literal items,
        (items.flatMap Item.text ++ ['"']).length⟩ := by
  have happend : items.flatMap Item.text ++ ['"'] ++ rest =
      items.flatMap Item.text ++ '"' :: rest := by simp
  have htake : (items.flatMap Item.text ++ '"' :: rest).take
      ((items.flatMap Item.text).length + 1) = items.flatMap Item.text ++ ['"'] := by
    rw [List.take_length_add_append]
    rfl
  show readQuote _ = _
  rw [happend, readQuote_of_ne fun ds => flatMap_text_ne h ds, read_items]
  simp only [plain, htake, List.length_append, List.length_singleton]
  rfl

/-- A string on one line, or one whose line feeds are its own, is written by items. -/
theorem exists_items_of_readQuote {cs : List Char} {value text : String} {more : Nat}
    (h : readQuote cs = .ok ⟨some (.ofString value), text, more⟩) (htext : text ≠ "\"\"\"") :
    ∃ items, text = literal items ∧ value = valueOf items := by
  by_cases htriple : ∃ ds, cs = '"' :: '"' :: ds
  · obtain ⟨ds, rfl⟩ := htriple
    obtain ⟨value', more', heq⟩ := exists_string_of_readHeredoc h
    exact absurd (congrArg Piece.text heq) htext
  · rw [readQuote_of_ne fun ds hds => htriple ⟨ds, hds⟩] at h
    cases hread : Quote.read cs with
    | none => simp [hread] at h
    | some result =>
        obtain ⟨value', more'⟩ := result
        obtain ⟨items, htake, rfl⟩ := exists_items_of_read hread
        rw [hread] at h
        simp only [plain, htake] at h
        cases h
        exact ⟨items, rfl, rfl⟩

end Piece

namespace Token

open Quote

/-- Every string of a text that is not written between triple quotes is written by items. -/
theorem exists_items_of_scan {line : Nat} {cs : List Char} {ts : List Token}
    (h : scan line cs = .ok ts) {t : Token} (ht : t ∈ ts) {value : Term}
    (hstring : t.lexeme = .literal .string value) (htext : t.text ≠ "\"\"\"") :
    ∃ items, t.text = literal items ∧ value = .string (valueOf items) := by
  obtain heof | ⟨first, rest, piece, hread, hlexeme, hwritten⟩ := exists_piece_of_scan h t ht
  · rw [hstring] at heof
    cases heof
  · rw [hstring] at hlexeme
    obtain ⟨text, rfl, hquote⟩ := Piece.quote_of_read hread hlexeme
    obtain ⟨lexeme?, written, more⟩ := piece
    cases hlexeme
    obtain rfl : written = t.text := hwritten
    obtain ⟨items, hitems, rfl⟩ := Piece.exists_items_of_readQuote hquote htext
    exact ⟨items, hitems, rfl⟩

theorem ofText_literal {items : List Item} {rest : String}
    (h : items = [] → rest.toList.head? ≠ some '"') :
    let k : Nat := Text.lineFeeds (literal items).toList
    ofText (literal items ++ rest) =
      (shiftOutcome k (List.map (shift k)) (ofText rest)).map
        (⟨.ofString (valueOf items), 1, literal items⟩ :: ·) := by
  intro k
  have hfeeds : k = Text.lineFeeds ('"' :: (items.flatMap Item.text ++ ['"'])) := by
    simp [k, literal]
  rw [hfeeds]
  exact ofText_of_read (Piece.read_literal h)

/-- A text that begins with items between quotes begins with the string that they write, and goes on
as the rest does alone, further down by the line feeds of the items.  Every string of a text that is
not written between triple quotes is written by items.  A string in which only quotes and
backslashes are escaped is written by items that give it back. -/
theorem ofText_quoted :
    (∀ (items : List Item) (rest : String), (items = [] → rest.toList.head? ≠ some '"') →
      let k : Nat := Text.lineFeeds (literal items).toList
      ofText (literal items ++ rest) =
        (shiftOutcome k (List.map (shift k)) (ofText rest)).map
          (⟨.ofString (valueOf items), 1, literal items⟩ :: ·)) ∧
    (∀ source ts, ofText source = .ok ts → ∀ t ∈ ts, ∀ value, t.lexeme = .literal .string value →
      t.text ≠ "\"\"\"" → ∃ items, t.text = literal items ∧ value = .string (valueOf items)) ∧
    (∀ value, ∃ items, Printing.quoted value = literal items ∧ valueOf items = value ∧
      ∃ eof, ofText (Printing.quoted value) =
        .ok [⟨.ofString value, 1, Printing.quoted value⟩, eof]) := by
  refine ⟨fun items rest hrest => ofText_literal hrest,
    fun source ts hscan t ht value hstring htext =>
      exists_items_of_scan hscan ht hstring htext, fun value => ?_⟩
  have hnothing : ofText "" = .ok [⟨.eof, 1, ""⟩] := scan_nil 1
  have halone := @ofText_literal (value.toList.map itemOf) "" (by simp)
  rw [hnothing, literal_map_itemOf, valueOf_map_itemOf, String.append_empty] at halone
  exact ⟨_, (literal_map_itemOf value).symm, valueOf_map_itemOf value, _, halone⟩

/-- An escaped quote, a hidden and a raw line feed, and two backslashes, in front of a string
without items. -/
theorem ofText_quoted_lines :
    let items : List Item := [.escape '"' (by decide), .hiddenLineFeed, .escape 'n' (by decide),
      .raw '\n' (by decide) (by decide), .escape '\\' (by decide)]
    let text := "\"\\\"\\\n\\n\n\\\\\"\"\""
    literal items = "\"\\\"\\\n\\n\n\\\\\"" ∧ valueOf items = "\"\n\n\\" ∧
      ofText text = .ok [⟨.ofString "\"\n\n\\", 1, "\"\\\"\\\n\\n\n\\\\\""⟩,
        ⟨.ofString "", 3, "\"\""⟩, ⟨.eof, 3, ""⟩] ∧
      ∃ items, "\"\"" = literal items ∧ Term.string "" = .string (valueOf items) := by
  intro items text
  have hliteral : literal items = "\"\\\"\\\n\\n\n\\\\\"" := by decide
  have hvalue : valueOf items = "\"\n\n\\" := by decide
  have hrest : ofText "\"\"" = .ok [⟨.ofString "", 1, "\"\""⟩, ⟨.eof, 1, ""⟩] := by cbv
  have hboth := ofText_quoted.1 items "\"\"" (by simp [items])
  rw [hrest, hvalue, hliteral] at hboth
  have htokens : ofText text = _ := hboth
  exact ⟨hliteral, hvalue, htokens, ofText_quoted.2.1 text _ htokens _
    (List.mem_cons_of_mem _ List.mem_cons_self) _ rfl (by decide)⟩

end Token

end GradingScript
