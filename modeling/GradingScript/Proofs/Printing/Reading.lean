import GradingScript.Proofs.Grammar.Basic
import GradingScript.Proofs.Printing.Lexemes
import GradingScript.Proofs.Term.Value

/-!
# Printed terms are read back

What is printed for a term is read, from any line on and in front of any delimiter, as tokens that
derive the term up to lines.  The proof follows the term: each part of its text leads from the line
on which it begins to where the next part does.
-/

namespace GradingScript

open Printing Grammar

/-! ## Texts one behind the other -/

/-- From a line on, a text gives tokens, and goes on as the rest does from another line on. -/
def Leads (line : Nat) (text : List Char) (ts : List Token) (line' : Nat) (rest : List Char) :
    Prop :=
  Token.scan line text = (Token.scan line' rest).map (ts ++ ·)

theorem leads_nil (line : Nat) (rest : List Char) : Leads line rest [] line rest := by
  rw [Leads]
  cases Token.scan line rest <;> rfl

theorem Leads.trans {line line' line'' : Nat} {text middle rest : List Char} {ts us : List Token}
    (hts : Leads line text ts line' middle) (hus : Leads line' middle us line'' rest) :
    Leads line text (ts ++ us) line'' rest := by
  rw [Leads] at hts hus ⊢
  rw [hts, hus]
  cases Token.scan line'' rest with
  | error e => rfl
  | ok vs => simp [Except.map]

theorem leads_blank (line : Nat) (rest : List Char) : Leads line (' ' :: rest) [] line rest := by
  have hread : Piece.read ' ' rest = .ok (Piece.gap 0) := rfl
  rw [Leads, Token.scan_cons_ok hread]
  rfl

/-- A lexeme leads to what is behind it. -/
theorem Writes.leads {text rest : List Char} {lexeme : Lexeme} (h : Writes text lexeme rest)
    (line : Nat) : ∃ t line', Leads line (text ++ rest) [t] line' rest ∧ t.lexeme = lexeme := by
  obtain ⟨first, cs, written, rfl, hread⟩ := h
  exact ⟨⟨lexeme, line, written⟩, line + Text.lineFeeds (first :: cs), Token.scan_of_read hread,
    rfl⟩

/-- A text is read, from any line on and in front of the rest, as tokens that derive something
whose view is as given. -/
def ReadsAs {α β : Type} (Derives : List Token → α → Prop) (view : α → β) (text : List Char)
    (b : β) (rest : List Char) : Prop :=
  ∀ line, ∃ ts a line', Leads line (text ++ rest) ts line' rest ∧ Derives ts a ∧ view a = b

theorem Writes.readsAs {α β : Type} {Derives : List Token → α → Prop} {view : α → β}
    {text rest : List Char} {lexeme : Lexeme} {b : β} (h : Writes text lexeme rest)
    (hderives : ∀ t : Token, t.lexeme = lexeme → ∃ a, Derives [t] a ∧ view a = b) :
    ReadsAs Derives view text b rest := by
  intro line
  obtain ⟨t, line', hleads, ht⟩ := h.leads line
  obtain ⟨a, ha, hview⟩ := hderives t ht
  exact ⟨[t], a, line', hleads, ha, hview⟩

/-- What is derived may be the beginning of another derivation. -/
theorem ReadsAs.imp {α β γ δ : Type} {Derives : List Token → α → Prop} {view : α → β}
    {Derives' : List Token → γ → Prop} {view' : γ → δ} {text rest : List Char} {b : β} {d : δ}
    (h : ReadsAs Derives view text b rest)
    (himp : ∀ ts a, Derives ts a → view a = b → ∃ c, Derives' ts c ∧ view' c = d) :
    ReadsAs Derives' view' text d rest := by
  intro line
  obtain ⟨ts, a, line', hleads, ha, hview⟩ := h line
  obtain ⟨c, hc, hview'⟩ := himp ts a ha hview
  exact ⟨ts, c, line', hleads, hc, hview'⟩

theorem ReadsAs.blank {α β : Type} {Derives : List Token → α → Prop} {view : α → β}
    {text rest : List Char} {b : β} (h : ReadsAs Derives view text b rest) :
    ReadsAs Derives view (' ' :: text) b rest := by
  intro line
  obtain ⟨ts, a, line', hleads, hderives, hview⟩ := h line
  exact ⟨ts, a, line', (leads_blank line _).trans hleads, hderives, hview⟩

/-! ## Values -/

namespace Term

theorem isName_of_mem_reservedWords {word : String} (h : word ∈ reservedWords) :
    isName word = true := by
  have hall : reservedWords.all isName = true := by decide +kernel
  exact List.all_eq_true.1 hall word h

/-- An integer is read back with its sign. -/
theorem readsAs_integer {i : Int} {line : Int} {rest : List Char} (h : Number.isShort i = true)
    (hrest : Delimited rest) :
    ReadsAs Value unplaced (Digits.ofInt i).toList (literal (.number (.int i)) line).unplaced
      rest := by
  have hwrites : Writes (Digits.ofNat i.natAbs) (.ofNumber (.int i.natAbs)) rest :=
    writes_integer (by rwa [Number.isShort, Int.natAbs_natCast]) hrest
  -- The digits are those of the absolute value, behind a minus sign if the integer is negative.
  by_cases hsign : i < 0
  · intro line
    have htext : (Digits.ofInt i).toList = Mark.minus.char :: Digits.ofNat i.natAbs := by
      simp [Digits.ofInt, hsign, Mark.char]
    have hneg : Term.neg? (.number (.int i.natAbs)) = some (.number (.int i)) := by
      have habs : -(i.natAbs : Int) = i := by omega
      rw [neg?, Number.neg, habs]
    obtain ⟨minus, line', hminus, hmark⟩ :=
      (writes_mark .minus (Digits.ofNat i.natAbs ++ rest)).leads line
    obtain ⟨t, line'', hdigits, ht⟩ := hwrites.leads line'
    rw [htext]
    exact ⟨_, _, line'', hminus.trans hdigits, .negative hmark ht hneg, rfl⟩
  · have htext : (Digits.ofInt i).toList = Digits.ofNat i.natAbs := by
      simp [Digits.ofInt, hsign]
    have habs : (i.natAbs : Int) = i := by omega
    rw [htext]
    refine hwrites.readsAs fun t ht => ⟨_, .literal ht, ?_⟩
    rw [habs]
    rfl

/-- A datum is read back as a literal. -/
theorem readsAs_datum {value : Term} {line : Int} {rest : List Char}
    (h : value.isWritableDatum = true) (hrest : Delimited rest) :
    ReadsAs Value unplaced value.printDatum.toList (literal value line).unplaced rest := by
  have hword : ∀ kind datum word, word ∈ reservedWords →
      Lexeme.ofWord word = .literal kind datum →
      ReadsAs Value unplaced word.toList (literal datum line).unplaced rest := by
    intro kind datum word hword hlexeme
    refine (writes_word (isName_of_mem_reservedWords hword) hrest).readsAs fun t ht => ?_
    exact ⟨_, .literal (ht.trans hlexeme), rfl⟩
  cases value with
  | string value =>
      exact (writes_string value hrest).readsAs fun t ht => ⟨_, .literal ht, rfl⟩
  | bool value =>
      cases value with
      | false => exact hword _ _ "false" (by decide) rfl
      | true => exact hword _ _ "true" (by decide) rfl
  | nil => exact hword _ _ "nil" (by decide) rfl
  | number value =>
      cases value with
      | int i => exact readsAs_integer h hrest
      | real x => cases h
  | _ => cases h

/-! ## Values and arguments -/

/-- What is read back bare is read back in brackets too, where there may be nothing. -/
theorem readsAs_enclosed {items : List Term} {text rest : List Char}
    (hempty : items = [] → text = [])
    (hbare : items ≠ [] → ReadsAs Bare (List.map unplaced) text (items.map unplaced) rest) :
    ReadsAs Enclosed (List.map unplaced) text (items.map unplaced) rest := by
  by_cases hitems : items = []
  · intro line
    rw [hempty hitems, hitems]
    exact ⟨[], [], line, leads_nil line rest, .empty newlines_nil, rfl⟩
  · exact (hbare hitems).imp fun ts items' hitems' hsame => ⟨items', hitems'.enclosed, hsame⟩

variable (layout : Term → Layout)

mutual

/-- A value is read back. -/
theorem readsAs_value (t : Term) (h : t.isWritable .value = true) {rest : List Char}
    (hrest : Delimited rest) : ReadsAs Value unplaced (t.print layout).toList t.unplaced rest := by
  cases t with
  | literal value line => exact readsAs_datum h hrest
  | identifier name line =>
      have hname : isFreeName name = true := by simpa [isWritable] using h
      exact (writes_name hname hrest).readsAs fun t ht => ⟨_, .name ht, rfl⟩
  | atom name line =>
      have hname : isName name = true := by simpa [isWritable] using h
      rw [print, String.toList_append]
      exact (writes_atom hname hrest).readsAs fun t ht => ⟨_, .atom ht, rfl⟩
  | listNode items line =>
      intro line'
      have hclosing : Delimited (']' :: rest) := delimited_cons (by decide)
      obtain ⟨opening, line₁, hopening, hopen⟩ :=
        (writes_mark .openBracket ((printItems layout items).toList ++ ']' :: rest)).leads line'
      obtain ⟨ts, items', line₂, hitems, henclosed, hsame⟩ :=
        readsAs_enclosed (by rintro rfl; rfl) (readsAs_items items h hclosing) line₁
      obtain ⟨closing, line₃, hclosing, hclose⟩ := (writes_mark .closeBracket rest).leads line₂
      refine ⟨opening :: ts ++ [closing], _, line₃, ?_, .list hopen henclosed hclose, ?_⟩
      · simpa [print, Mark.char] using hopening.trans (hitems.trans hclosing)
      · simpa [unplaced, mapLines] using hsame
  | _ => simp [isWritable] at h
termination_by 2 * sizeOf t

/-- An argument is read back. -/
theorem readsAs_argument (t : Term) (h : t.isWritable .argument = true) {rest : List Char}
    (hrest : Delimited rest) :
    ReadsAs Argument unplaced (t.print layout).toList t.unplaced rest := by
  by_cases hkeyword : ∃ key value line, t = .keyword key value line
  · obtain ⟨key, value, line, rfl⟩ := hkeyword
    simp only [isWritable, Bool.and_eq_true] at h
    intro line'
    obtain ⟨k, line₁, hkey, hk⟩ :=
      (writes_key h.1.2 ((print layout value).toList ++ rest)).leads line'
    obtain ⟨ts, value', line₂, hvalue, hderives, hsame⟩ := readsAs_value value h.2 hrest line₁
    refine ⟨_, _, line₂, ?_, .keyword hk hderives, ?_⟩
    · simpa [print] using hkey.trans ((leads_blank _ _).trans hvalue)
    · simpa [unplaced, mapLines] using hsame
  · have hvalue : t.isWritable .value = true := by
      cases t with
      | keyword key value line => exact absurd ⟨key, value, line, rfl⟩ hkeyword
      | _ => simp_all [isWritable]
    exact (readsAs_value t hvalue hrest).imp fun ts value hderives hsame =>
      ⟨value, .value hderives, hsame⟩
termination_by 2 * sizeOf t + 1

/-- Items are read back. -/
theorem readsAs_items (items : List Term) (h : areWritable .argument items = true)
    {rest : List Char} (hrest : Delimited rest) (hne : items ≠ []) :
    ReadsAs Bare (List.map unplaced) (printItems layout items).toList (items.map unplaced)
      rest := by
  match items with
  | [] => exact absurd rfl hne
  | [t] =>
      simp only [areWritable, Bool.and_eq_true] at h
      exact (readsAs_argument t h.1 hrest).imp fun ts arg hderives hsame =>
        ⟨[arg], .one hderives, by simp [hsame]⟩
  | t :: u :: items =>
      rw [areWritable, Bool.and_eq_true] at h
      have hcomma : Delimited (',' :: ' ' :: ((printItems layout (u :: items)).toList ++ rest)) :=
        delimited_cons (by decide)
      intro line
      obtain ⟨ts, arg, line₁, hleads, hderives, hsame⟩ := readsAs_argument t h.1 hcomma line
      obtain ⟨comma, line₂, hmark, hlexeme⟩ := (writes_mark .comma
        (' ' :: ((printItems layout (u :: items)).toList ++ rest))).leads line₁
      obtain ⟨us, args, line₃, hleads', hderives', hsame'⟩ :=
        readsAs_items (u :: items) h.2 hrest (by simp) line₂
      refine ⟨ts ++ comma :: us, arg :: args, line₃, ?_, .cons hderives hlexeme hderives', ?_⟩
      · simpa [printItems, Mark.char] using
          hleads.trans (hmark.trans ((leads_blank _ _).trans hleads'))
      · rw [List.map_cons, List.map_cons, hsame, hsame']
termination_by 2 * sizeOf items

end

end Term

end GradingScript
