import GradingScript.Proofs.Grammar.Acceptance
import GradingScript.Proofs.Printing.Reading
import GradingScript.Proofs.Token.Scanned

/-!
# Printed scripts are read back

A script that is printed, with whatever layout of its arguments, is read back as the same script up
to lines.
-/

namespace GradingScript

open Printing Grammar

namespace Term

variable (layout : Term → Layout)

/-! ## Heads -/

theorem delimited_arrange (place : Layout) (isEmpty : Bool) (args : String) {rest : List Char}
    (hrest : Delimited rest) : Delimited ((place.arrange isEmpty args).toList ++ rest) := by
  have hblank : ∀ text, Delimited (' ' :: text) := fun text => delimited_cons (by decide)
  have hparen : ∀ text, Delimited ('(' :: text) := fun text => delimited_cons (by decide)
  obtain ⟨inParens, afterBlank⟩ := place
  cases inParens <;> cases afterBlank <;> cases isEmpty <;>
    simp [Layout.arrange, hblank, hparen, hrest]

/-- The arguments of a head are read back, however they stand behind it. -/
theorem readsAs_arguments (place : Layout) {args : List Term}
    (h : areWritable .argument args = true) {rest : List Char} (hrest : Delimited rest) :
    ReadsAs Arguments (List.map unplaced)
      (place.arrange args.isEmpty (printItems layout args)).toList (args.map unplaced) rest := by
  have hparens : ReadsAs Arguments (List.map unplaced)
      ('(' :: (printItems layout args).toList ++ [')']) (args.map unplaced) rest := by
    intro line
    have hclosing : Delimited (')' :: rest) := delimited_cons (by decide)
    obtain ⟨opening, line₁, hopening, hopen⟩ :=
      (writes_mark .openParen ((printItems layout args).toList ++ ')' :: rest)).leads line
    obtain ⟨ts, args', line₂, hargs, henclosed, hsame⟩ :=
      readsAs_enclosed (by rintro rfl; rfl) (readsAs_items layout args h hclosing) line₁
    obtain ⟨closing, line₃, hclosing, hclose⟩ := (writes_mark .closeParen rest).leads line₂
    refine ⟨opening :: ts ++ [closing], args', line₃, ?_, .parens hopen henclosed hclose, hsame⟩
    simpa [Mark.char] using hopening.trans (hargs.trans hclosing)
  have hbare : ReadsAs Arguments (List.map unplaced) (printItems layout args).toList
      (args.map unplaced) rest := by
    cases args with
    | nil =>
        intro line
        exact ⟨[], [], line, leads_nil line rest, .none, rfl⟩
    | cons t args =>
        exact (readsAs_items layout (t :: args) h hrest (by simp)).imp fun ts args' hargs hsame =>
          ⟨args', .bare hargs, hsame⟩
  obtain ⟨inParens, afterBlank⟩ := place
  cases inParens with
  | true =>
      cases afterBlank with
      | true => simpa [Layout.arrange] using hparens.blank
      | false => simpa [Layout.arrange] using hparens
  | false =>
      cases afterBlank with
      | true => simpa [Layout.arrange] using hbare.blank
      | false =>
          -- Bare arguments get a blank in any case.
          cases args with
          | nil => exact hbare
          | cons t args => simpa [Layout.arrange] using hbare.blank

/-! ## Statements -/

theorem readsAs_directive {name : String} {line : Int} {args : List Term}
    (hname : isFreeName name = true) (hargs : areWritable .argument args = true)
    {rest : List Char} (hrest : Delimited rest) :
    ReadsAs Statement unplaced ((directive name line args).print layout).toList
      (directive name line args).unplaced rest := by
  intro line'
  let place := layout (.directive name line args)
  let text := (place.arrange args.isEmpty (printItems layout args)).toList
  obtain ⟨mark, line₁, hmark, hat⟩ :=
    (writes_mark .at (name.toList ++ (text ++ rest))).leads line'
  obtain ⟨n, line₂, hword, hn⟩ :=
    (writes_name hname (delimited_arrange place args.isEmpty _ hrest)).leads line₁
  obtain ⟨ts, args', line₃, htext, hderives, hsame⟩ :=
    readsAs_arguments layout place hargs hrest line₂
  refine ⟨mark :: n :: ts, _, line₃, ?_, .directive hat hn hderives, ?_⟩
  · simpa [print, Mark.char] using hmark.trans (hword.trans htext)
  · simpa [unplaced, mapLines] using hsame

theorem readsAs_call {name : String} {line : Int} {args : List Term}
    (hname : isFreeName name = true) (hargs : areWritable .argument args = true)
    {rest : List Char} (hrest : Delimited rest) :
    ReadsAs Statement unplaced ((call name line args).print layout).toList
      (call name line args).unplaced rest := by
  intro line'
  let place := layout (.call name line args)
  obtain ⟨n, line₁, hword, hn⟩ :=
    (writes_name hname (delimited_arrange place args.isEmpty _ hrest)).leads line'
  obtain ⟨ts, args', line₂, htext, hderives, hsame⟩ :=
    readsAs_arguments layout place hargs hrest line₁
  refine ⟨n :: ts, _, line₂, ?_, .call hn hderives, ?_⟩
  · simpa [print] using hword.trans htext
  · simpa [unplaced, mapLines] using hsame

theorem readsAs_assignment {name : String} {value : Term} {line : Int}
    (hname : isFreeName name = true) (hvalue : value.isWritable .value = true)
    {rest : List Char} (hrest : Delimited rest) :
    ReadsAs Statement unplaced ((assignment name value line).print layout).toList
      (assignment name value line).unplaced rest := by
  intro line'
  let text := ' ' :: ((print layout value).toList ++ rest)
  have hblank : Delimited (' ' :: Mark.equals.char :: text) := delimited_cons (by decide)
  obtain ⟨n, line₁, hword, hn⟩ := (writes_name hname hblank).leads line'
  obtain ⟨mark, line₂, hmark, hequals⟩ := (writes_mark .equals text).leads line₁
  obtain ⟨ts, value', line₃, htext, hderives, hsame⟩ :=
    (readsAs_value layout value hvalue hrest).blank line₂
  refine ⟨n :: mark :: ts, _, line₃, ?_, .assignment hn hequals hderives, ?_⟩
  · simpa [print, text, Mark.char] using
      hword.trans ((leads_blank _ _).trans (hmark.trans htext))
  · simpa [unplaced, mapLines] using hsame

/-- A value that is no name may stand as a statement. -/
theorem readsAs_valueStatement {t : Term} (h : t.isWritable .value = true)
    (hname : ∀ name line, t ≠ .identifier name line) {rest : List Char} (hrest : Delimited rest) :
    ReadsAs Statement unplaced (t.print layout).toList t.unplaced rest := by
  refine (readsAs_value layout t h hrest).imp fun ts value hderives hsame => ?_
  have hvalue : ∀ name line, value ≠ .identifier name line := by
    rintro name line rfl
    cases t with
    | identifier name line => exact hname name line rfl
    | _ => cases hsame
  exact ⟨value, .value hderives (hderives.not_startsWithName hvalue), hsame⟩

/-- A block is read back if its statements are. -/
theorem readsAs_block {label kind : String} {line : Int} {children : List Term}
    (hkind : isFreeName kind = true) {rest : List Char} (hrest : Delimited rest)
    (hchildren : ReadsAs Body (List.map unplaced) (printLines layout true children).toList
      (children.map unplaced) ("end".toList ++ rest)) :
    ReadsAs Statement unplaced ((block label line children kind).print layout).toList
      (block label line children kind).unplaced rest := by
  intro line'
  let body := (printLines layout true children).toList ++ ("end".toList ++ rest)
  let behind := ' ' :: ("do".toList ++ '\n' :: body)
  have hquoted : Delimited (' ' :: ((quoted label).toList ++ behind)) := delimited_cons (by decide)
  have hblank : Delimited behind := delimited_cons (by decide)
  have hfeed : Delimited ('\n' :: body) := delimited_cons (by decide)
  have hdo : isName "do" = true := isName_of_mem_reservedWords (by decide)
  have hend : isName "end" = true := isName_of_mem_reservedWords (by decide)
  obtain ⟨n, line₁, hleads₁, hn⟩ := (writes_name hkind hquoted).leads line'
  obtain ⟨l, line₂, hleads₂, hl⟩ := (writes_string label hblank).leads line₁
  obtain ⟨opening, line₃, hleads₃, hopening⟩ := (writes_word hdo hfeed).leads line₂
  obtain ⟨nl, line₄, hleads₄, hnl⟩ := (writes_newline body).leads line₃
  obtain ⟨us, children', line₅, hleads₅, hbody, hsame⟩ := hchildren line₄
  obtain ⟨closing, line₆, hleads₆, hclosing⟩ := (writes_word hend hrest).leads line₅
  have harguments : Arguments [l] [.literal (.string label) l.line] :=
    .bare (.one (.value (.literal hl)))
  refine ⟨n :: [l] ++ opening :: (nl :: us) ++ [closing], _, line₆, ?_,
    .block hn harguments hopening (hbody.newline hnl) hclosing, ?_⟩
  · have hinside := hleads₃.trans (hleads₄.trans (hleads₅.trans hleads₆))
    have hlabel := hleads₂.trans ((leads_blank _ _).trans hinside)
    simpa [print, body, behind] using hleads₁.trans ((leads_blank _ _).trans hlabel)
  · simpa [unplaced, mapLines] using hsame

mutual

/-- A statement is read back. -/
theorem readsAs_statement (t : Term) (h : t.isWritable .statement = true) {rest : List Char}
    (hrest : Delimited rest) :
    ReadsAs Statement unplaced (t.print layout).toList t.unplaced rest := by
  cases t with
  | directive name line args =>
      simp only [isWritable, Bool.and_eq_true] at h
      exact readsAs_directive layout h.1.2 h.2 hrest
  | call name line args =>
      simp only [isWritable, Bool.and_eq_true] at h
      exact readsAs_call layout h.1.2 h.2 hrest
  | assignment name value line =>
      simp only [isWritable, Bool.and_eq_true] at h
      exact readsAs_assignment layout h.1.2 h.2 hrest
  | literal value line =>
      exact readsAs_valueStatement layout (t := .literal value line) h (by simp) hrest
  | atom name line =>
      exact readsAs_valueStatement layout (t := .atom name line) h (by simp) hrest
  | listNode items line =>
      exact readsAs_valueStatement layout (t := .listNode items line) h (by simp) hrest
  | block label line children kind =>
      simp only [isWritable, Bool.and_eq_true] at h
      exact readsAs_block layout h.1.2 hrest (readsAs_lines true children h.2 (.inl rfl))
  | _ => simp [isWritable] at h
termination_by 2 * sizeOf t

/-- Statements on lines of their own are read back.  Behind a last one without a line feed only a
delimiter may stand. -/
theorem readsAs_lines (closed : Bool) (ts : List Term) (h : areWritable .statement ts = true)
    {rest : List Char} (hrest : closed = true ∨ Delimited rest) :
    ReadsAs Body (List.map unplaced) (printLines layout closed ts).toList (ts.map unplaced)
      rest := by
  intro line
  match ts with
  | [] => exact ⟨[], [], line, leads_nil line rest, .empty newlines_nil, rfl⟩
  | [t] =>
      simp only [areWritable, Bool.and_eq_true] at h
      cases closed with
      | true =>
          have hfeed : Delimited ('\n' :: rest) := delimited_cons (by decide)
          obtain ⟨us, t', line₁, hleads₁, hstatement, hsame⟩ := readsAs_statement t h.1 hfeed line
          obtain ⟨nl, line₂, hleads₂, hnl⟩ := (writes_newline rest).leads line₁
          refine ⟨us ++ [nl], [t'], line₂, ?_, .cons hstatement hnl (.empty newlines_nil), ?_⟩
          · simpa [printLines] using hleads₁.trans hleads₂
          · simp [hsame]
      | false =>
          -- No line feed stands behind the last statement, so the delimiter is needed.
          have hrest : Delimited rest := hrest.resolve_left (by simp)
          obtain ⟨us, t', line₁, hleads, hstatement, hsame⟩ := readsAs_statement t h.1 hrest line
          refine ⟨us, [t'], line₁, ?_, .statement hstatement, ?_⟩
          · simpa [printLines] using hleads
          · simp [hsame]
  | t :: u :: ts =>
      rw [areWritable, Bool.and_eq_true] at h
      let lines := (printLines layout closed (u :: ts)).toList ++ rest
      have hfeed : Delimited ('\n' :: lines) := delimited_cons (by decide)
      obtain ⟨us, t', line₁, hleads₁, hstatement, hsame⟩ := readsAs_statement t h.1 hfeed line
      obtain ⟨nl, line₂, hleads₂, hnl⟩ := (writes_newline lines).leads line₁
      obtain ⟨vs, ts', line₃, hleads₃, hbody, hsame'⟩ :=
        readsAs_lines closed (u :: ts) h.2 hrest line₂
      refine ⟨us ++ nl :: vs, t' :: ts', line₃, ?_, .cons hstatement hnl hbody, ?_⟩
      · simpa [printLines, lines] using hleads₁.trans (hleads₂.trans hleads₃)
      · rw [List.map_cons, List.map_cons, hsame, hsame']
termination_by 2 * sizeOf ts

end

end Term

/-! ## Scripts -/

/-- A script that can be written is read back from its text, however its arguments stand and
whether or not its last line ends in a line feed, as the same script up to lines. -/
theorem Script.ofText_print (layout : Term → Layout) (closed : Bool) {script : Script}
    (h : Term.areWritable .statement script = true) :
    ∃ script', Script.ofText (Script.print layout closed script) = .ok script' ∧
      script'.map Term.unplaced = script.map Term.unplaced := by
  obtain ⟨ts, script', line', hleads, hbody, hsame⟩ :=
    Term.readsAs_lines layout closed script h (.inr delimited_nil) 1
  have hscan : Token.scan 1 (Script.print layout closed script).toList =
      .ok (ts ++ [⟨.eof, line', ""⟩]) := by
    rw [List.append_nil, Leads, Token.scan_nil] at hleads
    exact hleads
  obtain ⟨body, heq, hne⟩ := Token.eq_concat_of_scan hscan
  obtain ⟨rfl, -⟩ := List.append_inj' heq rfl
  refine ⟨script', ?_, hsame⟩
  rw [ofText_of_scan hscan]
  exact ofTokens_of_body (fun t ht => (hne t ht).2) rfl hbody

/-- Reserved words are keys and atoms here, a string holds quotes and a line feed, and the call
alone has its arguments in parentheses. -/
theorem Script.ofText_print_block :
    let layout : Term → Layout := fun t => ⟨t matches .call .., false⟩
    let item : Term := .keyword "end" (.literal (.number (.int (-20))) 7) 7
    let script : Script :=
      [.directive "lang" 3 [.literal (.string "a\"\n\\") 3, .identifier "b" 3],
        .block "" 3 [.call "run!" 4 [.atom "do" 5, .listNode [item] 5], .listNode [] 5] "step",
        .assignment "x" (.literal .nil 9) 9]
    Script.print layout false script =
        "@lang \"a\\\"\n\\\\\", b\nstep \"\" do\nrun!(:do, [end: -20])\n[]\nend\nx = nil" ∧
      Term.areWritable .statement script = true ∧
      ∃ script', Script.ofText (Script.print layout false script) = .ok script' ∧
        script'.map Term.unplaced = script.map Term.unplaced := by
  intro layout item script
  have hwritable : Term.areWritable .statement script = true := by decide +kernel
  exact ⟨by decide +kernel, hwritable, ofText_print layout false hwritable⟩

end GradingScript
