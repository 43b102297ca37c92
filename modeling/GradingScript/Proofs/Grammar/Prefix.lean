import GradingScript.Proofs.Grammar.Reading

/-!
# Prefixes of scripts

What the reader knows between two tokens says how the tokens before them begin a script: statements
on lines of their own, heads of blocks that are still open, and the beginning of the statement at
hand.  The grammar gives a meaning to each of these, and every token that is read keeps the
description true.  At the end of the script the description is a derivation of it.
-/

namespace GradingScript.Grammar

/-! ## Places where a statement may begin -/

/-- Statements with the ends of their lines: `NL* (stmt NL+)*`. -/
inductive Lead : List Token → List Term → Prop
  | nil : Lead [] []
  | newline {ts : List Token} {statements : List Term} {nl : Token} (hlead : Lead ts statements)
      (hnl : nl.lexeme = .newline) : Lead (ts ++ [nl]) statements
  | statement {ts us : List Token} {statements : List Term} {statement : Term} {nl : Token}
      (hlead : Lead ts statements) (hstatement : Statement us statement)
      (hnl : nl.lexeme = .newline) : Lead (ts ++ us ++ [nl]) (statements ++ [statement])

/-- The tokens up to a place where a statement may begin: `open = lead | open NAME args 'do' lead`.
They have opened the given blocks, innermost first, and the given statements stand before the place
in the innermost one. -/
inductive Opening : List Token → List OpenBlock → List Term → Prop
  | script {ts : List Token} {statements : List Term} (hlead : Lead ts statements) :
      Opening ts [] statements
  | block {ts us vs : List Token} {blocks : List OpenBlock} {before statements : List Term}
      {name opening : Token} {n label : String} {line : Int} (houter : Opening ts blocks before)
      (hname : name.lexeme = .name n) (hlabel : Arguments us [.literal (.string label) line])
      (hopening : opening.lexeme = .do) (hlead : Lead vs statements) :
      Opening (ts ++ (name :: us ++ [opening]) ++ vs)
        (⟨n, label, name.line, opening.line, before.reverse⟩ :: blocks) statements

theorem Opening.newline {ts : List Token} {blocks : List OpenBlock} {statements : List Term}
    {nl : Token} (h : Opening ts blocks statements) (hnl : nl.lexeme = .newline) :
    Opening (ts ++ [nl]) blocks statements := by
  cases h with
  | script hlead => exact .script (hlead.newline hnl)
  | block houter hname hlabel hopening hlead =>
      rw [List.append_assoc]
      exact .block houter hname hlabel hopening (hlead.newline hnl)

theorem Opening.statement {ts us : List Token} {blocks : List OpenBlock} {statements : List Term}
    {statement : Term} {nl : Token} (h : Opening ts blocks statements)
    (hstatement : Statement us statement) (hnl : nl.lexeme = .newline) :
    Opening (ts ++ us ++ [nl]) blocks (statements ++ [statement]) := by
  cases h with
  | script hlead => exact .script (hlead.statement hstatement hnl)
  | block houter hname hlabel hopening hlead =>
      rw [List.append_assoc, List.append_assoc, ← List.append_assoc _ us]
      exact .block houter hname hlabel hopening (hlead.statement hstatement hnl)

/-- A lead holds line feeds alone, or lines with line feeds around them. -/
theorem Lead.lines {ts : List Token} {statements : List Term} (h : Lead ts statements) :
    Newlines ts ∧ statements = [] ∨
      ∃ nls us nls', ts = nls ++ us ++ nls' ∧ Newlines nls ∧ Lines us statements ∧
        Newlines nls' ∧ nls' ≠ [] := by
  induction h with
  | nil => exact .inl ⟨newlines_nil, rfl⟩
  | @newline ts statements nl hlead hnl ih =>
      rcases ih with ⟨hts, rfl⟩ | ⟨nls, us, nls', rfl, hnls, hlines, hnls', -⟩
      · exact .inl ⟨hts.append (newlines_singleton hnl), rfl⟩
      · exact .inr ⟨nls, us, nls' ++ [nl], by simp, hnls, hlines,
          hnls'.append (newlines_singleton hnl), by simp⟩
  | @statement ts us statements statement nl hlead hstatement hnl ih =>
      rcases ih with ⟨hts, rfl⟩ | ⟨nls, vs, nls', rfl, hnls, hlines, hnls', hne⟩
      · exact .inr ⟨ts, us, [nl], rfl, hts, .one hstatement, newlines_singleton hnl, by simp⟩
      · exact .inr ⟨nls, vs ++ nls' ++ us, [nl], by simp, hnls, .more hlines hnls' hne hstatement,
          newlines_singleton hnl, by simp⟩

theorem Lead.body {ts : List Token} {statements : List Term} (h : Lead ts statements) :
    Body ts statements := by
  rcases h.lines with ⟨hts, rfl⟩ | ⟨nls, us, nls', rfl, hnls, hlines, hnls', -⟩
  · exact .empty hts
  · exact .lines hnls hlines hnls'

theorem Lead.body_concat {ts us : List Token} {statements : List Term} {statement : Term}
    (h : Lead ts statements) (hstatement : Statement us statement) :
    Body (ts ++ us) (statements ++ [statement]) := by
  rcases h.lines with ⟨hts, rfl⟩ | ⟨nls, vs, nls', rfl, hnls, hlines, hnls', hne⟩
  · simpa using Body.lines hts (.one hstatement) newlines_nil
  · simpa using Body.lines hnls (.more hlines hnls' hne hstatement) newlines_nil

/-- The `end` of a block closes it. -/
theorem Opening.close {ts us : List Token} {b : OpenBlock} {blocks : List OpenBlock}
    {statements children : List Term} {closing : Token} (h : Opening ts (b :: blocks) statements)
    (hchildren : ∀ vs, Lead vs statements → Body (vs ++ us) children)
    (hclosing : closing.lexeme = .end) :
    ∃ outer vs before, ts ++ us ++ [closing] = outer ++ vs ∧ b.before = before.reverse ∧
      Opening outer blocks before ∧ Statement vs (.block b.label b.line children b.keyword) := by
  cases h with
  | @block outer ls vs _ before _ name opening n label line houter hname hlabel hopening hlead =>
      refine ⟨outer, name :: ls ++ opening :: (vs ++ us) ++ [closing], before, by simp, rfl, houter,
        ?_⟩
      exact .block hname hlabel hopening (hchildren vs hlead) hclosing

/-! ## The statement at hand -/

/-- The tokens of a head. -/
inductive HeadTokens : Head → List Token → Prop
  | directive {at' name : Token} {n : String} (hat : at'.lexeme = .mark .at)
      (hname : name.lexeme = .name n) : HeadTokens ⟨true, n, at'.line⟩ [at', name]
  | call {name : Token} {n : String} (hname : name.lexeme = .name n) :
      HeadTokens ⟨false, n, name.line⟩ [name]

/-- The tokens before a value that is no argument. -/
inductive TargetTokens : Target → List Token → Prop
  | statement : TargetTokens .statement []
  | assignment {name equals : Token} {n : String} (hname : name.lexeme = .name n)
      (hequals : equals.lexeme = .mark .equals) :
      TargetTokens (.assignment n name.line) [name, equals]

/-- The tokens between the beginning of an argument and its value. -/
inductive KeyTokens : Option Key → List Token → Prop
  | none : KeyTokens none []
  | some {t : Token} {key : String} (ht : t.lexeme = .key key) :
      KeyTokens (some (key, t.line)) [t]

mutual

/-- The tokens of the statement up to the beginning of a sequence of arguments. -/
inductive Opened : Sequence → List Token → Prop
  | bare {head : Head} {ts : List Token} (hhead : HeadTokens head ts) : Opened (.bare head) ts
  | parens {head : Head} {ts : List Token} {opening : Token} (hhead : HeadTokens head ts)
      (hopening : opening.lexeme = .mark .openParen) : Opened (.parens head) (ts ++ [opening])
  | list {target : Target} {ts : List Token} {opening : Token} (htarget : TargetTokens target ts)
      (hopening : opening.lexeme = .mark .openBracket) :
      Opened (.list target opening.line) (ts ++ [opening])
  | inner {outer : Sequence} {before : List Term} {key : Option Key} {ts us : List Token}
      {opening : Token} (houter : Awaiting outer before ts) (hkey : KeyTokens key us)
      (hopening : opening.lexeme = .mark .openBracket) :
      Opened (.inner outer before key opening.line) (ts ++ us ++ [opening])

/-- The tokens of the statement up to the beginning of an argument; the earlier arguments of its
sequence are given last first. -/
inductive Awaiting : Sequence → List Term → List Token → Prop
  | first {sequence : Sequence} {ts nls : List Token} (hopened : Opened sequence ts)
      (hnls : Newlines nls) (hclosed : nls = [] ∨ sequence.IsClosed) :
      Awaiting sequence [] (ts ++ nls)
  | next {sequence : Sequence} {before : List Term} {ts nls : List Token} {comma : Token}
      (hbehind : Behind sequence before ts) (hcomma : comma.lexeme = .mark .comma)
      (hnls : Newlines nls) : Awaiting sequence before (ts ++ comma :: nls)

/-- The tokens of the statement up to the end of an argument, which is the first of the given
ones. -/
inductive Behind : Sequence → List Term → List Token → Prop
  | argument {sequence : Sequence} {before : List Term} {arg : Term} {ts us nls : List Token}
      (hawaiting : Awaiting sequence before ts) (harg : Argument us arg) (hnls : Newlines nls)
      (hclosed : nls = [] ∨ sequence.IsClosed) : Behind sequence (arg :: before) (ts ++ us ++ nls)

end

/-- The tokens of the statement up to the beginning of a value. -/
inductive SlotTokens : Slot → List Token → Prop
  | whole {target : Target} {ts : List Token} (htarget : TargetTokens target ts) :
      SlotTokens (.whole target) ts
  | argument {sequence : Sequence} {before : List Term} {key : Option Key} {ts us : List Token}
      (hawaiting : Awaiting sequence before ts) (hkey : KeyTokens key us) :
      SlotTokens (.argument sequence before key) (ts ++ us)

/-- The tokens of the statement up to a place within it. -/
inductive Within : Place → List Token → Prop
  | directive {at' : Token} (hat : at'.lexeme = .mark .at) : Within (.directive at'.line) [at']
  | headed {head : Head} {ts : List Token} (hhead : HeadTokens head ts) : Within (.headed head) ts
  | argument {sequence : Sequence} {before : List Term} {ts : List Token}
      (hawaiting : Awaiting sequence before ts) (hclosed : before ≠ [] ∨ sequence.IsClosed) :
      Within (.argument sequence before) ts
  | between {sequence : Sequence} {before : List Term} {ts : List Token}
      (hbehind : Behind sequence before ts) : Within (.between sequence before) ts
  | value {slot : Slot} {ts : List Token} (hslot : SlotTokens slot ts)
      (hne : slot ≠ .whole .statement) : Within (.value slot) ts
  | negative {slot : Slot} {ts : List Token} {minus : Token} (hslot : SlotTokens slot ts)
      (hminus : minus.lexeme = .mark .minus) : Within (.negative minus.line slot) (ts ++ [minus])
  | complete {head : Head} {args : List Term} {ts us : List Token} (hhead : HeadTokens head ts)
      (hargs : Arguments us args) : Within (.complete head args) (ts ++ us)

/-- A head with its arguments is a statement. -/
theorem HeadTokens.statement {head : Head} {ts us : List Token} {args : List Term}
    (h : HeadTokens head ts) (hargs : Arguments us args) :
    Statement (ts ++ us) (head.statement args) := by
  cases h with
  | directive hat hname => exact .directive hat hname hargs
  | call hname => exact .call hname hargs

theorem Opened.awaiting {sequence : Sequence} {ts : List Token} (h : Opened sequence ts) :
    Awaiting sequence [] ts := by
  simpa using Awaiting.first h newlines_nil (.inl rfl)

theorem Awaiting.behind {sequence : Sequence} {before : List Term} {ts us : List Token}
    {arg : Term} (h : Awaiting sequence before ts) (harg : Argument us arg) :
    Behind sequence (arg :: before) (ts ++ us) := by
  simpa using Behind.argument h harg newlines_nil (.inl rfl)

theorem Awaiting.newline {sequence : Sequence} {before : List Term} {ts : List Token} {nl : Token}
    (h : Awaiting sequence before ts) (hclosed : before ≠ [] ∨ sequence.IsClosed)
    (hnl : nl.lexeme = .newline) : Awaiting sequence before (ts ++ [nl]) := by
  cases h with
  | @first _ ts nls hopened hnls _ =>
      have hsequence : sequence.IsClosed := hclosed.resolve_left fun hne => hne rfl
      rw [List.append_assoc]
      exact .first hopened (hnls.append (newlines_singleton hnl)) (.inr hsequence)
  | @next _ _ ts nls comma hbehind hcomma hnls =>
      rw [List.append_assoc, List.cons_append]
      exact .next hbehind hcomma (hnls.append (newlines_singleton hnl))

theorem Behind.newline {sequence : Sequence} {before : List Term} {ts : List Token} {nl : Token}
    (h : Behind sequence before ts) (hclosed : sequence.IsClosed) (hnl : nl.lexeme = .newline) :
    Behind sequence before (ts ++ [nl]) := by
  cases h with
  | argument hawaiting harg hnls _ =>
      rw [List.append_assoc]
      exact .argument hawaiting harg (hnls.append (newlines_singleton hnl)) (.inr hclosed)

theorem Behind.ne_nil {sequence : Sequence} {before : List Term} {ts : List Token}
    (h : Behind sequence before ts) : before ≠ [] := by
  cases h
  simp

/-- Behind an argument stand the opening of its sequence and the items. -/
theorem Behind.items {sequence : Sequence} {before : List Term} {ts : List Token}
    (h : Behind sequence before ts) :
    ∃ os nls us, ts = os ++ (nls ++ us) ∧ Opened sequence os ∧ Newlines nls ∧
      Items us before.reverse := by
  -- `Behind` and `Awaiting` take turns, and every other turn takes an argument away.
  induction before generalizing ts with
  | nil => exact absurd rfl h.ne_nil
  | cons arg before ih =>
      cases h with
      | @argument _ _ _ ts us nls hawaiting harg hnls _ =>
          cases hawaiting with
          | @first _ os nls' hopened hnls' _ =>
              exact ⟨os, nls', us ++ nls, by simp, hopened, hnls', by simpa using .one harg hnls⟩
          | @next _ _ ts nls' comma hbehind hcomma hnls' =>
              obtain ⟨os, nls'', vs, rfl, hopened, hnls'', hitems⟩ := ih hbehind
              refine ⟨os, nls'', vs ++ comma :: nls' ++ us ++ nls, by simp, hopened, hnls'', ?_⟩
              simpa using hitems.more hcomma hnls' harg hnls

/-- Behind an argument without parentheses stand its head and the arguments. -/
theorem Behind.bare {head : Head} {before : List Term} {ts : List Token}
    (h : Behind (.bare head) before ts) :
    ∃ os us, ts = os ++ us ∧ HeadTokens head os ∧ Bare us before.reverse := by
  -- No line feeds stand in bare arguments but behind commas.
  have hopen : ¬ (Sequence.bare head).IsClosed := fun hclosed => hclosed rfl
  induction before generalizing ts with
  | nil => exact absurd rfl h.ne_nil
  | cons arg before ih =>
      cases h with
      | @argument _ _ _ ts us nls hawaiting harg _ hnls =>
          obtain rfl : nls = [] := hnls.resolve_right hopen
          cases hawaiting with
          | @first _ os nls' hopened _ hnls' =>
              obtain rfl : nls' = [] := hnls'.resolve_right hopen
              cases hopened with
              | bare hhead => exact ⟨os, us, by simp, hhead, by simpa using .one harg⟩
          | @next _ _ ts nls' comma hbehind hcomma hnls' =>
              obtain ⟨os, vs, rfl, hhead, hbare⟩ := ih hbehind
              refine ⟨os, vs ++ comma :: nls' ++ us, by simp, hhead, ?_⟩
              simpa using hbare.more hcomma hnls' harg

theorem Behind.enclosed {sequence : Sequence} {before : List Term} {ts : List Token}
    (h : Behind sequence before ts) :
    ∃ os us, ts = os ++ us ∧ Opened sequence os ∧ Enclosed us before.reverse := by
  obtain ⟨os, nls, us, rfl, hopened, hnls, hitems⟩ := h.items
  exact ⟨os, nls ++ us, rfl, hopened, .items hnls hitems⟩

theorem Awaiting.enclosed {sequence : Sequence} {before : List Term} {ts : List Token}
    (h : Awaiting sequence before ts) :
    ∃ os us, ts = os ++ us ∧ Opened sequence os ∧ Enclosed us before.reverse := by
  cases h with
  | @first _ ts nls hopened hnls _ => exact ⟨ts, nls, rfl, hopened, .empty hnls⟩
  | @next _ _ ts nls comma hbehind hcomma hnls =>
      obtain ⟨os, nls', us, rfl, hopened, hnls', hitems⟩ := hbehind.items
      exact ⟨os, nls' ++ us ++ comma :: nls, by simp, hopened, .trailing hnls' hitems hcomma hnls⟩

/-- A complete head stands behind its tokens and its arguments. -/
theorem Within.completed {p : Place} {ts : List Token} {head : Head} {args : List Term}
    (h : Within p ts) (hcompleted : p.completed? = some (head, args)) :
    ∃ os us, ts = os ++ us ∧ HeadTokens head os ∧ Arguments us args := by
  cases h with
  | headed hhead =>
      cases hcompleted
      exact ⟨ts, [], by simp, hhead, .none⟩
  | @between sequence before ts hbehind =>
      cases sequence with
      | bare head' =>
          cases hcompleted
          obtain ⟨os, us, rfl, hhead, hbare⟩ := hbehind.bare
          exact ⟨os, us, rfl, hhead, .bare hbare⟩
      | _ => cases hcompleted
  | complete hhead hargs =>
      cases hcompleted
      exact ⟨_, _, rfl, hhead, hargs⟩
  | _ => cases hcompleted

/-- The list that a bracket opens in a slot. -/
theorem SlotTokens.opened {slot : Slot} {ts : List Token} {opening : Token}
    (h : SlotTokens slot ts) (hopening : opening.lexeme = .mark .openBracket) :
    Opened (slot.list opening.line) (ts ++ [opening]) := by
  cases h with
  | whole htarget => exact .list htarget hopening
  | argument hawaiting hkey => exact .inner hawaiting hkey hopening

/-! ## What the reader knows -/

/-- The reader knows how the tokens so far begin a script. -/
inductive Reads : Reader → List Token → Prop
  | start {ts : List Token} {blocks : List OpenBlock} {statements : List Term}
      (hopening : Opening ts blocks statements) : Reads ⟨blocks, statements.reverse, .start⟩ ts
  | ended {ts us : List Token} {blocks : List OpenBlock} {statements : List Term}
      {statement : Term} (hopening : Opening ts blocks statements)
      (hstatement : Statement us statement) :
      Reads ⟨blocks, statement :: statements.reverse, .ended⟩ (ts ++ us)
  | within {ts us : List Token} {blocks : List OpenBlock} {statements : List Term} {p : Place}
      (hopening : Opening ts blocks statements) (hwithin : Within p us) :
      Reads ⟨blocks, statements.reverse, p⟩ (ts ++ us)

namespace Reads

/-- Before the first token nothing has been read. -/
theorem empty : Reads .empty [] :=
  .start (.script .nil)

/-- Where the statement at hand may end, the statements so far stand before it or end with it. -/
theorem settled {r : Reader} {ts : List Token} {statements : List Term} (h : Reads r ts)
    (hsettled : r.settled? = some statements) :
    Opening ts r.blocks statements ∨
      ∃ os us before statement, ts = os ++ us ∧ statements = before ++ [statement] ∧
        Opening os r.blocks before ∧ Statement us statement := by
  cases h with
  | start hopening =>
      obtain rfl : _ = statements := by simpa [Reader.settled?] using hsettled
      exact .inl hopening
  | ended hopening hstatement =>
      refine .inr ⟨_, _, _, _, rfl, ?_, hopening, hstatement⟩
      simpa [Reader.settled?, eq_comm] using hsettled
  | @within ts us blocks before p hopening hwithin =>
      rcases Reader.settled?_cases hsettled with
        ⟨hp | hp, -⟩ | ⟨head, args, hcompleted, hstatements⟩
      · cases hp
        cases hwithin
      · cases hp
        cases hwithin
      · obtain ⟨vs, ws, rfl, hhead, hargs⟩ := hwithin.completed hcompleted
        refine .inr ⟨ts, vs ++ ws, before, head.statement args, rfl, ?_, hopening,
          hhead.statement hargs⟩
        simpa using (congrArg List.reverse hstatements).symm

/-- A line feed ends the line of a statement that may end. -/
theorem newline {r : Reader} {ts : List Token} {statements : List Term} {nl : Token}
    (h : Reads r ts) (hsettled : r.settled? = some statements) (hnl : nl.lexeme = .newline) :
    Reads ⟨r.blocks, statements.reverse, .start⟩ (ts ++ [nl]) := by
  rcases h.settled hsettled with hopening | ⟨os, us, before, statement, rfl, rfl, hopening, hstat⟩
  · exact .start (hopening.newline hnl)
  · exact .start (hopening.statement hstat hnl)

/-- An `end` closes the innermost block behind a statement that may end. -/
theorem close {r : Reader} {ts : List Token} {statements : List Term} {closing : Token}
    {b : OpenBlock} {outer : List OpenBlock} (h : Reads r ts)
    (hsettled : r.settled? = some statements) (hblocks : r.blocks = b :: outer)
    (hclosing : closing.lexeme = .end) :
    Reads ⟨outer, .block b.label b.line statements b.keyword :: b.before, .ended⟩
      (ts ++ [closing]) := by
  have hsettled := h.settled hsettled
  rw [hblocks] at hsettled
  rcases hsettled with hopening | ⟨os, us, before, statement, rfl, rfl, hopening, hstat⟩
  · -- The `end` stands on a line of its own.
    have hchildren : ∀ vs, Lead vs statements → Body (vs ++ []) statements := fun vs hlead => by
      simpa using hlead.body
    obtain ⟨ps, vs, before, hts, hbefore, houter, hblock⟩ := hopening.close hchildren hclosing
    rw [List.append_nil] at hts
    rw [hts, hbefore]
    exact .ended houter hblock
  · -- The `end` stands behind the last statement of the block, on its line.
    obtain ⟨ps, vs, before, hts, hbefore, houter, hblock⟩ :=
      hopening.close (fun vs hlead => hlead.body_concat hstat) hclosing
    rw [hts, hbefore]
    exact .ended houter hblock

/-- A label and `do` behind the name that begins a statement open a block. -/
theorem opened {r r' : Reader} {ts : List Token} {head : Head} {args : List Term} {t : Token}
    (h : Reads r ts) (hcompleted : r.place.completed? = some (head, args)) (ht : t.lexeme = .do)
    (hread : r.readComplete head args t = .ok r') : Reads r' (ts ++ [t]) := by
  cases h with
  | start => cases hcompleted
  | ended => cases hcompleted
  | @within ts us blocks before p hopening hwithin =>
      obtain ⟨vs, ws, rfl, hhead, hargs⟩ := hwithin.completed hcompleted
      cases hhead with
      | directive => simp [Reader.readComplete, Reader.readEnd, ht] at hread
      | @call name n hname =>
          have hcall : (⟨false, n, name.line⟩ : Head).isDirective = false := rfl
          rcases Reader.readComplete_do ⟨blocks, before.reverse, p⟩ args hcall ht with
            ⟨label, line, rfl, hok⟩ | herror
          · have hblock := Opening.block hopening hname hargs ht .nil
            obtain rfl : _ = r' := Except.ok.inj (hok.symm.trans hread)
            simpa using start hblock
          · rw [herror] at hread
            cases hread

/-- A token that is read where a statement may end ends its line or its block. -/
theorem step_end {r r' : Reader} {ts : List Token} {statements : List Term} {t : Token}
    (h : Reads r ts) (hsettled : r.settled? = some statements)
    (ht : t.lexeme = .newline ∨ t.lexeme = .end) (hstep : r.step t = .ok r') :
    Reads r' (ts ++ [t]) := by
  rcases ht with hnl | hend
  · rw [Reader.step_newline hsettled hnl] at hstep
    cases hstep
    exact h.newline hsettled hnl
  · cases hblocks : r.blocks with
    | nil =>
        rw [Reader.step_end_of_nil hsettled hend hblocks] at hstep
        cases hstep
    | cons b outer =>
        rw [Reader.step_end hsettled hend hblocks] at hstep
        cases hstep
        exact h.close hsettled hblocks hend

/-- What follows a complete head and is read ends its arguments. -/
theorem readComplete {r r' : Reader} {ts : List Token} {head : Head} {args : List Term} {t : Token}
    (h : Reads r ts) (hcompleted : r.place.completed? = some (head, args))
    (hread : r.readComplete head args t = .ok r') : Reads r' (ts ++ [t]) := by
  by_cases hend : t.lexeme = .newline ∨ t.lexeme = .end
  · have hstep : r.step t = .ok r' := by
      rw [Reader.step_of_completed hcompleted (hend.imp id .inr), hread]
    exact h.step_end (Reader.settled?_of_completed hcompleted) hend hstep
  by_cases hdo : t.lexeme = .do
  · exact h.opened hcompleted hdo hread
  · have hnl : t.lexeme ≠ .newline := fun hnl => hend (.inl hnl)
    have hend' : t.lexeme ≠ .end := fun hclosing => hend (.inr hclosing)
    rw [Reader.readComplete_of_ne r args hnl hend' fun h => absurd h hdo] at hread
    cases hread

/-- A value that is complete fills its slot. -/
theorem fill {ts us vs : List Token} {blocks : List OpenBlock} {statements : List Term} {p : Place}
    {slot : Slot} {value : Term} (hopening : Opening ts blocks statements)
    (hslot : SlotTokens slot us) (hvalue : Value vs value)
    (hname : slot = .whole .statement → ¬ StartsWithName vs) :
    Reads ((⟨blocks, statements.reverse, p⟩ : Reader).fill slot value) (ts ++ (us ++ vs)) := by
  cases hslot with
  | whole htarget =>
      cases htarget with
      | statement => exact ended hopening (.value hvalue (hname rfl))
      | assignment hvariable hequals =>
          exact ended hopening (.assignment hvariable hequals hvalue)
  | @argument sequence before key us ws hawaiting hkey =>
      refine within hopening (.between ?_)
      cases hkey with
      | none => simpa [withKey] using hawaiting.behind (.value hvalue)
      | some ht => simpa [withKey] using hawaiting.behind (.keyword ht hvalue)

/-- A mark that closes a sequence completes a head or a list. -/
theorem closeSequence {ts us vs : List Token} {blocks : List OpenBlock} {statements : List Term}
    {p : Place} {sequence : Sequence} {before : List Term} {closing : Token}
    (hopening : Opening ts blocks statements) (hopened : Opened sequence us)
    (hargs : Enclosed vs before.reverse) (hclosing : sequence.isClosedBy closing.lexeme = true) :
    Reads ((⟨blocks, statements.reverse, p⟩ : Reader).close sequence before)
      (ts ++ (us ++ vs ++ [closing])) := by
  obtain ⟨mark, hmark, hlexeme⟩ := Sequence.isClosedBy_iff.1 hclosing
  cases hopened with
  | bare => cases hmark
  | @parens head us opening hhead hparen =>
      cases hmark
      have hcomplete := Within.complete hhead (.parens hparen hargs hlexeme)
      simpa [Reader.close, Reader.goto] using within hopening hcomplete
  | @list target us opening htarget hbracket =>
      cases hmark
      have hvalue := Value.list hbracket hargs hlexeme
      have hname : ¬ StartsWithName (opening :: vs ++ [closing]) := by
        simp [StartsWithName, hbracket]
      simpa [Reader.close] using fill (p := p) hopening (.whole htarget) hvalue fun _ => hname
  | @inner outer before' key us ws opening houter hkey hbracket =>
      cases hmark
      have hvalue := Value.list hbracket hargs hlexeme
      simpa [Reader.close] using fill (p := p) hopening (.argument houter hkey) hvalue (by simp)

/-- A token that is read as a value, or as the first of one, stands behind the slot. -/
theorem readValue {ts us : List Token} {blocks : List OpenBlock} {statements : List Term}
    {p : Place} {slot : Slot} {t : Token} {r' : Reader} (hopening : Opening ts blocks statements)
    (hslot : SlotTokens slot us) (hname : slot = .whole .statement → ∀ name, t.lexeme ≠ .name name)
    (hread : (⟨blocks, statements.reverse, p⟩ : Reader).readValue slot t = .ok r') :
    Reads r' (ts ++ (us ++ [t])) := by
  -- Only a statement that is a value has to begin with no name.
  have hnot : slot = .whole .statement → ¬ StartsWithName [t] := by
    rintro hslot ⟨u, hu, name, hlexeme⟩
    cases hu
    exact hname hslot name hlexeme
  cases hlexeme : t.lexeme with
  | literal kind value =>
      simp only [Reader.readValue, hlexeme, Except.ok.injEq] at hread
      exact hread ▸ fill hopening hslot (.literal hlexeme) hnot
  | name name =>
      simp only [Reader.readValue, hlexeme, Except.ok.injEq] at hread
      exact hread ▸ fill hopening hslot (.name hlexeme) hnot
  | atom name =>
      simp only [Reader.readValue, hlexeme, Except.ok.injEq] at hread
      exact hread ▸ fill hopening hslot (.atom hlexeme) hnot
  | mark mark =>
      cases mark with
      | minus =>
          simp only [Reader.readValue, hlexeme, Except.ok.injEq] at hread
          exact hread ▸ within hopening (.negative hslot hlexeme)
      | openBracket =>
          simp only [Reader.readValue, hlexeme, Except.ok.injEq] at hread
          have hclosed : (slot.list t.line).IsClosed := by
            simp [Sequence.IsClosed, Sequence.closing_list]
          have hawaiting := (hslot.opened hlexeme).awaiting
          exact hread ▸ within hopening (.argument hawaiting (.inr hclosed))
      | _ => simp [Reader.readValue, hlexeme] at hread
  | _ => simp [Reader.readValue, hlexeme] at hread

/-- A token that is read as an argument, or as the first of one, stands behind the ones before. -/
theorem readArgument {ts us : List Token} {blocks : List OpenBlock} {statements : List Term}
    {p : Place} {sequence : Sequence} {before : List Term} {t : Token} {r' : Reader}
    (hopening : Opening ts blocks statements) (hawaiting : Awaiting sequence before us)
    (hread : (⟨blocks, statements.reverse, p⟩ : Reader).readArgument sequence before t = .ok r') :
    Reads r' (ts ++ (us ++ [t])) := by
  cases hlexeme : t.lexeme with
  | key key =>
      simp only [Reader.readArgument, hlexeme, Except.ok.injEq] at hread
      exact hread ▸ within hopening (.value (.argument hawaiting (.some hlexeme)) (by simp))
  | _ =>
      simp only [Reader.readArgument, hlexeme] at hread
      have hslot := SlotTokens.argument hawaiting .none
      rw [List.append_nil] at hslot
      exact readValue hopening hslot (by simp) hread

/-- Where a statement may begin, a token is read as its first, or ends a line or a block. -/
theorem step_start {ts : List Token} {blocks : List OpenBlock} {statements : List Term} {t : Token}
    {r' : Reader} (hopening : Opening ts blocks statements)
    (hstep : (⟨blocks, statements.reverse, .start⟩ : Reader).step t = .ok r') :
    Reads r' (ts ++ [t]) := by
  by_cases hend : t.lexeme = .newline ∨ t.lexeme = .end
  · exact (start hopening).step_end rfl hend hstep
  · cases hlexeme : t.lexeme with
    | newline => exact absurd (.inl hlexeme) hend
    | «end» => exact absurd (.inr hlexeme) hend
    | name name =>
        simp only [Reader.step, Reader.readStart, hlexeme, Except.ok.injEq] at hstep
        exact hstep ▸ within hopening (.headed (.call hlexeme))
    | mark mark =>
        cases mark with
        | «at» =>
            simp only [Reader.step, Reader.readStart, hlexeme, Except.ok.injEq] at hstep
            exact hstep ▸ within hopening (.directive hlexeme)
        | _ =>
            simp only [Reader.step, Reader.readStart, hlexeme] at hstep
            exact readValue hopening (.whole .statement) (by simp [hlexeme]) hstep
    | _ =>
        simp only [Reader.step, Reader.readStart, hlexeme] at hstep
        exact readValue hopening (.whole .statement) (by simp [hlexeme]) hstep

/-- Behind a head, a token is read as its first argument, as the mark before a value, or as the end
of its arguments. -/
theorem step_headed {ts us : List Token} {blocks : List OpenBlock} {statements : List Term}
    {head : Head} {t : Token} {r' : Reader} (hopening : Opening ts blocks statements)
    (hhead : HeadTokens head us)
    (hstep : (⟨blocks, statements.reverse, .headed head⟩ : Reader).step t = .ok r') :
    Reads r' (ts ++ (us ++ [t])) := by
  have hreads : Reads ⟨blocks, statements.reverse, .headed head⟩ (ts ++ us) :=
    within hopening (.headed hhead)
  by_cases hbegins : Reader.startsArgument t.lexeme = true
  · rw [Reader.step_headed rfl hbegins] at hstep
    exact readArgument hopening (Opened.bare hhead).awaiting hstep
  by_cases hparen : t.lexeme = .mark .openParen
  · simp only [Reader.step, Reader.readHeaded, hparen, Except.ok.injEq] at hstep
    have hclosed : (Sequence.parens head).IsClosed := by simp [Sequence.IsClosed, Sequence.closing]
    have hawaiting := (Opened.parens hhead hparen).awaiting
    exact hstep ▸ within hopening (.argument hawaiting (.inr hclosed))
  by_cases hequals : t.lexeme = .mark .equals ∧ head.isDirective = false
  · obtain ⟨hequals, hcall⟩ := hequals
    cases hhead with
    | directive => cases hcall
    | call hname =>
        simp only [Reader.step, Reader.readHeaded, hequals, Except.ok.injEq] at hstep
        exact hstep ▸ within hopening (.value (.whole (.assignment hname hequals)) (by simp))
  · rw [Reader.step_headed_of_not rfl hbegins hparen hequals] at hstep
    rw [← List.append_assoc]
    exact hreads.readComplete rfl hstep

/-- Where an argument is to follow, a token is read as its first, or closes the sequence. -/
theorem step_argument {ts us : List Token} {blocks : List OpenBlock} {statements : List Term}
    {sequence : Sequence} {before : List Term} {t : Token} {r' : Reader}
    (hopening : Opening ts blocks statements) (hawaiting : Awaiting sequence before us)
    (hclosed : before ≠ [] ∨ sequence.IsClosed)
    (hstep : (⟨blocks, statements.reverse, .argument sequence before⟩ : Reader).step t = .ok r') :
    Reads r' (ts ++ (us ++ [t])) := by
  by_cases hnl : t.lexeme = .newline
  · simp only [Reader.step, hnl, Except.ok.injEq] at hstep
    exact hstep ▸ within hopening (.argument (hawaiting.newline hclosed hnl) hclosed)
  by_cases hclosing : sequence.isClosedBy t.lexeme = true
  · rw [Reader.step_closing_argument rfl hclosing] at hstep
    cases hstep
    obtain ⟨os, vs, rfl, hopened, hargs⟩ := hawaiting.enclosed
    exact closeSequence hopening hopened hargs hclosing
  · have hread : (⟨blocks, statements.reverse, .argument sequence before⟩ : Reader).readArgument
        sequence before t = .ok r' := by
      simpa [Reader.step, hnl, hclosing] using hstep
    exact readArgument hopening hawaiting hread

/-- Behind an argument, a token asks for another one, or ends the sequence. -/
theorem step_between {ts us : List Token} {blocks : List OpenBlock} {statements : List Term}
    {sequence : Sequence} {before : List Term} {t : Token} {r' : Reader}
    (hopening : Opening ts blocks statements) (hbehind : Behind sequence before us)
    (hstep : (⟨blocks, statements.reverse, .between sequence before⟩ : Reader).step t = .ok r') :
    Reads r' (ts ++ (us ++ [t])) := by
  by_cases hcomma : t.lexeme = .mark .comma
  · rw [Reader.step_comma rfl hcomma] at hstep
    cases hstep
    exact within hopening (.argument (.next hbehind hcomma newlines_nil) (.inl hbehind.ne_nil))
  by_cases hclosing : sequence.isClosedBy t.lexeme = true
  · rw [Reader.step_closing_between rfl hclosing] at hstep
    cases hstep
    obtain ⟨os, vs, rfl, hopened, hargs⟩ := hbehind.enclosed
    exact closeSequence hopening hopened hargs hclosing
  -- A line feed ends bare arguments, and no others.
  by_cases hclosed : sequence.IsClosed
  · by_cases hnl : t.lexeme = .newline
    · rw [Reader.step_newline_between rfl hclosed hnl] at hstep
      cases hstep
      exact within hopening (.between (hbehind.newline hclosed hnl))
    · rw [Reader.step_between_of_not rfl hclosed hcomma hnl hclosing] at hstep
      cases hstep
  · obtain ⟨head, rfl⟩ := Sequence.eq_bare_of_not_isClosed hclosed
    let r : Reader := ⟨blocks, statements.reverse, .between (.bare head) before⟩
    have hreads : Reads r (ts ++ us) := within hopening (.between hbehind)
    have hread : r.readComplete head before.reverse t = .ok r' := by
      simpa [Reader.step, hcomma] using hstep
    rw [← List.append_assoc]
    exact hreads.readComplete rfl hread

/-- A token that is read keeps what the reader knows true. -/
theorem step {r r' : Reader} {ts : List Token} {t : Token} (h : Reads r ts)
    (hstep : r.step t = .ok r') : Reads r' (ts ++ [t]) := by
  cases h with
  | start hopening => exact step_start hopening hstep
  | ended hopening hstatement =>
      by_cases hend : t.lexeme = .newline ∨ t.lexeme = .end
      · exact (ended hopening hstatement).step_end rfl hend hstep
      · cases hlexeme : t.lexeme <;> simp_all [Reader.step, Reader.readEnd]
  | @within ts us blocks statements p hopening hwithin =>
      rw [List.append_assoc]
      cases hwithin with
      | @directive at' hat =>
          cases hlexeme : t.lexeme with
          | name name =>
              simp only [Reader.step, hlexeme, Except.ok.injEq] at hstep
              exact hstep ▸ within hopening (.headed (.directive hat hlexeme))
          | _ => simp [Reader.step, hlexeme] at hstep
      | headed hhead => exact step_headed hopening hhead hstep
      | argument hawaiting hclosed => exact step_argument hopening hawaiting hclosed hstep
      | between hbehind => exact step_between hopening hbehind hstep
      | value hslot hne => exact readValue hopening hslot (fun h => absurd h hne) hstep
      | @negative slot us minus hslot hminus =>
          cases hlexeme : t.lexeme with
          | literal kind value =>
              cases kind with
              | number =>
                  cases hneg : value.neg? with
                  | none => simp [Reader.step, hlexeme, hneg] at hstep
                  | some negated =>
                      simp only [Reader.step, hlexeme, hneg, Except.ok.injEq] at hstep
                      have hname : ¬ StartsWithName [minus, t] := by
                        simp [StartsWithName, hminus]
                      have hfill := fill (p := .negative minus.line slot) hopening hslot
                        (.negative hminus hlexeme hneg) fun _ => hname
                      simpa [hstep] using hfill
              | _ => simp [Reader.step, hlexeme] at hstep
          | _ => simp [Reader.step, hlexeme] at hstep
      | complete hhead hargs =>
          have hreads := within hopening (.complete hhead hargs)
          rw [← List.append_assoc]
          exact hreads.readComplete rfl hstep

/-- Wherever tokens lead, the reader knows how they begin a script. -/
theorem steps {r r' : Reader} {ts us : List Token} (h : Reads r ts)
    (hsteps : r.steps us = .ok r') : Reads r' (ts ++ us) := by
  induction us generalizing r ts with
  | nil =>
      cases hsteps
      simpa using h
  | cons t us ih =>
      obtain ⟨next, hstep, hsteps⟩ := Reader.steps_cons_eq_ok.1 hsteps
      simpa using ih (h.step hstep) hsteps

end Reads

end GradingScript.Grammar
