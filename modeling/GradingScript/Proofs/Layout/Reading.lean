import GradingScript.Proofs.Concatenation.Reading
import GradingScript.Proofs.Grammar.Acceptance

/-!
# Reading whatever the layout

The layout of a script is on which lines its tokens stand, how its line ends are written, and how
many of them there are where there is one.  None of it changes what is read, but for lines.

* `withoutLayout` tokens have lost all of it: the first line end of several in a row is kept, and
  none in front of the first statement.
* `steps_collapse` drops line ends, which leave the reader where the one before them has brought it.
* `ofTokens_withoutLayout` says that the same is read without layout, with all lines forgotten.
-/

namespace GradingScript

namespace Token

/-- Whether a token ends a line. -/
def isNewline (t : Token) : Bool :=
  match t.lexeme with
  | .newline => true
  | _ => false

theorem isNewline_iff {t : Token} : t.isNewline = true ↔ t.lexeme = .newline := by
  unfold isNewline
  split <;> simp_all

/-- The token, with the text forgotten if it ends a line. -/
def anyNewline (t : Token) : Token :=
  if t.isNewline then { t with text := "" } else t

@[simp] theorem lexeme_anyNewline (t : Token) : t.anyNewline.lexeme = t.lexeme := by
  unfold anyNewline
  split <;> rfl

/-- Tokens without the line ends that have another one right in front of them; `after` says whether
one stands in front of the first token. -/
def collapse (after : Bool) : List Token → List Token
  | [] => []
  | t :: ts =>
    if t.isNewline && after then collapse true ts else t :: collapse t.isNewline ts

/-- Tokens without their layout.  The start of a script is as good as the end of a line. -/
def withoutLayout (ts : List Token) : List Token :=
  ((collapse true ts).map anyNewline).map (mapLines fun _ => 0)

theorem collapse_sublist (after : Bool) (ts : List Token) : (collapse after ts).Sublist ts := by
  induction ts generalizing after with
  | nil => exact .slnil
  | cons t ts ih =>
      unfold collapse
      split
      · exact (ih true).cons t
      · exact (ih t.isNewline).cons_cons t

theorem collapse_append_eof (after : Bool) (ts : List Token) {eof : Token}
    (heof : eof.lexeme = .eof) : collapse after (ts ++ [eof]) = collapse after ts ++ [eof] := by
  have hne : eof.isNewline = false := by simp [isNewline, heof]
  induction ts generalizing after with
  | nil => simp [collapse, hne]
  | cons t ts ih =>
      simp only [List.cons_append, collapse]
      split
      · exact ih true
      · rw [ih, List.cons_append]

end Token

namespace Reader

/-! ## One token -/

/-- How a line end is written does not matter. -/
theorem step_anyNewline (r : Reader) (t : Token) : r.step t.anyNewline = r.step t := by
  by_cases hnl : t.isNewline = true
  · obtain ⟨lexeme, line, text⟩ := t
    obtain rfl : lexeme = .newline := Token.isNewline_iff.1 hnl
    obtain ⟨blocks, statements, place⟩ := r
    cases place with
    | between sequence before => cases sequence <;> rfl
    | _ => rfl
  · rw [Token.anyNewline, if_neg hnl]

/-- A reader that stays where it is at the end of a line. -/
def Idle (r : Reader) : Prop :=
  ∀ t, t.lexeme = .newline → r.step t = .ok r

theorem idle_of_start {r : Reader} (h : r.place = .start) : r.Idle := by
  intro t ht
  obtain ⟨blocks, statements, place⟩ := r
  obtain rfl : place = .start := h
  simp [step, readStart, readEnd, ht, goto]

/-- Behind a line end nothing is left for another one to do. -/
theorem idle_of_step {r r' : Reader} {t : Token} (ht : t.lexeme = .newline)
    (h : r.step t = .ok r') : r'.Idle := by
  cases hsettled : r.settled? with
  | some statements =>
      rw [step_newline hsettled ht] at h
      cases h
      exact idle_of_start rfl
  | none =>
      -- In brackets and behind a comma the line end has done nothing either.
      cases hplace : r.place with
      | argument sequence before =>
          obtain rfl := Except.ok.inj ((step_newline_argument hplace ht).symm.trans h)
          exact fun u hu => step_newline_argument hplace hu
      | between sequence before =>
          have hclosed : sequence.IsClosed := by
            intro hnot
            obtain ⟨head, rfl⟩ := Sequence.eq_bare_of_not_isClosed (fun hclosed => hclosed hnot)
            simp [settled?, hplace] at hsettled
          obtain rfl := Except.ok.inj ((step_newline_between hplace hclosed ht).symm.trans h)
          exact fun u hu => step_newline_between hplace hclosed hu
      | directive => simp [step, hplace, ht] at h
      | value => simp [step, hplace, readValue, ht] at h
      | negative => simp [step, hplace, ht] at h
      | _ => simp [settled?, hplace] at hsettled

/-! ## Runs -/

theorem steps_anyNewline (r : Reader) (ts : List Token) :
    r.steps (ts.map Token.anyNewline) = r.steps ts := by
  induction ts generalizing r with
  | nil => rfl
  | cons t ts ih => simp only [List.map_cons, steps, step_anyNewline, ih]

/-- Line ends behind another one can be left out. -/
theorem steps_collapse {r : Reader} {after : Bool} (h : after = true → r.Idle) (ts : List Token) :
    r.steps (Token.collapse after ts) = r.steps ts := by
  induction ts generalizing r after with
  | nil => rfl
  | cons t ts ih =>
      unfold Token.collapse
      split
      · next hdrop =>
          rw [Bool.and_eq_true] at hdrop
          have hidle := h hdrop.2
          rw [steps_cons_of_ok (hidle t (Token.isNewline_iff.1 hdrop.1))]
          exact ih fun _ => hidle
      · cases hstep : r.step t with
        | error e => rw [steps_cons_of_error hstep, steps_cons_of_error hstep]
        | ok r' =>
            rw [steps_cons_of_ok hstep, steps_cons_of_ok hstep]
            exact ih fun hnl => idle_of_step (Token.isNewline_iff.1 hnl) hstep

end Reader

/-! ## Scripts -/

namespace Script

open Grammar

/-- A script is read the same on other lines. -/
theorem ofTokens_mapLines (f : Int → Int) {ts : List Token} (hend : Terminated ts) :
    ofTokens (ts.map (Token.mapLines f)) =
      mapOutcome f (List.map (Term.mapLines f)) (ofTokens ts) := by
  obtain ⟨body, eof, rfl, heof, hbody⟩ := hend
  have hbody' : ∀ t ∈ body.map (Token.mapLines f), t.lexeme ≠ .eof := by
    intro t ht
    obtain ⟨u, hu, rfl⟩ := List.mem_map.1 ht
    simpa using hbody u hu
  have heof' : (eof.mapLines f).lexeme = .eof := by simpa using heof
  have hsteps : Reader.empty.steps (body.map (Token.mapLines f)) =
      mapOutcome f (Reader.behind [] f) (Reader.empty.steps body) :=
    Reader.steps_behind [] f Reader.empty body
  rw [List.map_append, List.map_singleton, ofTokens_concat hbody' heof',
    ofTokens_concat hbody heof, hsteps]
  cases Reader.empty.steps body with
  | error e => rfl
  | ok r => simpa using Reader.finish_behind [] f r eof

/-- A script is read the same without its layout, with its lines forgotten. -/
theorem ofTokens_withoutLayout {ts : List Token} (hend : Terminated ts) :
    ofTokens (Token.withoutLayout ts) =
      mapOutcome (fun _ => 0) (List.map Term.unplaced) (ofTokens ts) := by
  obtain ⟨body, eof, rfl, heof, hbody⟩ := hend
  let kept := (Token.collapse true body).map Token.anyNewline
  have hkept : ∀ t ∈ kept, t.lexeme ≠ .eof := by
    intro t ht
    obtain ⟨u, hu, rfl⟩ := List.mem_map.1 ht
    rw [Token.lexeme_anyNewline]
    exact hbody u ((Token.collapse_sublist true body).subset hu)
  have heof' : eof.anyNewline = eof := by simp [Token.anyNewline, Token.isNewline, heof]
  have hsteps : Reader.empty.steps kept = Reader.empty.steps body := by
    rw [Reader.steps_anyNewline, Reader.steps_collapse fun _ => Reader.idle_of_start rfl]
  have hread : ofTokens (kept ++ [eof]) = ofTokens (body ++ [eof]) := by
    rw [ofTokens_concat hkept heof, ofTokens_concat hbody heof, hsteps]
  rw [Token.withoutLayout, Token.collapse_append_eof true body heof, List.map_append,
    List.map_singleton, heof', ofTokens_mapLines _ ⟨kept, eof, rfl, heof, hkept⟩, hread]
  rfl

end Script

end GradingScript
