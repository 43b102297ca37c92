import GradingScript.Proofs.Reader.Completion

/-!
# What a token does to the open blocks

A line feed ends a statement, `do` opens a block, `end` closes one, and every other token leads on
within a statement.

* `Moves` lists what a token does, and `moves_of_step` says that there is nothing else.
* `Token.unclosed` are the tokens `do` that no `end` has closed.  The reader keeps their lines:
  `opened_of_step` is the step and `opened_of_steps` the run.
-/

namespace GradingScript

/-- Whether a lexeme neither ends a line nor opens or closes a block. -/
def Lexeme.leadsOn : Lexeme → Bool
  | .newline | .do | .end => false
  | _ => true

namespace Reader

/-- What reading a token does.  Within an open sequence a line feed does nothing. -/
inductive Moves (r : Reader) (t : Token) (r' : Reader) : Prop
  | ends (ht : t.lexeme = .newline) (hsettled : r.settled?.isSome = true)
      (hblocks : r'.blocks = r.blocks) (hplace : r'.place = .start) : Moves r t r'
  | stays (ht : t.lexeme = .newline) (hunsettled : r.settled? = none) (hsame : r' = r) :
      Moves r t r'
  | opens {b : OpenBlock} (ht : t.lexeme = .do) (hblocks : r'.blocks = b :: r.blocks)
      (hopened : b.opened = t.line) (hplace : r'.place = .start) : Moves r t r'
  | closes {b : OpenBlock} (ht : t.lexeme = .end) (hsettled : r.settled?.isSome = true)
      (hblocks : r.blocks = b :: r'.blocks) (hplace : r'.place = .ended) : Moves r t r'
  | leads (ht : t.lexeme.leadsOn = true) (hblocks : r'.blocks = r.blocks)
      (hplace : r'.place ≠ .start) : Moves r t r'

/-! ## Values and sequences -/

theorem place_fill (r : Reader) (slot : Slot) (value : Term) :
    (r.fill slot value).place ≠ .start := by
  cases slot with
  | whole target => cases target <;> simp [fill, push]
  | argument sequence before key => simp [fill, goto]

variable {r r' s : Reader} {t : Token}

theorem moves_fill {slot : Slot} {value : Term} (ht : t.lexeme.leadsOn = true) :
    Moves r t (r.fill slot value) :=
  .leads ht (fill_blocks r slot value) (place_fill r slot value)

theorem moves_goto {place : Place} (ht : t.lexeme.leadsOn = true) (hplace : place ≠ .start) :
    Moves r t (r.goto place) :=
  .leads ht rfl hplace

theorem moves_close {sequence : Sequence} {before : List Term} (ht : t.lexeme.leadsOn = true) :
    Moves r t (r.close sequence before) := by
  cases sequence with
  | bare head => exact moves_goto ht nofun
  | parens head => exact moves_goto ht nofun
  | list target line => exact moves_fill ht
  | inner outer earlier key line =>
      show Moves r t (r.fill (.argument outer earlier key) _)
      exact moves_fill ht

theorem leadsOn_of_isClosedBy {sequence : Sequence} {lexeme : Lexeme}
    (h : sequence.isClosedBy lexeme = true) : lexeme.leadsOn = true := by
  cases lexeme with
  | mark m => rfl
  | _ => cases h

theorem moves_of_readValue {slot : Slot} (h : r.readValue slot t = .ok r') : Moves r t r' := by
  unfold readValue at h
  split at h
  · next hlexeme =>
      cases h
      exact moves_fill (by rw [hlexeme]; rfl)
  · next hlexeme =>
      cases h
      exact moves_fill (by rw [hlexeme]; rfl)
  · next hlexeme =>
      cases h
      exact moves_fill (by rw [hlexeme]; rfl)
  · next hlexeme =>
      cases h
      exact moves_goto (by rw [hlexeme]; rfl) nofun
  · next hlexeme =>
      cases h
      exact moves_goto (by rw [hlexeme]; rfl) nofun
  · cases h

theorem moves_of_readArgument {sequence : Sequence} {before : List Term}
    (h : r.readArgument sequence before t = .ok r') : Moves r t r' := by
  unfold readArgument at h
  split at h
  · next hlexeme =>
      cases h
      exact moves_goto (by rw [hlexeme]; rfl) nofun
  · exact moves_of_readValue h

/-! ## Statements -/

/-- The end of a statement, read from where the statement has been put among the others. -/
theorem moves_of_readEnd (hsettled : r.settled?.isSome = true) (h : s.readEnd t = .ok r')
    (hblocks : s.blocks = r.blocks) : Moves r t r' := by
  unfold readEnd at h
  split at h
  · next hlexeme =>
      cases h
      exact .ends hlexeme hsettled hblocks rfl
  · next hlexeme =>
      split at h
      · cases h
      · next b outer houter =>
          cases h
          exact .closes hlexeme hsettled (hblocks.symm.trans houter) rfl
  · cases h

theorem moves_of_readComplete {head : Head} {args : List Term}
    (hsettled : r.settled?.isSome = true) (h : r.readComplete head args t = .ok r') :
    Moves r t r' := by
  unfold readComplete at h
  split at h
  · next hlexeme _ =>
      split at h
      · cases h
        exact .opens hlexeme rfl rfl rfl
      · cases h
  · exact moves_of_readEnd hsettled h rfl

theorem moves_of_readHeaded {head : Head} (hsettled : r.settled?.isSome = true)
    (h : r.readHeaded head t = .ok r') : Moves r t r' := by
  unfold readHeaded at h
  split at h
  · next hlexeme =>
      cases h
      exact moves_goto (by rw [hlexeme]; rfl) nofun
  · next hlexeme _ =>
      cases h
      exact moves_goto (by rw [hlexeme]; rfl) nofun
  · split at h
    · exact moves_of_readArgument h
    · exact moves_of_readComplete hsettled h

theorem moves_of_readStart (hsettled : r.settled?.isSome = true) (h : r.readStart t = .ok r') :
    Moves r t r' := by
  unfold readStart at h
  split at h
  · exact moves_of_readEnd hsettled h rfl
  · exact moves_of_readEnd hsettled h rfl
  · next hlexeme =>
      cases h
      exact moves_goto (by rw [hlexeme]; rfl) nofun
  · next hlexeme =>
      cases h
      exact moves_goto (by rw [hlexeme]; rfl) nofun
  · exact moves_of_readValue h

/-- Every token that is read does one of the five. -/
theorem moves_of_step (h : r.step t = .ok r') : Moves r t r' := by
  obtain ⟨blocks, statements, place⟩ := r
  cases place with
  | start => exact moves_of_readStart rfl h
  | ended => exact moves_of_readEnd rfl h rfl
  | directive line =>
      simp only [step] at h
      split at h
      · next hlexeme =>
          cases h
          exact moves_goto (by rw [hlexeme]; rfl) nofun
      · cases h
  | headed head => exact moves_of_readHeaded rfl h
  | argument sequence before =>
      simp only [step] at h
      split at h
      · next hlexeme => exact .stays hlexeme rfl (Except.ok.inj h).symm
      · split at h
        · next hclosed =>
            cases h
            exact moves_close (leadsOn_of_isClosedBy hclosed)
        · exact moves_of_readArgument h
  | between sequence before =>
      -- Only behind bare arguments may the statement end.
      have hunsettled (hclosing : ∀ head, sequence = .bare head → False) :
          settled? ⟨blocks, statements, .between sequence before⟩ = none := by
        cases sequence with
        | bare head => exact (hclosing head rfl).elim
        | _ => rfl
      simp only [step] at h
      split at h
      · next hlexeme =>
          cases h
          exact moves_goto (by rw [hlexeme]; rfl) nofun
      · exact moves_of_readComplete rfl h
      · next hlexeme hclosing =>
          exact .stays hlexeme (hunsettled hclosing) (Except.ok.inj h).symm
      · split at h
        · next hclosed =>
            cases h
            exact moves_close (leadsOn_of_isClosedBy hclosed)
        · cases h
  | value slot => exact moves_of_readValue h
  | negative line slot =>
      simp only [step] at h
      split at h
      · next hlexeme =>
          split at h
          · cases h
            exact moves_fill (by rw [hlexeme]; rfl)
          · cases h
      · cases h
  | complete head args => exact moves_of_readComplete rfl h

/-- Where a statement may end, its beginning stands behind a line feed or a `do`. -/
theorem place_of_step (h : r.step t = .ok r') (hsettled : r'.settled?.isSome = true) :
    r'.place = .start ↔ t.lexeme = .newline ∨ t.lexeme = .do := by
  cases moves_of_step h with
  | ends ht _ _ hplace => simp [ht, hplace]
  | stays ht hunsettled hsame =>
      rw [hsame, hunsettled] at hsettled
      cases hsettled
  | opens ht _ _ hplace => simp [ht, hplace]
  | closes ht _ _ hplace => simp [ht, hplace]
  | leads ht _ hplace =>
      constructor
      · intro hstart
        exact absurd hstart hplace
      · rintro (hnl | hdo)
        · rw [hnl] at ht
          cases ht
        · rw [hdo] at ht
          cases ht

theorem settled_of_step_end (ht : t.lexeme = .end) (h : r.step t = .ok r') :
    r.settled?.isSome = true ∧ r.blocks ≠ [] := by
  cases moves_of_step h with
  | closes _ hsettled hblocks _ => exact ⟨hsettled, by simp [hblocks]⟩
  | ends hother | stays hother | opens hother | leads hother =>
      rw [ht] at hother
      cases hother

/-- A line feed and an `end` behind it are read only where a statement of a block may end. -/
theorem settled_of_steps {nl closing : Token} (hnl : nl.lexeme = .newline)
    (hclosing : closing.lexeme = .end) (h : r.steps [nl, closing] = .ok r') :
    r.settled?.isSome = true ∧ r.blocks ≠ [] := by
  obtain ⟨next, hnext, h⟩ := steps_cons_eq_ok.1 h
  rw [steps_singleton] at h
  have hsettled := settled_of_step_end hclosing h
  cases moves_of_step hnext with
  | ends _ hended hblocks _ => exact ⟨hended, hblocks ▸ hsettled.2⟩
  | stays _ _ hsame => exact hsame ▸ hsettled
  | opens hother | closes hother | leads hother =>
      rw [hnl] at hother
      cases hother

end Reader

/-! ## Open blocks -/

/-- The tokens `do` that no `end` has closed, innermost first, behind one more token. -/
def Token.track (opened : List Token) (t : Token) : List Token :=
  match t.lexeme with
  | .do => t :: opened
  | .end => opened.tail
  | _ => opened

/-- The tokens `do` that no `end` has closed, innermost first. -/
def Token.unclosed (ts : List Token) : List Token :=
  ts.foldl Token.track []

theorem Token.track_of_leadsOn {t : Token} (h : t.lexeme.leadsOn = true) (opened : List Token) :
    track opened t = opened := by
  unfold track
  split
  · next hdo =>
      rw [hdo] at h
      cases h
  · next hend =>
      rw [hend] at h
      cases h
  · rfl

namespace Reader

theorem opened_of_step {r r' : Reader} {t : Token} {opened : List Token}
    (hr : r.blocks.map OpenBlock.opened = opened.map Token.line) (h : r.step t = .ok r') :
    r'.blocks.map OpenBlock.opened = (Token.track opened t).map Token.line := by
  cases moves_of_step h with
  | ends ht _ hblocks _ =>
      rw [Token.track, ht, hblocks]
      exact hr
  | stays ht _ hsame =>
      rw [Token.track, ht, hsame]
      exact hr
  | opens ht hblocks hopened _ =>
      rw [Token.track, ht, hblocks, List.map_cons, List.map_cons, hopened, hr]
  | closes ht _ hblocks _ =>
      rw [hblocks] at hr
      rw [Token.track, ht, List.map_tail, ← hr]
      rfl
  | leads ht hblocks _ => rw [Token.track_of_leadsOn ht, hblocks, hr]

theorem opened_of_steps {r r' : Reader} {ts opened : List Token}
    (hr : r.blocks.map OpenBlock.opened = opened.map Token.line) (h : r.steps ts = .ok r') :
    r'.blocks.map OpenBlock.opened = (ts.foldl Token.track opened).map Token.line := by
  induction ts generalizing r opened with
  | nil =>
      cases h
      exact hr
  | cons t ts ih =>
      obtain ⟨next, hstep, h⟩ := steps_cons_eq_ok.1 h
      exact ih (opened_of_step hr hstep) h

end Reader

end GradingScript
