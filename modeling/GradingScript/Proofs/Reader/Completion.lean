import GradingScript.Proofs.Reader.Steps

/-!
# Completions

Wherever the reader stands, some tokens lead on to the end of a script: a value where one is
awaited, the marks that close the open sequences from the inside out, and an `end` for every open
block.  So what has been read can always be completed.
-/

namespace GradingScript.Reader

/-- Some tokens lead to a place of the same block where the statement at hand may end. -/
def Settles (r : Reader) : Prop :=
  ∃ ts r' statements, (∀ t ∈ ts, t.lexeme ≠ .eof) ∧ r.steps ts = .ok r' ∧ r'.blocks = r.blocks ∧
    r'.settled? = some statements

theorem settles_of_settled {r : Reader} {statements : List Term}
    (h : r.settled? = some statements) : r.Settles :=
  ⟨[], r, statements, by simp, rfl, rfl, h⟩

/-- A token that stays in the block may come first. -/
theorem Settles.cons {r r' : Reader} {t : Token} (h : r'.Settles) (hstep : r.step t = .ok r')
    (hblocks : r'.blocks = r.blocks) (ht : t.lexeme ≠ .eof) : r.Settles := by
  obtain ⟨ts, r'', statements, hts, hsteps, hblocks', hsettled⟩ := h
  refine ⟨t :: ts, r'', statements, ?_, ?_, hblocks'.trans hblocks, hsettled⟩
  · simpa using ⟨ht, hts⟩
  · rw [steps_cons_of_ok hstep, hsteps]

/-- Behind an argument, the open sequences are closed one after the other. -/
theorem settles_between (sequence : Sequence) (r : Reader) (before : List Term) :
    (r.goto (.between sequence before)).Settles := by
  induction sequence generalizing r before with
  | bare head => exact settles_of_settled rfl
  | parens head =>
      have hstep : (r.goto (.between (.parens head) before)).step ⟨.mark .closeParen, 0, ")"⟩ =
          .ok (r.goto (.complete head before.reverse)) := rfl
      exact (settles_of_settled rfl).cons hstep rfl nofun
  | list target line =>
      have hstep : (r.goto (.between (.list target line) before)).step
          ⟨.mark .closeBracket, 0, "]"⟩ =
          .ok (r.fill (.whole target) (.listNode before.reverse line)) := by
        cases target <;> rfl
      cases target <;> exact (settles_of_settled rfl).cons hstep rfl nofun
  | inner outer earlier key line ih =>
      -- The list is an argument itself, so what is left to close stands behind an argument again.
      have hstep : (r.goto (.between (.inner outer earlier key line) before)).step
          ⟨.mark .closeBracket, 0, "]"⟩ =
          .ok (r.goto (.between outer
            (withKey key (.listNode before.reverse line) :: earlier))) := rfl
      exact (ih r _).cons hstep rfl nofun

theorem fill_blocks (r : Reader) (slot : Slot) (value : Term) :
    (r.fill slot value).blocks = r.blocks := by
  rcases slot with (_ | _) | _ <;> rfl

/-- Behind a value, the sequences that it stands in are closed. -/
theorem settles_fill (r : Reader) (slot : Slot) (value : Term) : (r.fill slot value).Settles := by
  cases slot with
  | whole target => cases target <;> exact settles_of_settled rfl
  | argument sequence before key => exact settles_between sequence r _

/-- Every statement can be ended. -/
theorem settles (r : Reader) : r.Settles := by
  obtain ⟨blocks, statements, place⟩ := r
  cases place with
  | start => exact settles_of_settled rfl
  | ended => exact settles_of_settled rfl
  | directive line =>
      have hstep : (⟨blocks, statements, .directive line⟩ : Reader).step ⟨.name "a", 0, "a"⟩ =
          .ok ⟨blocks, statements, .headed ⟨true, "a", line⟩⟩ := rfl
      exact (settles_of_settled rfl).cons hstep rfl nofun
  | headed head => exact settles_of_settled rfl
  | argument sequence before =>
      have hstep : (⟨blocks, statements, .argument sequence before⟩ : Reader).step
          ⟨.atom "a", 0, ":a"⟩ =
          .ok ⟨blocks, statements, .between sequence (.atom "a" 0 :: before)⟩ := rfl
      exact (settles_between sequence ⟨blocks, statements, .start⟩ _).cons hstep rfl nofun
  | between sequence before => exact settles_between sequence ⟨blocks, statements, .start⟩ before
  | value slot =>
      have hstep : (⟨blocks, statements, .value slot⟩ : Reader).step ⟨.atom "a", 0, ":a"⟩ =
          .ok ((⟨blocks, statements, .value slot⟩ : Reader).fill slot (.atom "a" 0)) := rfl
      exact (settles_fill _ slot _).cons hstep (fill_blocks _ slot _) nofun
  | negative line slot =>
      have hstep : (⟨blocks, statements, .negative line slot⟩ : Reader).step
          ⟨.ofNumber (.int 0), 0, "0"⟩ =
          .ok ((⟨blocks, statements, .negative line slot⟩ : Reader).fill slot
            (.literal (.number (.int 0)) line)) := rfl
      exact (settles_fill _ slot _).cons hstep (fill_blocks _ slot _) nofun
  | complete head args => exact settles_of_settled rfl

/-- Where a statement may end, an `end` for each open block completes the script. -/
theorem completable_of_settled {r : Reader} {statements : List Term}
    (h : r.settled? = some statements) : ∃ ts r' script, (∀ t ∈ ts, t.lexeme ≠ .eof) ∧
      r.steps ts = .ok r' ∧ r'.blocks = [] ∧ r'.settled? = some script := by
  generalize hblocks : r.blocks = blocks
  -- An `end` closes one block and stands itself where a statement may end.
  induction blocks generalizing r statements with
  | nil => exact ⟨[], r, statements, by simp, rfl, hblocks, h⟩
  | cons b outer ih =>
      have hstep : r.step ⟨.end, 0, "end"⟩ =
          .ok ⟨outer, .block b.label b.line statements b.keyword :: b.before, .ended⟩ :=
        step_end h rfl hblocks
      obtain ⟨ts, r', script, hts, hsteps, hblocks', hsettled⟩ :=
        ih (r := ⟨outer, _, .ended⟩) rfl rfl
      refine ⟨⟨.end, 0, "end"⟩ :: ts, r', script, ?_, ?_, hblocks', hsettled⟩
      · simpa using hts
      · rw [steps_cons_of_ok hstep, hsteps]

/-- What has been read can be completed to a script. -/
theorem completable (r : Reader) : ∃ ts r' script, (∀ t ∈ ts, t.lexeme ≠ .eof) ∧
    r.steps ts = .ok r' ∧ r'.blocks = [] ∧ r'.settled? = some script := by
  obtain ⟨ts, r', statements, hts, hsteps, -, hsettled⟩ := r.settles
  obtain ⟨us, r'', script, hus, hsteps', hblocks, hsettled'⟩ := completable_of_settled hsettled
  refine ⟨ts ++ us, r'', script, ?_, ?_, hblocks, hsettled'⟩
  · exact List.forall_mem_append.2 ⟨hts, hus⟩
  · rw [steps_append_of_ok hsteps, hsteps']

end GradingScript.Reader
