import GradingScript.Proofs.Similarity.Score
import GradingScript.Proofs.Term.Integers
import GradingScript.Similarity
import Mathlib.Tactic.Linarith

/-!
# The nearest candidate

The search for a candidate goes through all of them once, and a candidate takes the lead only if it
scores more than the one before, or than the threshold if there is none.  So what it finds is the
first of the candidates that score highest, and it finds nothing just when none scores enough.

* `best_cases` is the search from any bound on, by induction on the candidates that are left.
* `suggest_firstBest` is what is offered for a term.
-/

namespace GradingScript

namespace Similarity

theorem den_score_pos (a b : String) : 0 < (score a b).den := by
  unfold score
  split
  · exact Nat.one_pos
  · next hne => exact length_pos_of_ne hne

/-- Scores are compared as the fractions that they are. -/
theorem Score.lt_iff {s t : Score} (hs : 0 < s.den) (ht : 0 < t.den) :
    s.lt t = true ↔ s.value < t.value := by
  have hs' : (0 : ℚ) < s.den := Nat.cast_pos.2 hs
  have ht' : (0 : ℚ) < t.den := Nat.cast_pos.2 ht
  rw [Score.lt, decide_eq_true_iff, Score.value, Score.value, div_lt_div_iff₀ hs' ht']
  exact_mod_cast Iff.rfl

end Similarity

namespace Suggestion

open Similarity

/-- The first of the candidates that score highest against a text: those before it score less, and
those behind it no more. -/
def IsFirstBest (text : String) (candidates : List String) (name : String) : Prop :=
  ∃ before behind, candidates = before ++ name :: behind ∧
    (∀ c ∈ before, (score text c).value < (score text name).value) ∧
    ∀ c ∈ behind, (score text c).value ≤ (score text name).value

namespace IsFirstBest

variable {text name c : String} {candidates : List String}

theorem mem (h : IsFirstBest text candidates name) : name ∈ candidates := by
  obtain ⟨before, behind, rfl, -, -⟩ := h
  exact List.mem_append_right before List.mem_cons_self

theorem le (h : IsFirstBest text candidates name) (hc : c ∈ candidates) :
    (score text c).value ≤ (score text name).value := by
  obtain ⟨before, behind, rfl, hbefore, hbehind⟩ := h
  rcases List.mem_append.1 hc with hc | hc
  · exact (hbefore c hc).le
  · rcases List.mem_cons.1 hc with rfl | hc
    · exact le_rfl
    · exact hbehind c hc

/-- A candidate that scores less makes no difference in front of the others. -/
theorem cons (h : IsFirstBest text candidates name)
    (hc : (score text c).value < (score text name).value) :
    IsFirstBest text (c :: candidates) name := by
  obtain ⟨before, behind, rfl, hbefore, hbehind⟩ := h
  exact ⟨c :: before, behind, rfl, List.forall_mem_cons.2 ⟨hc, hbefore⟩, hbehind⟩

end IsFirstBest

/-- The search keeps what it has found if no candidate scores more than the bound, and else finds
the first of those that score highest. -/
theorem best_cases (text : String) {bound : Score} (hbound : 0 < bound.den)
    (found : Option String) (candidates : List String) :
    (best text bound found candidates = found ∧
      ∀ c ∈ candidates, (score text c).value ≤ bound.value) ∨
    ∃ name, best text bound found candidates = some name ∧
      bound.value < (score text name).value ∧ IsFirstBest text candidates name := by
  induction candidates generalizing bound found with
  | nil => exact .inl ⟨rfl, by simp⟩
  | cons c candidates ih =>
      have hlt := Score.lt_iff hbound (den_score_pos text c)
      simp only [best]
      split
      · next hc =>
          rw [hlt] at hc
          -- From here on the bound is the score of `c`.
          rcases ih (den_score_pos text c) (some c) with ⟨hbest, hle⟩ | ⟨name, hbest, hmore, hfirst⟩
          · exact .inr ⟨c, hbest, hc, [], candidates, rfl, by simp, hle⟩
          · exact .inr ⟨name, hbest, hc.trans hmore, hfirst.cons hmore⟩
      · next hc =>
          rw [hlt, not_lt] at hc
          rcases ih hbound found with ⟨hbest, hle⟩ | ⟨name, hbest, hmore, hfirst⟩
          · exact .inl ⟨hbest, List.forall_mem_cons.2 ⟨hc, hle⟩⟩
          · exact .inr ⟨name, hbest, hmore, hfirst.cons (hc.trans_lt hmore)⟩

theorem nearest?_cases (text : String) (candidates : List String) :
    (nearest? text candidates = none ∧ ∀ c ∈ candidates, (score text c).value ≤ 4 / 5) ∨
    ∃ name, nearest? text candidates = some name ∧
      4 / 5 < (score text name).value ∧ IsFirstBest text candidates name := by
  have hvalue : threshold.value = 4 / 5 := by norm_num [threshold, Score.value]
  rw [← hvalue]
  exact best_cases text (by decide) none candidates

/-- A text that is one of the candidates is the only one of them that scores highest. -/
theorem nearest?_of_mem {text : String} {candidates : List String} (h : text ∈ candidates) :
    nearest? text candidates = some text := by
  rcases nearest?_cases text candidates with ⟨-, hle⟩ | ⟨name, hname, -, hfirst⟩
  · have hself := hle text h
    rw [value_score_self] at hself
    norm_num at hself
  · have hself := hfirst.le h
    rw [value_score_self] at hself
    obtain rfl : text = name := by
      by_contra hne
      exact absurd (value_score_lt_one hne) hself.not_gt
    exact hname

theorem mem_of_nearest? {text name : String} {candidates : List String}
    (h : nearest? text candidates = some name) : name ∈ candidates := by
  rcases nearest?_cases text candidates with ⟨hnone, -⟩ | ⟨name', hname, -, hfirst⟩
  · rw [hnone] at h
    cases h
  · obtain rfl := Option.some.inj (hname.symm.trans h)
    exact hfirst.mem

/-! ## Questions -/

theorem toList_question (name : String) :
    (question (some name)).toList = "Did you mean ".toList ++ (name.toList ++ ['?']) := by
  simp [question, String.toList_append]

/-- What is offered can be read off the question. -/
theorem question_injective : Function.Injective question := by
  have hne (name : String) : question (some name) ≠ "" := by
    intro h
    have hlist := congrArg String.toList h
    simp [toList_question] at hlist
  intro found found' h
  cases found with
  | none =>
      cases found' with
      | none => rfl
      | some name' => exact absurd h.symm (hne name')
  | some name =>
      cases found' with
      | none => exact absurd h (hne name)
      | some name' =>
          have hlist := congrArg String.toList h
          rw [toList_question, toList_question] at hlist
          have hname := List.append_cancel_right (List.append_cancel_left hlist)
          rw [String.toList_injective hname]

end Suggestion

open Suggestion Similarity

/-- For a term nothing is offered just when no candidate scores more than four fifths against its
text, and else the first of those that score highest.  A candidate that is the text itself is always
offered. -/
theorem suggest_firstBest {token : Term} (h : token.HasShortIntegers) (candidates : List String) :
    ∃ text offer, token.text = .ok text ∧ suggest token candidates = .ok offer ∧
      (offer = "" ↔ ∀ c ∈ candidates, ¬ 4 / 5 < (score text c).value) ∧
      (offer ≠ "" → ∃ name, offer = "Did you mean " ++ name ++ "?" ∧
        IsFirstBest text candidates name) ∧
      (text ∈ candidates → offer = "Did you mean " ++ text ++ "?") := by
  obtain ⟨text, htext⟩ := h.hasText
  have hsuggest : suggest token candidates = .ok (question (nearest? text candidates)) := by
    rw [suggest, htext]
    rfl
  have hself : text ∈ candidates →
      question (nearest? text candidates) = "Did you mean " ++ text ++ "?" := by
    intro hmem
    rw [nearest?_of_mem hmem]
    rfl
  refine ⟨text, _, htext, hsuggest, ?_, ?_, hself⟩
  · rcases nearest?_cases text candidates with ⟨hnone, hle⟩ | ⟨name, hname, hmore, hfirst⟩
    · rw [hnone]
      exact ⟨fun _ c hc => (hle c hc).not_gt, fun _ => rfl⟩
    · rw [hname]
      have hasked : question (some name) ≠ question none :=
        question_injective.ne (Option.some_ne_none name)
      exact ⟨fun hempty => absurd hempty hasked, fun hnone => absurd hmore (hnone name hfirst.mem)⟩
  · rcases nearest?_cases text candidates with ⟨hnone, -⟩ | ⟨name, hname, -, hfirst⟩
    · rw [hnone]
      exact fun hne => absurd rfl hne
    · rw [hname]
      exact fun _ => ⟨name, rfl, hfirst⟩

/-- Two candidates score the same, and the first of them is offered. -/
theorem suggest_firstBest_tie :
    let token : Term := .literal (.string "abcde") 1
    let candidates := ["abc", "abcdey", "abcdex"]
    token.HasShortIntegers ∧ suggest token candidates = .ok "Did you mean abcdey?" ∧
      IsFirstBest "abcde" candidates "abcdey" := by
  intro token candidates
  have hshort : token.HasShortIntegers := by
    simp only [token, Term.HasShortIntegers, Term.integers]
    decide +kernel
  have htoken : token.text = .ok "abcde" := rfl
  have hshorter : score "abcde" "abc" = ⟨6, 8⟩ := by cbv
  have hlonger : score "abcde" "abcdey" = ⟨10, 11⟩ := by cbv
  have hlonger' : score "abcde" "abcdex" = ⟨10, 11⟩ := by cbv
  have hnearest : nearest? "abcde" candidates = some "abcdey" := by
    simp [candidates, nearest?, best, Score.lt, threshold, hshorter, hlonger, hlonger']
  have hsuggest : suggest token candidates = .ok "Did you mean abcdey?" := by
    rw [suggest, htoken, Written.ok_bind, hnearest]
    rfl
  have hasked : question (some "abcdey") = "Did you mean abcdey?" := by decide
  obtain ⟨text, offer, htext, hoffer, -, hfirst, -⟩ := suggest_firstBest hshort candidates
  obtain rfl : text = "abcde" := Except.ok.inj (htext.symm.trans htoken)
  obtain rfl : offer = "Did you mean abcdey?" := Except.ok.inj (hoffer.symm.trans hsuggest)
  obtain ⟨name, hname, hbest⟩ := hfirst (by decide)
  obtain rfl := Option.some.inj (question_injective (hasked.trans hname))
  exact ⟨hshort, hsuggest, hbest⟩

end GradingScript
