import GradingScript.Environment.Catalogue
import GradingScript.Proofs.Term.Value

/-!
# Environments and lines

An environment is given the values of its parameters, and some values are nodes, which stand on a
line.  An image is to be made of what a value is, not of where it stands.  The built-in
environments make it so, and an extension does if the environment that it extends does.
-/

namespace GradingScript

/-- What is written of each item does not depend on what else happens to the items. -/
theorem Written.mapM_map_congr {α β γ : Type} {f : β → Written γ} {g : α → Written γ} {k : α → β}
    {xs : List α} (h : ∀ x ∈ xs, f (k x) = g x) : (xs.map k).mapM f = xs.mapM g := by
  induction xs with
  | nil => rfl
  | cons x xs ih =>
      rw [List.map_cons, List.mapM_cons, List.mapM_cons, h x (by simp),
        ih fun y hy => h y (by simp [hy])]

theorem Term.text_unplaced {t : Term} (h : t.isValue = true) : t.unplaced.text = t.text :=
  showsNoLines_of_isValue h _ false

/-- The parameter with the lines of its value forgotten. -/
def Parameter.unplaced (p : Parameter) : Parameter :=
  (p.1, p.2.unplaced)

/-- The values of parameters are values, in which there is no statement. -/
def Parameter.AreValues (parameters : List Parameter) : Prop :=
  ∀ p ∈ parameters, p.2.isValue = true

/-- The image that an environment makes of values does not depend on the lines that they stand
on. -/
def Environment.IgnoresLines (e : Environment) : Prop :=
  ∀ parameters, Parameter.AreValues parameters →
    e.imageFor (parameters.map Parameter.unplaced) = e.imageFor parameters

/-- All environments to choose from make their images so. -/
def Catalogue.IgnoresLines (c : Catalogue) : Prop :=
  ∀ e ∈ c.environments, e.IgnoresLines

namespace Environment

theorem IgnoresLines.resolveImage {e : Environment} (h : e.IgnoresLines)
    {parameters : List Parameter} (hvalues : Parameter.AreValues parameters) :
    e.resolveImage (parameters.map Parameter.unplaced) = e.resolveImage parameters := by
  rw [Environment.resolveImage, Environment.resolveImage, List.length_map, h parameters hvalues]

/-! ## The built-in environments -/

/-- A value that no image can be made of is shown by its text. -/
def rejected (description : String) (text : Written String) :
    Written (Except Rejection String) := do
  pure (.error ⟨description, ← text⟩)

theorem namedImage_unplaced {value : Term} (h : value.isValue = true) :
    namedImage value.unplaced = namedImage value := by
  have htext := Term.text_unplaced h
  cases value with
  | string => rfl
  | _ => exact congrArg (rejected "unsupported image: ") htext

theorem versionedImage_unplaced (repository variant : String) {value : Term}
    (h : value.isValue = true) :
    versionedImage repository variant value.unplaced = versionedImage repository variant value := by
  have htext := Term.text_unplaced h
  cases value with
  | string => rfl
  | number => rfl
  | _ => exact congrArg (rejected "unsupported image version: ") htext

/-- What an environment with one parameter makes of its value decides. -/
theorem ignoresLines_single {className id key : String}
    {image : Term → Written (Except Rejection String)} {capabilities : List Capability}
    (h : ∀ value, value.isValue = true → image value.unplaced = image value) :
    (single className id key image capabilities).IgnoresLines := by
  intro parameters hvalues
  match parameters with
  | [] => rfl
  | [(parameter, value)] =>
      have hvalue : value.isValue = true := hvalues (parameter, value) (by simp)
      cases parameter with
      | string k =>
          show (if k = key then image value.unplaced else _) = if k = key then image value else _
          rw [h value hvalue]
      | _ => rfl
  | _ :: _ :: _ => rfl

end Environment

theorem Catalogue.ignoresLines_standard : Catalogue.standard.IgnoresLines := by
  simp only [IgnoresLines, standard, List.forall_mem_cons]
  exact ⟨Environment.ignoresLines_single fun _ h => Environment.namedImage_unplaced h,
    Environment.ignoresLines_single fun _ h => Environment.versionedImage_unplaced _ _ h,
    Environment.ignoresLines_single fun _ h => Environment.versionedImage_unplaced _ _ h, by simp⟩

/-! ## Extensions -/

theorem ImageRule.apply_unplaced {value : Term} (h : value.isValue = true) (rule : ImageRule) :
    rule.apply value.unplaced = rule.apply value := by
  cases rule with
  | around key before after => rw [apply, apply, Term.text_unplaced h]
  | reject key rejection => rfl

namespace Environment

theorem spellOut_unplaced (start : String) {parameters : List Parameter}
    (h : Parameter.AreValues parameters) :
    spellOut start (parameters.map Parameter.unplaced) = spellOut start parameters := by
  rw [spellOut, spellOut, Written.mapM_map_congr]
  rintro ⟨key, value⟩ hp
  have htext := Term.text_unplaced (h (key, value) hp)
  simp only [Parameter.unplaced, htext]

/-- An extension changes nothing about lines. -/
theorem IgnoresLines.extend {e : Environment} (h : e.IgnoresLines) (x : Extension) :
    (e.extend x).IgnoresLines := by
  intro parameters hvalues
  have hinherited := h parameters hvalues
  unfold imageFor at hinherited ⊢
  unfold Environment.extend
  cases x.imageStart? with
  | some start => simp only [spellOut_unplaced start hvalues]
  | none =>
      simp only
      cases hall : e.imageOfAll? with
      | some image => simpa only [hall] using hinherited
      | none =>
          simp only [hall] at hinherited
          match parameters with
          | [] => rfl
          | [(key, value)] =>
              have hvalue : value.isValue = true := hvalues (key, value) (by simp)
              cases hrule : x.imageRules.find? (·.isFor key) with
              | some rule =>
                  simpa [Parameter.unplaced, hrule] using ImageRule.apply_unplaced hvalue rule
              | none => simpa [Parameter.unplaced, hrule] using hinherited
          | _ :: _ :: _ => rfl

end Environment

namespace Catalogue

theorem mem_put {e e' : Environment} {es : List Environment} (h : e' ∈ put e es) :
    e' = e ∨ e' ∈ es := by
  induction es with
  | nil => simpa [put] using h
  | cons old rest ih =>
      unfold put at h
      split at h
      · rcases List.mem_cons.1 h with rfl | h
        · exact .inl rfl
        · exact .inr (List.mem_cons_of_mem old h)
      · rcases List.mem_cons.1 h with rfl | h
        · exact .inr (List.mem_cons_self ..)
        · exact (ih h).imp_right (List.mem_cons_of_mem old)

/-- Registering another environment that makes its images so changes nothing either. -/
theorem IgnoresLines.register {c c' : Catalogue} (h : c.IgnoresLines) {e : Environment}
    (he : e.IgnoresLines) (hregister : c.register e = some c') : c'.IgnoresLines := by
  unfold Catalogue.register at hregister
  split at hregister
  · cases hregister
  · cases hregister
    intro e' hmem
    rcases mem_put hmem with rfl | hmem
    · exact he
    · exact h e' hmem

end Catalogue

end GradingScript
