import GradingScript.Proofs.Environment.Lines
import GradingScript.Proofs.Term.Writable

/-!
# Environments that answer

An environment answers if it makes an image of whatever parameters it is given or rejects them, as
long as the parameters can be written, and if its arities can be written.  The built-in environments
do, and so does an extension of an environment that does.
-/

namespace GradingScript

/-- Parameters as statements give them: each has a text for its key, and a value that can be
written. -/
def Parameter.AreWritable (parameters : List Parameter) : Prop :=
  ∀ p ∈ parameters, (∃ key, p.1 = .string key) ∧ p.2.IsWritable

/-- An environment answers to whatever parameters can be written, and its arities can be written. -/
structure Environment.Answers (e : Environment) : Prop where
  image : ∀ parameters, Parameter.AreWritable parameters →
    ∃ answer, e.imageFor parameters = .ok answer
  arity : ∀ c ∈ e.capabilities, Number.isShort c.arity = true

/-- All environments to choose from answer. -/
def Catalogue.Answers (c : Catalogue) : Prop :=
  ∀ e ∈ c.environments, e.Answers

namespace Environment

theorem Answers.exists_resolveImage {e : Environment} (h : e.Answers) {parameters : List Parameter}
    (hparameters : Parameter.AreWritable parameters) :
    ∃ answer, e.resolveImage parameters = .ok answer := by
  unfold Environment.resolveImage
  split
  · exact h.image parameters hparameters
  · exact ⟨_, rfl⟩

/-! ## The built-in environments -/

theorem exists_namedImage {value : Term} (h : value.IsWritable) :
    ∃ answer, namedImage value = .ok answer := by
  unfold namedImage
  split
  · exact ⟨_, rfl⟩
  · exact Written.exists_bind (Term.exists_text h) fun text _ => ⟨_, rfl⟩

theorem exists_versionedImage (repository variant : String) {value : Term} (h : value.IsWritable) :
    ∃ answer, versionedImage repository variant value = .ok answer := by
  unfold versionedImage
  split
  · exact ⟨_, rfl⟩
  · have htext := Number.exists_text (Term.isWritable_number.1 h)
    exact Written.exists_bind htext fun text _ => ⟨_, rfl⟩
  · exact Written.exists_bind (Term.exists_text h) fun text _ => ⟨_, rfl⟩

/-- What an environment with one parameter makes of its value decides. -/
theorem answers_single {className id key : String}
    {image : Term → Written (Except Rejection String)} {capabilities : List Capability}
    (himage : ∀ value, value.IsWritable → ∃ answer, image value = .ok answer)
    (harity : ∀ c ∈ capabilities, Number.isShort c.arity = true) :
    (single className id key image capabilities).Answers := by
  refine ⟨fun parameters hparameters => ?_, harity⟩
  match parameters with
  | [] => exact ⟨_, rfl⟩
  | [(parameter, value)] =>
      obtain ⟨⟨k, hk⟩, hvalue⟩ := hparameters (parameter, value) (by simp)
      obtain rfl : parameter = .string k := hk
      by_cases hkey : k = key
      · obtain ⟨answer, hanswer⟩ := himage value hvalue
        exact ⟨answer, by simpa [imageFor, single, base, hkey] using hanswer⟩
      · exact ⟨.error (unknownParameter (.string k)), by simp [imageFor, single, base, hkey]; rfl⟩
  | _ :: _ :: _ => exact ⟨_, rfl⟩

end Environment

theorem Catalogue.answers_standard : Catalogue.standard.Answers := by
  simp only [Answers, standard, List.forall_mem_cons]
  refine ⟨Environment.answers_single (fun _ h => Environment.exists_namedImage h) (by simp),
    Environment.answers_single (fun _ h => Environment.exists_versionedImage _ _ h) ?_,
    Environment.answers_single (fun _ h => Environment.exists_versionedImage _ _ h) (by simp),
    by simp⟩
  decide +kernel

/-! ## Extensions -/

theorem ImageRule.exists_apply {value : Term} (h : value.IsWritable) (rule : ImageRule) :
    ∃ answer, rule.apply value = .ok answer := by
  cases rule with
  | around key before after =>
      exact Written.exists_bind (Term.exists_text h) fun text _ => ⟨_, rfl⟩
  | reject key rejection => exact ⟨_, rfl⟩

namespace Environment

theorem exists_spellOut (start : String) {parameters : List Parameter}
    (h : Parameter.AreWritable parameters) : ∃ image, spellOut start parameters = .ok image := by
  refine Written.exists_bind (Written.exists_mapM ?_) fun parts _ => ⟨_, rfl⟩
  rintro ⟨key, value⟩ hp
  obtain ⟨⟨k, hk⟩, hvalue⟩ := h (key, value) hp
  obtain rfl : key = .string k := hk
  exact Written.exists_bind ⟨k, rfl⟩ fun text _ =>
    Written.exists_bind (Term.exists_text hvalue) fun text _ => ⟨_, rfl⟩

theorem mem_putCapability {c c' : Capability} {table : List Capability}
    (h : c' ∈ putCapability c table) : c' = c ∨ c' ∈ table := by
  induction table with
  | nil => simpa [putCapability] using h
  | cons old rest ih =>
      unfold putCapability at h
      split at h
      · rcases List.mem_cons.1 h with rfl | h
        · exact .inl rfl
        · exact .inr (List.mem_cons_of_mem old h)
      · rcases List.mem_cons.1 h with rfl | h
        · exact .inr (List.mem_cons_self ..)
        · exact (ih h).imp_right (List.mem_cons_of_mem old)

/-- The arities of a new environment are inherited, or they are those of its methods. -/
theorem arity_of_mem_extendCapabilities {Q : Int → Prop} {inherited : List Capability}
    {methods : List Method} (hinherited : ∀ c ∈ inherited, Q c.arity)
    (hmethods : ∀ m ∈ methods, ∀ arity, m.arity? = some arity → Q arity) :
    ∀ c ∈ extendCapabilities inherited methods, Q c.arity := by
  have hmethod {name : String} {m : Method} (h : method? methods name = some m) : m ∈ methods :=
    List.mem_reverse.1 (List.mem_of_find?_eq_some h)
  unfold extendCapabilities
  -- A new handler keeps the arity, and what is put in has the arity of a method.
  refine List.foldlRecOn
    (motive := fun table => ∀ c : Capability, c ∈ table → Q c.arity) methods _ ?_ ?_
  · rw [List.forall_mem_map]
    intro c hc
    split <;> exact hinherited c hc
  · intro table htable own _ c hc
    split at hc
    · next name arity handler hfound =>
        rcases mem_putCapability hc with rfl | hc
        · exact hmethods _ (hmethod hfound) arity rfl
        · exact htable c hc
    · exact htable c hc

/-- An extension answers if the environment that it extends does, and if the arities of its methods
can be written. -/
theorem Answers.extend {e : Environment} (h : e.Answers) (x : Extension)
    (hmethods : ∀ m ∈ x.methods, ∀ arity, m.arity? = some arity → Number.isShort arity = true) :
    (e.extend x).Answers := by
  refine ⟨fun parameters hparameters => ?_, arity_of_mem_extendCapabilities h.arity hmethods⟩
  have hinherited := h.image parameters hparameters
  unfold imageFor at hinherited ⊢
  unfold Environment.extend
  cases x.imageStart? with
  | some start =>
      exact Written.exists_bind (exists_spellOut start hparameters) fun image _ => ⟨_, rfl⟩
  | none =>
      simp only
      cases hall : e.imageOfAll? with
      | some image => simpa only [hall] using hinherited
      | none =>
          simp only [hall] at hinherited
          match parameters with
          | [] => exact ⟨_, rfl⟩
          | [(key, value)] =>
              cases hrule : x.imageRules.find? (·.isFor key) with
              | some rule =>
                  simpa [hrule] using rule.exists_apply (hparameters (key, value) (by simp)).2
              | none => simpa [hrule] using hinherited
          | _ :: _ :: _ => exact ⟨_, rfl⟩

end Environment

/-- Registering another environment that answers changes nothing. -/
theorem Catalogue.Answers.register {c c' : Catalogue} (h : c.Answers) {e : Environment}
    (he : e.Answers) (hregister : c.register e = some c') : c'.Answers := by
  unfold Catalogue.register at hregister
  split at hregister
  · cases hregister
  · cases hregister
    intro e' hmem
    rcases Catalogue.mem_put hmem with rfl | hmem
    · exact he
    · exact h e' hmem

end GradingScript
