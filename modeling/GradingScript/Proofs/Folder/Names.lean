import GradingScript.Folder.Glob
import GradingScript.Proofs.Lists

/-!
# Names in a folder

What stands in a folder is known by its names.  A path of one name leads to an entry just when the
name is one of them, and a pattern without slashes finds those of them that fit it.

* `has_of_isFileName` is about the path of one name.
* `find_of_parts` is about a pattern of one part, and `fits_any_exactly` about one that asks only for
  the end of a name.
-/

namespace GradingScript

/-! ## Entries -/

namespace Tree

theorem mem_namesAt_nil {t : Tree} {name : String} :
    name ∈ t.namesAt [] ↔ ∃ path entry, (path, entry) ∈ t.entries ∧ path.head? = some name := by
  simp [namesAt, List.mem_eraseDups, List.mem_filterMap]

/-- Something stands under a name just when it is one of the names of the folder. -/
theorem isSome_entryAt?_iff {t : Tree} {name : String} :
    (t.entryAt? [name]).isSome = true ↔ name ∈ t.namesAt [] := by
  rw [mem_namesAt_nil, entryAt?]
  constructor
  · intro h
    split at h
    · next hfolder =>
        rw [isFolderAt, List.isEmpty_cons, Bool.false_or, List.any_eq_true] at hfolder
        obtain ⟨⟨path, entry⟩, hmem, hprefix⟩ := hfolder
        have hhead : [name] <+: path := by
          rw [← List.isPrefixOf_iff_prefix]
          cases entry with
          | file bytes => exact (Bool.and_eq_true_iff.1 hprefix).1
          | folder => exact hprefix
        obtain ⟨rest, rfl⟩ := hhead
        exact ⟨_, entry, hmem, rfl⟩
    · rw [Option.isSome_map, List.find?_isSome] at h
      obtain ⟨⟨path, entry⟩, hmem, hpath⟩ := h
      obtain rfl : path = [name] := of_decide_eq_true hpath
      exact ⟨_, entry, hmem, rfl⟩
  · rintro ⟨path, entry, hmem, hhead⟩
    split
    · rfl
    · next hfile =>
        -- What is listed under a name is a folder, unless it is a file with no other names behind.
        obtain ⟨rest, rfl⟩ := List.head?_eq_some_iff.1 hhead
        rw [isFolderAt, List.isEmpty_cons, Bool.false_or, List.any_eq_true] at hfile
        have halone : rest = [] := by
          refine Decidable.byContradiction fun hrest => hfile ⟨_, hmem, ?_⟩
          cases entry <;> simp [hrest]
        rw [Option.isSome_map, List.find?_isSome]
        exact ⟨_, hmem, decide_eq_true (by rw [halone])⟩

end Tree

/-! ## Paths of one name -/

/-- A name that an entry of a folder can have. -/
structure IsFileName (name : String) : Prop where
  ne_empty : name ≠ ""
  ne_here : name ≠ "."
  ne_above : name ≠ ".."
  noSlash : '/' ∉ name.toList
  noEnd : '\x00' ∉ name.toList
  short : name.utf8ByteSize ≤ maxNameBytes

instance (name : String) : Decidable (IsFileName name) :=
  decidable_of_iff (name ≠ "" ∧ name ≠ "." ∧ name ≠ ".." ∧ '/' ∉ name.toList ∧
      '\x00' ∉ name.toList ∧ name.utf8ByteSize ≤ maxNameBytes)
    ⟨fun ⟨hempty, hhere, habove, hslash, hend, hshort⟩ =>
      ⟨hempty, hhere, habove, hslash, hend, hshort⟩,
    fun h => ⟨h.ne_empty, h.ne_here, h.ne_above, h.noSlash, h.noEnd, h.short⟩⟩

theorem Path.ofText_of_isFileName {name : String} (h : IsFileName name) :
    Path.ofText name = .relative [name] := by
  have hleading : name.toList.takeWhile (· = '/') = [] := by
    have hslash := h.noSlash
    cases hcs : name.toList with
    | nil => rfl
    | cons c cs =>
        rw [hcs] at hslash
        have hc : c ≠ '/' := fun heq => hslash (heq ▸ List.mem_cons_self)
        simp [hc]
  have hparts : Text.split '/' name.toList = [name.toList] := Text.split_of_not_mem h.noSlash
  simp [Path.ofText, Path.relative, hleading, hparts, h.ne_empty, h.ne_here]

namespace Folder

theorem locate_of_isFileName {name : String} (h : IsFileName name) (f : Folder) :
    f.locate (.relative [name]) = .ok (.inside [name]) := by
  have htext : (Path.relative [name]).text = name := by
    simp [Path.text, Path.relative, Path.anchor]
  have hlong : ¬ maxPathBytes < name.utf8ByteSize := by
    have := h.short
    unfold maxPathBytes
    unfold maxNameBytes at this
    omega
  rw [locate, htext, if_neg (by simpa using h.noEnd), if_neg hlong]
  have henter : f.enter (.inside []) name = .ok (.inside [name]) := by
    have hfolder : f.isFolderAt (.inside []) = true := rfl
    rw [enter, hfolder, if_neg (by simp), if_neg (Nat.not_lt.2 h.short), if_neg h.ne_above]
    rfl
  exact congrArg (· >>= pure) henter

theorem has_of_isFileName {name : String} (h : IsFileName name) (f : Folder) :
    f.has (Path.ofText name) (fun _ => true) = .ok (decide (name ∈ f.inner.namesAt [])) := by
  rw [Path.ofText_of_isFileName h, has, get, locate_of_isFileName h]
  by_cases hmem : name ∈ f.inner.namesAt []
  · obtain ⟨entry, hentry⟩ := Option.isSome_iff_exists.1 (Tree.isSome_entryAt?_iff.2 hmem)
    have hthere : f.entryAt? (.inside [name]) = some entry := hentry
    simp [bind, Except.bind, hthere, hmem]
  · have hnone : f.entryAt? (.inside [name]) = none := by
      rwa [← Tree.isSome_entryAt?_iff, Option.not_isSome_iff_eq_none] at hmem
    simp [bind, Except.bind, hnone, hmem]

end Folder

/-! ## Patterns -/

namespace Glob

/-- Characters that mean nothing else stand for themselves. -/
theorem wildcards_of_not_mem {cs : List Char} (hany : '*' ∉ cs) (hone : '?' ∉ cs)
    (hbracket : '[' ∉ cs) : wildcards cs = cs.map .exactly := by
  induction cs with
  | nil => rw [wildcards, List.map_nil]
  | cons c cs ih =>
      rw [List.mem_cons, not_or] at hany hone hbracket
      rw [wildcards, ih hany.2 hone.2 hbracket.2, List.map_cons]
      · exact hany.1 ∘ Eq.symm
      · exact hone.1 ∘ Eq.symm
      · exact hbracket.1 ∘ Eq.symm

theorem fits_exactly (suffix cs : List Char) :
    fits (suffix.map .exactly) cs = decide (cs = suffix) := by
  induction suffix generalizing cs with
  | nil => cases cs <;> simp
  | cons d suffix ih =>
      cases cs with
      | nil => rw [List.map_cons, fits_cons_nil (by simp)]; simp
      | cons c cs =>
          rw [List.map_cons, fits_cons_cons (by simp), ih]
          simp [Wildcard.admits]

/-- A star with characters behind it stands for the names that end in them. -/
theorem fits_any_exactly (suffix cs : List Char) :
    fits (.any :: suffix.map .exactly) cs = decide (suffix <:+ cs) := by
  induction cs with
  | nil => rw [fits_any_nil, fits_exactly]; simp [eq_comm]
  | cons c cs ih =>
      rw [fits_any_cons, ih, fits_exactly]
      simp [List.suffix_cons_iff, eq_comm]

/-- A pattern of one part that is no name finds what is in the folder and fits it. -/
theorem find_of_parts {pattern : String} {ws : List Wildcard}
    (h : parts? pattern = .ok [.like ws]) (f : Folder) :
    find f pattern = .ok (((f.inner.namesAt []).filter fun name => fits ws name.toList).map
      fun name => .relative [name]) := by
  have hmembers : f.members (.relative []) = .ok (Folder.members.membersOf f.inner []) := rfl
  have hselect : select f [] [.like ws] =
      .ok (((f.inner.namesAt []).filter fun name => fits ws name.toList).map fun name => [name]) := by
    rw [select, hmembers]
    simp only [bind, Except.bind, select, List.isEmpty_nil, Bool.true_or, Bool.and_true,
      List.mapM_pure, List.nil_append]
    rw [Folder.members.membersOf, List.filter_map, List.map_map]
    -- Each name is selected in a list of its own.
    refine congrArg Except.ok ?_
    rw [List.map_eq_flatMap (f := fun name => [name]), List.flatMap_def]
    rfl
  rw [find, h]
  simp only [bind, Except.bind, hselect, List.map_map]
  rfl

end Glob

end GradingScript
