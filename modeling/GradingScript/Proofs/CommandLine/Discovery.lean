import GradingScript.Proofs.CommandLine.Agreement
import GradingScript.Proofs.Folder.Names

/-!
# The script that no one names

Without the name of a script, the commands take the default script and the names that end in
`.autocheck` together.  If there is one of them, they do what they do when it is named; if there is
none, or more than one, they fail before they read anything.  So the default script has no
precedence: another script beside it is one too many.

* `candidates` are the names in question: `discover_none_eq_some` is about a single one, and
  `exists_undecided` about any other number.
* `check_and_show_unnamed` is about the commands.
-/

namespace GradingScript.CommandLine

variable {folder : Folder}

/-- The names in a folder that end in `.autocheck`. -/
def scriptNames (folder : Folder) : List String :=
  (folder.inner.namesAt []).filter fun name => ".autocheck".toList <:+ name.toList

/-- The names in a folder that are taken for scripts if none is named. -/
def candidates (folder : Folder) : List String :=
  (if "autocheck.conf" ∈ folder.inner.namesAt [] then ["autocheck.conf"] else []) ++
    scriptNames folder

theorem isFileName_default : IsFileName "autocheck.conf" := by decide

theorem parts?_pattern :
    Glob.parts? "*.autocheck" = .ok [.like (.any :: ".autocheck".toList.map .exactly)] := by
  have hpath : Path.ofText "*.autocheck" = .relative ["*.autocheck"] :=
    Path.ofText_of_isFileName (by decide)
  have hwildcards : Glob.wildcards "*.autocheck".toList =
      .any :: ".autocheck".toList.map .exactly := by
    rw [← Glob.wildcards_of_not_mem (by decide) (by decide) (by decide)]
    exact Glob.wildcards.eq_2 _
  have hpart : Glob.part? "*.autocheck" =
      some (.like (.any :: ".autocheck".toList.map .exactly)) := by
    rw [← hwildcards]
    rfl
  simp [Glob.parts?, hpath, Path.relative, hpart]

theorem find_pattern (folder : Folder) :
    Glob.find folder "*.autocheck" =
      .ok ((scriptNames folder).map fun name => .relative [name]) := by
  rw [Glob.find_of_parts parts?_pattern]
  simp only [Glob.fits_any_exactly]
  rfl

theorem isThere_of_isFileName {name : String} (h : IsFileName name) (folder : Folder) :
    Settings.isThere folder (Path.ofText name) =
      .ok (decide (name ∈ folder.inner.namesAt [])) := by
  rw [Settings.isThere, Folder.has_of_isFileName h]

/-- The default script does not end as the others do, so it is not found twice. -/
theorem filter_ne_default (folder : Folder) :
    ((scriptNames folder).map fun name => Path.relative [name]).filter
        (· ≠ .relative ["autocheck.conf"]) =
      (scriptNames folder).map fun name => .relative [name] := by
  rw [List.filter_eq_self]
  intro path hpath
  obtain ⟨name, hname, rfl⟩ := List.mem_map.1 hpath
  have hsuffix := of_decide_eq_true (List.mem_filter.1 hname).2
  refine decide_eq_true fun heq => ?_
  obtain rfl : name = "autocheck.conf" := by simpa [Path.relative] using heq
  revert hsuffix
  decide

theorem scripts_eq_candidates (folder : Folder) :
    (Settings.ofVariables none none).scripts folder =
      .ok (((candidates folder).map fun name => .relative [name]).mergeSort Path.le) := by
  have hdefault : (Settings.ofVariables none none).defaultScript = "autocheck.conf" := rfl
  have hpattern : (Settings.ofVariables none none).pattern = "*.autocheck" := rfl
  rw [Settings.scripts, hdefault, hpattern, find_pattern, isThere_of_isFileName isFileName_default,
    Path.ofText_of_isFileName isFileName_default]
  simp only [bind, Except.bind, pure, Except.pure, filter_ne_default]
  rw [candidates, List.map_append]
  by_cases hthere : "autocheck.conf" ∈ folder.inner.namesAt [] <;> simp [hthere]

theorem discover_of_candidates_singleton {name : String} (h : candidates folder = [name]) :
    (Settings.ofVariables none none).discover folder none = .ok (.relative [name]) := by
  rw [Settings.discover, Settings.discover.only, scripts_eq_candidates, h, List.map_singleton,
    List.mergeSort_singleton]
  rfl

/-- Why no script is found in a folder: it has no candidate, or too many. -/
inductive Undecided (folder : Folder) : DiscoveryError → Prop
  | none (h : candidates folder = []) : Undecided folder .noScript
  | many {paths : List Path} (h : 1 < (candidates folder).length)
      (hpaths : paths.Perm ((candidates folder).map fun name => .relative [name])) :
      Undecided folder (.manyScripts paths)

theorem exists_undecided (h : (candidates folder).length ≠ 1) :
    ∃ e, (Settings.ofVariables none none).discover folder none = .error e ∧
      Undecided folder e := by
  rw [Settings.discover, Settings.discover.only, scripts_eq_candidates]
  have hperm := List.mergeSort_perm
    ((candidates folder).map fun name => Path.relative [name]) Path.le
  have hlength := hperm.length_eq
  rw [List.length_map] at hlength
  simp only [bind, Except.bind]
  generalize ((candidates folder).map fun name => Path.relative [name]).mergeSort Path.le = paths
    at hperm hlength
  rcases paths with _ | ⟨path, _ | ⟨next, rest⟩⟩
  · exact ⟨_, rfl, .none (List.length_eq_zero_iff.1 hlength.symm)⟩
  · exact absurd hlength.symm h
  · have hmany : 1 < (candidates folder).length := by
      rw [← hlength, List.length_cons, List.length_cons]
      omega
    exact ⟨_, rfl, .many hmany hperm⟩

theorem discover_of_isFileName {name : String} (h : IsFileName name)
    (hmem : name ∈ folder.inner.namesAt []) (settings : Settings) :
    settings.discover folder (some name) = .ok (.relative [name]) := by
  rw [Settings.discover, if_neg h.ne_empty, Settings.discover.named, isThere_of_isFileName h,
    decide_eq_true hmem, Path.ofText_of_isFileName h]
  rfl

theorem mem_of_mem_candidates {name : String} (h : name ∈ candidates folder) :
    name ∈ folder.inner.namesAt [] := by
  rcases List.mem_append.1 h with hdefault | hother
  · split at hdefault
    · next hthere => exact List.mem_singleton.1 hdefault ▸ hthere
    · cases hdefault
  · exact (List.mem_filter.1 hother).1

/-- The only candidate is found as it is when it is named. -/
theorem discover_none_eq_some {name : String} (h : candidates folder = [name])
    (hname : IsFileName name) :
    (Settings.ofVariables none none).discover folder none =
      (Settings.ofVariables none none).discover folder (some name) := by
  have hmem := mem_of_mem_candidates (h ▸ List.mem_singleton_self name)
  rw [discover_of_candidates_singleton h, discover_of_isFileName hname hmem]

/-! ## The commands -/

section

variable {settings : Settings}

/-- What is found in the same way is read in the same way. -/
theorem withScript_congr {script script' : Option String}
    (h : settings.discover folder script = settings.discover folder script')
    (unreadable : Path → String → Output) (next : Path → String → Run) :
    withScript settings folder script unreadable next =
      withScript settings folder script' unreadable next := by
  rw [withScript, withScript, h]

theorem withScript_of_undecided {script : Option String} {e : DiscoveryError}
    (h : settings.discover folder script = .error e) (he : Undecided folder e)
    (unreadable : Path → String → Output) (next : Path → String → Run) :
    withScript settings folder script unreadable next = .done 1 (e.report settings) := by
  rw [withScript, h]
  cases he <;> rfl

end

/-- Without the name of a script both commands do what they do on the default script if it is there
and no other script is, and what they do on the other script if there is one and the default script
is not there.  In all other cases they fail, read nothing and report only that. -/
theorem check_and_show_unnamed (catalogue : Catalogue) (folder : Folder) (traced : Bool)
    (indent : Int) :
    let settings := Settings.ofVariables none none
    let checked := check settings catalogue folder traced
    let shown := fun script => showJson settings catalogue folder traced script indent
    let here := folder.inner.namesAt []
    let others := here.filter fun name => ".autocheck".toList <:+ name.toList
    ("autocheck.conf" ∈ here → others = [] →
      checked none = checked (some "autocheck.conf") ∧
        shown none = shown (some "autocheck.conf")) ∧
    ("autocheck.conf" ∉ here → ∀ name, others = [name] → IsFileName name →
      checked none = checked (some name) ∧ shown none = shown (some name)) ∧
    (("autocheck.conf" ∈ here ∧ others ≠ []) ∨ ("autocheck.conf" ∉ here ∧ others.length ≠ 1) →
      ∃ e, Undecided folder e ∧ (e.report settings).stdout = "" ∧
        checked none = .done 1 (e.report settings) ∧
          shown none = .done 1 (e.report settings)) := by
  intro settings checked shown here others
  have hcandidates : candidates folder =
      (if "autocheck.conf" ∈ here then ["autocheck.conf"] else []) ++ others := rfl
  refine ⟨fun hthere hothers => ?_, fun hthere name hothers hname => ?_, fun hcount => ?_⟩
  · rw [if_pos hthere, hothers, List.append_nil] at hcandidates
    have hsame := discover_none_eq_some hcandidates isFileName_default
    exact ⟨withScript_congr hsame _ _, withScript_congr hsame _ _⟩
  · rw [if_neg hthere, hothers, List.nil_append] at hcandidates
    have hsame := discover_none_eq_some hcandidates hname
    exact ⟨withScript_congr hsame _ _, withScript_congr hsame _ _⟩
  · have hlength : (candidates folder).length ≠ 1 := by
      rw [hcandidates]
      rcases hcount with ⟨hthere, hothers⟩ | ⟨hthere, hothers⟩
      · simp [hthere, hothers]
      · simpa [hthere] using hothers
    obtain ⟨e, he, hundecided⟩ := exists_undecided hlength
    refine ⟨e, hundecided, ?_, withScript_of_undecided he hundecided _ _,
      withScript_of_undecided he hundecided _ _⟩
    cases hundecided <;> rfl

/-- A script beside a file of another kind. -/
theorem check_and_show_unnamed_lab :
    let folder : Folder := ⟨⟨[(["lab.autocheck"], .file "@grade 1\n".toUTF8),
      (["notes.txt"], .file "".toUTF8)]⟩, .standardRoot⟩
    let settings := Settings.ofVariables none none
    let here := folder.inner.namesAt []
    ("autocheck.conf" ∉ here ∧ IsFileName "lab.autocheck" ∧
      (here.filter fun name => ".autocheck".toList <:+ name.toList) = ["lab.autocheck"]) ∧
    run settings .standard folder ["check"] =
      run settings .standard folder ["check", "--script", "lab.autocheck"] ∧
    run settings .standard folder ["show"] =
      run settings .standard folder ["show", "--script", "lab.autocheck"] := by
  intro folder settings here
  have hhere : here = ["lab.autocheck", "notes.txt"] := by decide
  have hthere : "autocheck.conf" ∉ here := by
    rw [hhere]
    decide
  have hname : IsFileName "lab.autocheck" := by decide
  have hothers : (here.filter fun name => ".autocheck".toList <:+ name.toList) =
      ["lab.autocheck"] := by
    rw [hhere]
    decide
  obtain ⟨-, hother, -⟩ := check_and_show_unnamed .standard folder false 2
  exact ⟨⟨hthere, hname, hothers⟩, hother hthere "lab.autocheck" hothers hname⟩

/-- The default script is not compiled if another script is beside it. -/
theorem check_default_beside_other :
    let folder : Folder := ⟨⟨[(["autocheck.conf"], .file "@grade 1\n".toUTF8),
      (["lab.autocheck"], .file "@grade 2\n".toUTF8)]⟩, .standardRoot⟩
    let settings := Settings.ofVariables none none
    "autocheck.conf" ∈ folder.inner.namesAt [] ∧
      (run settings .standard folder ["check"]).exitCode = 1 ∧
      (run settings .standard folder ["check", "--script", "autocheck.conf"]).exitCode = 0 := by
  intro folder settings
  have hcandidates : candidates folder = ["autocheck.conf", "lab.autocheck"] := by decide
  have hmem : "autocheck.conf" ∈ folder.inner.namesAt [] :=
    mem_of_mem_candidates (by simp [hcandidates])
  have hunnamed : (run settings .standard folder ["check"]).exitCode = 1 := by
    obtain ⟨e, he, hundecided⟩ := exists_undecided (show (candidates folder).length ≠ 1 by
      simp [hcandidates])
    exact congrArg Run.exitCode (withScript_of_undecided he hundecided _ _)
  have hnamed : (run settings .standard folder ["check", "--script", "autocheck.conf"]).exitCode =
      0 := by
    have hfile : folder.get (Path.ofText "autocheck.conf") = .ok (.file "@grade 1\n".toUTF8) := by
      rw [Path.ofText_of_isFileName isFileName_default]
      rfl
    have hread : Script.ofText "@grade 1\n" =
        .ok [.directive "grade" 1 [.literal (.number (.int 1)) 1]] := by cbv
    have hcompile : compileText .standard (String.ofList (Text.withLineFeeds "@grade 1\n".toList)) =
        .ok (.ofState ⟨{ Configuration.empty with grade := some (.int 1) }, .empty, none, []⟩) := by
      have hfeeds : String.ofList (Text.withLineFeeds "@grade 1\n".toList) = "@grade 1\n" := by
        decide
      rw [hfeeds, compileText, hread]
      decide +kernel
    obtain ⟨output, -, hcheck⟩ := check_of_passed settings hfile hcompile rfl
    exact congrArg Run.exitCode hcheck
  exact ⟨hmem, hunnamed, hnamed⟩

end GradingScript.CommandLine
