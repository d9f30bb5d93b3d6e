import ScriptBundle.Proofs.Resolution.Candidates
import ScriptBundle.Proofs.Resolution.Respelled
import ScriptBundle.Proofs.Walk.Step

/-! # References to files that are kept out

A host takes an absolute specifier in an artifact for the identity of a module. So one that means a
file that is kept out is replaced by the way from the folder of the script to the file. The way is a
relative specifier that names the file itself: a search from the folder tries the file before anything
else, whatever its name looks like.

* **`Path.isFolderOnly_specifierFrom`** — the way does not end in a slash;
* **`kind_specifierFrom`** — it is a relative specifier;
* **`searched_specifierFrom`** — the file comes first of all that a search tries;
* **`Walk.outside_reference_names_file`** — what such a reference is replaced by. -/

namespace ScriptBundle

variable {w : Workspace} {extensions : List String} {folder target : Path}

/-! ## The way as a specifier -/

/-- No way is needed only to the folder itself. -/
theorem Path.parts_eq_of_wayParts_eq_nil (h : wayParts folder target = []) :
    folder.parts = target.parts := by
  obtain ⟨up, down⟩ := List.append_eq_nil_iff.mp h
  have all : folder.parts.length ≤ sharedParts folder.parts target.parts := by
    rw [List.replicate_eq_nil_iff] at up
    omega
  have agree := take_sharedParts folder.parts target.parts
  rwa [List.take_of_length_le all, List.take_of_length_le (List.drop_eq_nil_iff.mp down)] at agree

/-- **A relative specifier ends in no slash**, except for that of the folder itself. -/
theorem Path.isFolderOnly_specifierFrom (rooted : folder.isAbsolute = true)
    (far : target.isAbsolute = true) (apart : folder.parts ≠ target.parts) :
    Specifier.isFolderOnly (specifierFrom folder target) = false := by
  obtain ⟨c, last, other⟩ := getLast?_chars_ofParts (areBelow_wayParts rooted far)
    fun none => apart (parts_eq_of_wayParts_eq_nil none)
  rw [← relative_eq_ofParts rooted far] at last
  have ending : (specifierFrom folder target).toList.getLast? = some c := by
    rw [specifierFrom]
    by_cases climbs : "../".toList.isPrefixOf (relative folder target).chars = true
    · rw [if_pos climbs]
      exact last
    · rw [if_neg climbs, String.toList_append, List.getLast?_append]
      exact Option.or_eq_some_iff.mpr (.inl last)
  rw [Specifier.isFolderOnly, ending]
  simpa using other

/-- **The way to a file is a relative specifier.** -/
theorem kind_specifierFrom (folder target : Path) :
    Specifier.kind (Path.specifierFrom folder target) = .relative := by
  rw [Specifier.kind]
  rcases Path.dotted_specifierFrom folder target with ⟨rest, spelled⟩ | ⟨rest, spelled⟩
  · rw [← spelled]
    cases rest <;> rfl
  · rw [← spelled]
    cases rest <;> rfl

/-! ## Searches -/

/-- **The file comes first** of all that is tried for the way to it, from a folder that is spelled
without steps up. -/
theorem searched_specifierFrom (reduced : folder.IsReduced) (far : target.isAbsolute = true)
    (apart : folder.parts ≠ target.parts) (above : List Path) :
    ∃ rest, searched w extensions (Path.specifierFrom folder target) folder above =
      target.normalize :: rest := by
  have way := Path.normalize_join_specifierFrom reduced.isAbsolute reduced.up_notMem_parts far
  rw [searched, kind_specifierFrom, Path.isFolderOnly_specifierFrom reduced.isAbsolute far apart]
  dsimp only
  rw [way]
  exact ⟨_, rfl⟩

/-- **The way to a file means the file.** -/
theorem resolve_specifierFrom (reduced : folder.IsReduced) (far : target.isAbsolute = true)
    (apart : folder.parts ≠ target.parts) (file : w.isFile target.normalize = true) :
    resolve w extensions (Path.specifierFrom folder target) folder =
      .ok (.file target.normalize) := by
  have guest : isHostModule (Path.specifierFrom folder target) = false :=
    isHostModule_of_kind_ne_bare (by simp [kind_specifierFrom])
  obtain ⟨-, -, outcome, -⟩ := resolve_eq_first_candidate w extensions guest reduced.isAbsolute
  obtain ⟨rest, tried⟩ : ∃ rest, searched w extensions (Path.specifierFrom folder target) folder
      folder.normalize.ancestors = target.normalize :: rest :=
    searched_specifierFrom reduced far apart _
  rw [outcome, tried, List.find?_cons_of_pos file]

/-- A folder and a regular file are spelled by different `parts`. -/
theorem parts_ne_of_find_folder {place : Place} (reduced : folder.IsReduced)
    (found : w.find folder = .ok (.folder place)) (normal : target.IsReduced)
    (file : w.isFile target = true) : folder.parts ≠ target.parts := by
  intro same
  obtain ⟨place', content, file⟩ := exists_of_isFile file
  have one := find_normalize reduced found
  have other := find_normalize normal file
  rw [Path.normalize, same, ← Path.normalize, other] at one
  simp at one

namespace Walk

variable {P : Project} {walk : Walk} {referrer location : Path} {specifier : String}

/-- **An absolute reference to a file that is kept out still names the file**, where neither the folder
of the script nor the file is spelled with steps up. It is replaced by a call of a relative `specifier`.
Asked from the folder this means the same file, under a path with the same parts, which is the same
text where it is a normal one; and the file comes first of all that the search tries. -/
theorem outside_reference_names_file {place : Place} (text : List Char)
    (reduced : referrer.folder.IsReduced)
    (found : walk.files.find referrer.folder = .ok (.folder place))
    (absolute : Specifier.kind specifier = .absolute)
    (unnamed : walk.exclusions.holdsName specifier = false)
    (resolved : P.resolve walk.files specifier referrer.folder = .ok (.file location))
    (kept : walk.exclusions.holdsFile location = true) (normal : location.IsReduced) :
    let way := Path.specifierFrom referrer.folder location
    follow P referrer walk text specifier.toList =
        (.ok ("require('" ++ Quoted.escape way ++ "')").toList, walk) ∧
      Specifier.kind way = .relative ∧
      ("./".toList <+: way.toList ∨ "../".toList <+: way.toList) ∧
      P.resolve walk.files way referrer.folder = .ok (.file location.normalize) ∧
      location.normalize.parts = location.parts ∧
      (location.IsNormal → location.normalize = location) ∧
      ∃ rest, searched walk.files P.extensions way referrer.folder
        referrer.folder.normalize.ancestors = location.normalize :: rest := by
  intro way
  have file := (isCandidate_of_resolve resolved).1
  have apart := parts_ne_of_find_folder reduced found normal file
  have outside : P.treatment walk.files walk.exclusions referrer (.ofList specifier.toList) =
      .outside way := by
    have guest : isHostModule specifier = false :=
      isHostModule_of_kind_ne_bare (by simp [absolute])
    simp [Project.treatment, guest, unnamed, resolved, kept, absolute, way]
  have there : walk.files.isFile location.normalize = true := by
    obtain ⟨place, content, spot⟩ := exists_of_isFile file
    rw [Workspace.isFile, find_normalize normal spot]
  refine ⟨?_, kind_specifierFrom .., Path.dotted_specifierFrom ..,
    resolve_specifierFrom reduced normal.isAbsolute apart there, normal.parts_normalize,
    fun spelled => (Path.isNormal_iff.mp spelled).2,
    searched_specifierFrom reduced normal.isAbsolute apart _⟩
  rw [follow_outside outside, Call.write, Quoted.literal]
  simp [String.append_assoc]

/-- A script in a folder, and a file above it whose name holds a quote and looks like a step up. -/
def quotedScripts : Workspace :=
  ⟨⟨[(["s", "a.js"], .text "require('/..it\\'s')"), (["..it's"], .text ""), (["..it's.js"], .text "")],
    []⟩, []⟩

/-- The project of these scripts. -/
def quotedProject : Project :=
  ⟨⟨"/s/a.js"⟩, .initial, Registry.initial.resolutionExtensions, .fail⟩

/-- The walk that keeps out this file. -/
def quotedWalk : Walk :=
  { start quotedProject quotedScripts with exclusions := ⟨[], [[.root, .name "..it's"]]⟩ }

/-- The reference to this file becomes one that leads up to it, and not to the script that is named
like it. -/
theorem outside_reference_names_file_quoted :
    follow quotedProject ⟨"/s/a.js"⟩ quotedWalk [] "/..it's".toList =
        (.ok "require('../..it\\'s')".toList, quotedWalk) ∧
      quotedProject.resolve quotedScripts "../..it's" ⟨"/s"⟩ = .ok (.file ⟨"/..it's"⟩) := by
  have folder : (Path.mk "/s/a.js").folder = ⟨"/s"⟩ := by decide +kernel
  have reduced : (Path.mk "/s/a.js").folder.IsReduced := by
    rw [folder]
    exact ⟨by decide, by decide⟩
  have found : quotedWalk.files.find (Path.mk "/s/a.js").folder = .ok (.folder ["s"]) := by
    rw [folder]
    decide +kernel
  have resolved : quotedProject.resolve quotedWalk.files "/..it's" (Path.mk "/s/a.js").folder =
      .ok (.file ⟨"/..it's"⟩) := by
    rw [folder]
    decide +kernel
  have normal : (Path.mk "/..it's").IsReduced := ⟨by decide, by decide⟩
  have absolute : Specifier.kind "/..it's" = .absolute := by decide
  have way : Path.specifierFrom (Path.mk "/s/a.js").folder ⟨"/..it's"⟩ = "../..it's" := by
    decide +kernel
  have shown : "require('" ++ Quoted.escape "../..it's" ++ "')" = "require('../..it\\'s')" := by
    decide +kernel
  have spelled : (Path.mk "/..it's").normalize = ⟨"/..it's"⟩ := by decide
  obtain ⟨followed, -, -, means, -⟩ := outside_reference_names_file [] reduced found absolute
    (by decide +kernel) resolved (by decide +kernel) normal
  rw [way, shown] at followed
  rw [way, folder, spelled] at means
  exact ⟨followed, means⟩

end Walk

end ScriptBundle
