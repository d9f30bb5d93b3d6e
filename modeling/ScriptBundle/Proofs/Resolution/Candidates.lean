import ScriptBundle.Proofs.Path.Folders
import ScriptBundle.Proofs.Path.Joining
import ScriptBundle.Resolution

/-! # Candidates

A search goes from files to manifests, to indexes and to the folders above. Written out, it tries
the paths of one flat list and takes the first that is a regular file:

* **`candidates`** — the paths that are tried for a path in its normal form;
* **`searched`** — the paths that are tried for a specifier, asked from a folder;
* **`asPath?_eq_find?`, `lookup?_eq_find?`** — a search is the first regular file of the list;
* **`resolve_eq_first_candidate`** — the location of every specifier that is no host module;
* **`isHostModule_of_kind_ne_bare`** — which no relative or absolute specifier is. -/

namespace ScriptBundle

variable (w : Workspace) (extensions : List String)

/-- **The paths tried as a file**: the path itself, then with each extension. -/
def fileCandidates (p : Path) : List Path := p :: extensions.map p.append

/-- **The paths tried as the index of a folder.** -/
def indexCandidates (folder : Path) : List Path := extensions.map (folder.join ⟨indexName⟩).append

/-- **The paths tried for the `main` of the manifest in a folder**; none if it has no `main`. -/
def mainCandidates (folder : Path) : List Path :=
  match manifestMain? w folder with
  | some main =>
    fileCandidates extensions (folder.join ⟨main⟩).normalize ++
      indexCandidates extensions (folder.join ⟨main⟩).normalize
  | none => []

/-- **The paths tried for a path**, in their order: as a file, unless only a folder is meant, by the
`main` of its manifest, and by its index. -/
def candidates (folderOnly : Bool) (target : Path) : List Path :=
  (if folderOnly then [] else fileCandidates extensions target) ++
    (mainCandidates w extensions target ++ indexCandidates extensions target)

/-- **The paths tried for a `specifier`** asked from a folder. A bare one is looked for in the
dependency folders of some folders, one after the other. -/
def searched (specifier : String) (folder : Path) (above : List Path) : List Path :=
  let folderOnly := Specifier.isFolderOnly specifier
  match Specifier.kind specifier with
  | .relative | .absolute => candidates w extensions folderOnly (folder.join ⟨specifier⟩).normalize
  | .bare => above.flatMap fun a => candidates w extensions folderOnly
      ((a.join ⟨Package.dependencyFolder⟩).join ⟨specifier⟩).normalize

variable {w} {extensions} {folder target : Path} {specifier main : String}

/-- The `main` of a manifest is not empty. -/
theorem Manifest.ne_empty_of_main? {text : String} (h : Manifest.main? text = some main) :
    main ≠ "" := by
  obtain ⟨tokens, -, h⟩ := Option.bind_eq_some_iff.mp h
  obtain ⟨value, -, h⟩ := Option.bind_eq_some_iff.mp h
  obtain ⟨_, kept, spelled⟩ := Option.bind_eq_some_iff.mp h
  -- an empty value does not pass the guard
  have full : value ≠ [] := by
    rw [guard] at kept
    split at kept
    · assumption
    · exact absurd kept (by simp [failure])
  intro empty
  refine full (String.ofList_injective ?_)
  rw [Option.some.inj spelled, empty]

/-- **The `main` of the manifest in a folder** is read from a regular file, and is not empty. -/
theorem manifestMain?_eq_some_iff :
    manifestMain? w folder = some main ↔
      w.isFile (folder.join ⟨Package.manifestName⟩) = true ∧
        ∃ text, w.readText (folder.join ⟨Package.manifestName⟩) = .ok text ∧
          Manifest.main? text = some main ∧ main ≠ "" := by
  rw [manifestMain?]
  cases file : w.isFile (folder.join ⟨Package.manifestName⟩) with
  | false => simp
  | true =>
      cases w.readText (folder.join ⟨Package.manifestName⟩) with
      | error cause => simp
      | ok text => simpa using Manifest.ne_empty_of_main?

/-! ## Searches -/

/-- **What `asFolder?` finds** is the first file among the candidates by the `main` of the manifest and
by the index. -/
theorem asFolder?_eq_find? :
    asFolder? w extensions folder =
      (mainCandidates w extensions folder ++ indexCandidates extensions folder).find? w.isFile := by
  rw [asFolder?, mainCandidates]
  cases manifestMain? w folder with
  | none => rfl
  | some main =>
      dsimp only
      rw [List.find?_append, List.find?_append, Option.or_assoc]
      rfl

/-- **A path is looked for among its candidates.** -/
theorem asPath?_eq_find? (folderOnly : Bool) :
    asPath? w extensions target folderOnly =
      (candidates w extensions folderOnly target.normalize).find? w.isFile := by
  rw [asPath?, candidates]
  cases folderOnly with
  | true => rw [if_pos rfl, if_pos rfl, List.nil_append, asFolder?_eq_find?]
  | false =>
      rw [List.find?_append, ← asFolder?_eq_find?]
      rfl

/-- **A `specifier` is looked for among the candidates of the folder it is asked from** and, if it is
bare, of the folders above. -/
theorem lookup?_eq_find? :
    lookup? w extensions specifier folder =
      (searched w extensions specifier folder folder.ancestors).find? w.isFile := by
  rw [lookup?, searched]
  cases Specifier.kind specifier with
  | relative =>
      dsimp only
      rw [asPath?_eq_find?]
  | absolute =>
      dsimp only
      rw [asPath?_eq_find?]
  | bare =>
      dsimp only
      rw [List.find?_flatMap, Path.dependencyFolders, List.findSome?_map]
      simp only [Function.comp_def, asPath?_eq_find?]

/-- The candidates of a `specifier` do not depend on how the folder it is asked from is spelled. -/
theorem searched_normalize (rooted : folder.isAbsolute = true) (above : List Path) :
    searched w extensions specifier folder.normalize above =
      searched w extensions specifier folder above := by
  rw [searched, searched, Path.normalize_join_normalize rooted]

/-- The absolute form of an absolute path is its normal form. -/
theorem absolute_of_isAbsolute (rooted : folder.isAbsolute = true) :
    w.absolute folder = .ok folder.normalize := by
  have written : folder.text ≠ "" := fun e => by simp [Path.isAbsolute, Path.chars, e] at rooted
  rw [Workspace.absolute, if_neg written, Path.join_absolute _ rooted]

/-- **Resolution is the first match over one flat list.** A specifier that is no host module is
asked from an absolute folder. The folders above it are those of its normal form, spelled by fewer
and fewer of its names, and a manifest has a `main` exactly if it is a regular file that reads as a
record with one that is not empty. Then the location is the first regular file among the candidates,
and there is none exactly if no candidate is a regular file. -/
theorem resolve_eq_first_candidate (w : Workspace) (extensions : List String)
    (guest : isHostModule specifier = false) (rooted : folder.isAbsolute = true) :
    (∃ names, (∀ s ∈ names, Part.IsName s) ∧ folder.normalize = .ofNames names ∧
      folder.normalize.ancestors = names.inits.reverse.map .ofNames) ∧
    (∀ target main, manifestMain? w target = some main ↔
      w.isFile (target.join ⟨Package.manifestName⟩) = true ∧
        ∃ text, w.readText (target.join ⟨Package.manifestName⟩) = .ok text ∧
          Manifest.main? text = some main ∧ main ≠ "") ∧
    (resolve w extensions specifier folder =
      match (searched w extensions specifier folder folder.normalize.ancestors).find? w.isFile with
      | some path => .ok (.file path)
      | none => .error (.notFound specifier folder.normalize)) ∧
    (resolve w extensions specifier folder = .error (.notFound specifier folder.normalize) ↔
      ∀ path ∈ searched w extensions specifier folder folder.normalize.ancestors,
        w.isFile path = false) := by
  obtain ⟨names, named, normal⟩ := Path.isNormal_normalize rooted
  have outcome : resolve w extensions specifier folder =
      match (searched w extensions specifier folder folder.normalize.ancestors).find? w.isFile with
      | some path => .ok (.file path)
      | none => .error (.notFound specifier folder.normalize) := by
    rw [← searched_normalize rooted, ← lookup?_eq_find?, resolve, guest,
      absolute_of_isAbsolute rooted]
    rfl
  refine ⟨⟨names, named, normal, normal ▸ Path.ancestors_ofNames_eq_inits named⟩,
    fun target main => manifestMain?_eq_some_iff, outcome, ?_⟩
  rw [outcome]
  constructor
  · intro missing
    split at missing
    · simp at missing
    · rename_i none_found
      simpa using none_found
  · intro missing
    rw [List.find?_eq_none.mpr fun path mem => by simp [missing path mem]]

/-- **Modules of the host are named by bare specifiers.** -/
theorem isHostModule_of_kind_ne_bare (kind : Specifier.kind specifier ≠ .bare) :
    isHostModule specifier = false := by
  have names : ∀ name ∈ HostModule.names, Specifier.kind name = .bare := by decide +kernel
  rw [isHostModule]
  cases scheme : HostModule.scheme.toList.isPrefixOf? specifier.toList with
  | none =>
      exact Bool.eq_false_iff.mpr fun listed => kind (names specifier (List.contains_iff_mem.mp listed))
  | some rest =>
      -- what goes on behind the scheme starts with a letter
      have spelled : specifier.toList = 'n' :: ("ode:".toList ++ rest) :=
        (List.append_eq_of_isPrefixOf?_eq_some scheme).symm
      refine absurd ?_ kind
      rw [Specifier.kind, spelled]
      rfl

/-- A script in a dependency folder. -/
def scriptBeside : Workspace := ⟨⟨[(["a", "node_modules", "x.js"], .text "")], []⟩, []⟩

/-- **The folders above a folder are those above its normal form**, and not those its spelling leads
through: a dependency folder in front of a step up is not looked into. -/
theorem resolve_past_step_up :
    isHostModule "x" = false ∧ (Path.mk "/a/../b").isAbsolute = true ∧
      (searched scriptBeside [".js"] "x" ⟨"/a/../b"⟩ (Path.mk "/a/../b").ancestors).find?
        scriptBeside.isFile = some ⟨"/a/node_modules/x.js"⟩ ∧
      resolve scriptBeside [".js"] "x" ⟨"/a/../b"⟩ = .error (.notFound "x" ⟨"/b"⟩) := by
  refine ⟨?_, ?_, ?_, ?_⟩ <;> decide +kernel

/-- From a folder below, the script is found with its extension. -/
theorem resolve_eq_first_candidate_below :
    isHostModule "x" = false ∧ (Path.mk "/a/b/../c").isAbsolute = true ∧
      resolve scriptBeside [".js"] "x" ⟨"/a/b/../c"⟩ = .ok (.file ⟨"/a/node_modules/x.js"⟩) := by
  have guest : isHostModule "x" = false := by decide +kernel
  have rooted : (Path.mk "/a/b/../c").isAbsolute = true := by decide +kernel
  obtain ⟨-, -, outcome, -⟩ := resolve_eq_first_candidate scriptBeside [".js"] guest rooted
  refine ⟨guest, rooted, outcome.trans ?_⟩
  decide +kernel

end ScriptBundle
