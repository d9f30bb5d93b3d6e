import ScriptBundle.Proofs.Bundle.Setup
import ScriptBundle.Proofs.Path.Identity
import ScriptBundle.Proofs.Path.Idle
import ScriptBundle.Proofs.Path.Joining
import ScriptBundle.Proofs.Walk.Exploration

/-! # The order of a bundle

Which locations a bundle schedules and emits, in which order, said without its walk: the entry script
and what the options add come first, and behind them, location by location, what each of them brings.

* **`Project.manifestOf?_entry`** — no manifest goes with an entry script;
* **`Bundle.explores_of_setup`** — a bundle starts as a search does;
* **`bundle_emission_order`** — the order of every bundle that succeeds. -/

namespace ScriptBundle

open Project (Complete)
open Walk (Explores)

variable {P : Project} {w : Workspace} {x : Exclusions} {walk : Walk} {entry : Path}
  {options : Options} {specifiers : List String} {exempt found : List Path}

/-! ## In front of the first module -/

/-- **No manifest goes with an `entry` script**, unless its own name is that of a dependency folder. -/
theorem Project.manifestOf?_entry (normal : P.entry.IsNormal) (file : w.isFile P.entry = true)
    (own : P.entry.fileName? ≠ some Package.dependencyFolder) : P.manifestOf? w P.entry = none := by
  obtain ⟨s, name, way⟩ := Project.exists_wayParts_entry normal file
  -- the way to the entry script is its name
  have apart : ¬(P.identityOf P.entry).isDependency = true := by
    intro inside
    rw [Project.isDependency_identityOf normal normal.isAbsolute, way, List.mem_singleton] at inside
    exact own (Part.name.inj inside ▸ name)
  exact if_neg apart

/-- What included `specifiers` add keeps the manifests of all. -/
theorem Complete.flatMap_addedBy (spelled : ∀ e ∈ P.extensions, IsTightExtension e)
    (h : Complete P w exempt found) :
    Complete P w exempt ((specifiers.flatMap (P.addedBy w x)).foldl Path.addNew found) := by
  -- on the specifiers; what is found is tight, and comes with its manifest
  induction specifiers generalizing found with
  | nil => exact h
  | cons specifier rest ih =>
      rw [List.flatMap_cons, List.foldl_append]
      refine ih ?_
      unfold Project.addedBy
      split
      · rename_i location resolved
        split
        · exact h
        · exact h.withManifest (isTight_of_resolve spelled resolved)
      · exact h

namespace Bundle

/-- What holds of the `compiler` of JSON documents and of those of the options holds of all that are
registered. -/
theorem holds_of_setup {holds : String → Compiler → Prop}
    (made : (setup w entry options).2 = .ok (P, walk)) (document : holds ".json" .document)
    (new : ∀ compiler ∈ options.compilers, ∀ e ∈ compiler.extensions, holds e compiler) :
    P.registry.Holds holds ∧ P.extensions = P.registry.resolutionExtensions := by
  obtain ⟨registry, between, notices, rooted, registered, whole, -⟩ := setup_ok made
  have initial : Registry.initial.Holds holds := by
    intro known hknown
    rw [List.mem_singleton.mp hknown]
    exact document
  have all := holds_registerAll initial new registered
  rw [whole]
  exact ⟨all, rfl⟩

/-- **What holds of the `extensions` of the host and of the compilers of the options** holds of all that
a search tries. -/
theorem forall_extensions_of_setup {holds : String → Prop}
    (made : (setup w entry options).2 = .ok (P, walk)) (host : ∀ e ∈ hostExtensions, holds e)
    (new : ∀ compiler ∈ options.compilers, ∀ e ∈ compiler.extensions, holds e) :
    ∀ e ∈ P.extensions, holds e := by
  obtain ⟨all, listed⟩ : (P.registry.Holds fun e _ => holds e) ∧
      P.extensions = P.registry.resolutionExtensions :=
    holds_of_setup made (host ".json" (by decide)) new
  rw [listed]
  exact all.resolutionExtensions host

/-- Where the `compilers` of the options are for tight extensions, a search tries no others. -/
theorem isTightExtension_of_setup (made : (setup w entry options).2 = .ok (P, walk))
    (tight : ∀ compiler ∈ options.compilers, ∀ e ∈ compiler.extensions, IsTightExtension e) :
    ∀ e ∈ P.extensions, IsTightExtension e :=
  forall_extensions_of_setup made (by decide) tight

/-- **A bundle starts as a search does**, from its `entry` script and what the options add. -/
theorem explores_of_setup (made : (setup w entry options).2 = .ok (P, walk))
    (spelled : ∀ e ∈ P.extensions, IsTightExtension e)
    (own : P.entry.fileName? ≠ some Package.dependencyFolder) :
    Explores P w walk.exclusions
      (P.entry :: options.included.flatMap (P.addedBy w walk.exclusions)) [] walk := by
  obtain ⟨fresh, scheduled⟩ := setup_spec made
  obtain ⟨normal, file⟩ := isFile_entry made
  -- the entry script alone is complete, as no manifest goes with it
  have first : Complete P w [] [P.entry] := by
    refine ⟨by simpa using normal.isTight, fun p hp _ manifest nearest => ?_⟩
    rw [List.mem_singleton.mp hp, Project.manifestOf?_entry normal file own] at nearest
    simp at nearest
  refine ⟨fresh.files_eq, rfl, fresh.orderly, ?_, ?_, fresh.emitted_eq⟩
  · rw [scheduled]
    exact .start ..
  · rw [scheduled]
    exact Complete.flatMap_addedBy spelled first

end Bundle

/-! ## The whole order -/

/-- **The order of a bundle.** What is `scheduled` is the one list that holds, without repetition and by
first occurrences, the entry script, what the included specifiers add, and what each location of that
list brings; what is emitted is that list without what is kept out. So it is for all compilers that
leave the files as they are and whose extensions spell no idle piece between their slashes. -/
theorem bundle_emission_order {limit : Nat} {chunks : List String} {s : ChunkStream}
    (leaves : ∀ compiler ∈ options.compilers, compiler.LeavesFiles)
    (tight : ∀ compiler ∈ options.compilers, ∀ e ∈ compiler.extensions, IsTightExtension e)
    (made : (Bundle.setup w entry options).2 = .ok (P, walk))
    (own : P.entry.fileName? ≠ some Package.dependencyFolder)
    (whole : (ChunkStream.start walk P.artifact).all P limit = some (.ok chunks, s)) :
    (∀ order, Path.IsDiscovery
        (P.entry :: options.included.flatMap (P.addedBy w walk.exclusions))
        (P.broughtBy w walk.exclusions) order ↔ order = s.walk.scheduled) ∧
      s.walk.emitted = s.walk.scheduled.filter fun p => !walk.exclusions.holdsFile p := by
  obtain ⟨steps, failure, final, drained, result, rfl⟩ :=
    ChunkStream.all_start_eq_some_iff.mp ⟨limit, whole⟩
  -- chunks without an error come from a walk without a failure
  obtain ⟨rfl, -⟩ := orFailure_eq_ok.mp result.symm
  have spelled := Bundle.isTightExtension_of_setup made tight
  obtain ⟨stay, -⟩ : (P.registry.Holds fun _ compiler => compiler.LeavesFiles) ∧ _ :=
    Bundle.holds_of_setup made Compiler.leavesFiles_document fun compiler h _ _ => leaves compiler h
  obtain ⟨discovery, emitted⟩ := (Bundle.explores_of_setup made spelled own).drains spelled stay
    drained
  refine ⟨fun order => ⟨fun other => other.unique discovery, ?_⟩, emitted⟩
  rintro rfl
  exact discovery

/-- A script that refers to a file in a dependency folder, with a manifest above it. -/
def dependentTree : Workspace :=
  ⟨⟨[(["a.js"], .text "require('x')"), (["node_modules", "x.js"], .text ""),
    (["package.json"], .text "\x7b\x7d")], []⟩, []⟩

/-- A compiler that takes notes as they stand. -/
def noteCompiler : Compiler := ⟨"notes", [".note"], false, fun w p => (readSource w p, w)⟩

/-- The options with this compiler. -/
def noteOptions : Options := ⟨[], [], [noteCompiler], .fail⟩

/-- The project of these options. -/
def noteProject : Project :=
  ⟨⟨"/a.js"⟩, ⟨[(".json", .document), (".note", noteCompiler)]⟩, [".js", ".json", ".note"], .fail⟩

/-- The script brings the dependency, and this brings its manifest. -/
theorem drains_dependent : ∃ steps final,
    Walk.Drains noteProject (.start noteProject dependentTree) steps none final ∧
      final.scheduled = [⟨"/a.js"⟩, ⟨"/node_modules/x.js"⟩, ⟨"/package.json"⟩] := by
  have first : ((Walk.start noteProject dependentTree).next noteProject).1 = some (.ok
      ⟨⟨"/a.js"⟩, ⟨"/a.js"⟩, "require('x')", "require('/node_modules/x.js')"⟩) := by decide +kernel
  have second : (((Walk.start noteProject dependentTree).next noteProject).2.next noteProject).1 =
      some (.ok ⟨⟨"/node_modules/x.js"⟩, ⟨"/node_modules/x.js"⟩, "", ""⟩) := by decide +kernel
  have third : ((((Walk.start noteProject dependentTree).next noteProject).2.next noteProject).2.next
      noteProject).1 = some (.ok ⟨⟨"/package.json"⟩, ⟨"/package.json"⟩,
        "module.exports = \x7b\x7d;", "module.exports = \x7b\x7d;"⟩) := by decide +kernel
  have last : (((((Walk.start noteProject dependentTree).next noteProject).2.next noteProject).2.next
      noteProject).2.next noteProject).1 = none := by decide +kernel
  exact ⟨_, _, .step (Prod.ext first rfl) (.step (Prod.ext second rfl) (.step (Prod.ext third rfl)
    (.done (Prod.ext last rfl)))), by decide +kernel⟩

/-- The order of a script, a dependency, and the manifest that goes with it. -/
theorem bundle_emission_order_dependent :
    ∃ P walk limit chunks s,
      (Bundle.setup dependentTree ⟨"a.js"⟩ noteOptions).2 = .ok (P, walk) ∧
      (ChunkStream.start walk P.artifact).all P limit = some (.ok chunks, s) ∧
      s.walk.scheduled = [⟨"/a.js"⟩, ⟨"/node_modules/x.js"⟩, ⟨"/package.json"⟩] ∧
      (∀ order, Path.IsDiscovery
        (P.entry :: noteOptions.included.flatMap (P.addedBy dependentTree walk.exclusions))
        (P.broughtBy dependentTree walk.exclusions) order ↔ order = s.walk.scheduled) ∧
      s.walk.emitted = s.walk.scheduled.filter fun p => !walk.exclusions.holdsFile p := by
  have made : (Bundle.setup dependentTree ⟨"a.js"⟩ noteOptions).2 =
      .ok (noteProject, .start noteProject dependentTree) :=
    Bundle.setup_of_registerAll (by decide +kernel) rfl
  obtain ⟨steps, final, drained, scheduled⟩ := drains_dependent
  obtain ⟨limit, whole⟩ := ChunkStream.all_start_eq_some_iff.mpr ⟨steps, none, final, drained, rfl, rfl⟩
  have leaves : ∀ compiler ∈ noteOptions.compilers, compiler.LeavesFiles := by
    intro compiler h w p
    rw [List.mem_singleton.mp h]
    rfl
  have tight : ∀ compiler ∈ noteOptions.compilers, ∀ e ∈ compiler.extensions,
      IsTightExtension e := by
    intro compiler h
    rw [List.mem_singleton.mp h]
    decide
  have own : noteProject.entry.fileName? ≠ some Package.dependencyFolder := by decide +kernel
  exact ⟨noteProject, .start noteProject dependentTree, limit, _, _, made, whole, scheduled,
    bundle_emission_order leaves tight made own whole⟩

/-! ## Extensions with slashes

An extension may hold slashes, and then the file a search finds need not be spelled by its names. Two
spellings of one file are one location, but the manifest is looked for along the spelling, and a
spelling may be too long for that. So a manifest can be missing that another spelling would bring. -/

/-- A script that refers to a file with an extension, and another one that names the same file. -/
def slashedTree : Workspace :=
  ⟨⟨[(["e.js"], .text "require('./node_modules/x');require('./z.js')"),
    (["z.js"], .text "require('./node_modules/x.a/b/c')"),
    (["node_modules", "x.a", "b", "c"], .text ""),
    (["node_modules", "x.a", "b", "package.json"], .text "\x7b\x7d")], []⟩, []⟩

/-- The entry script. -/
def slashedEntry : Path := ⟨"/e.js"⟩

/-- The other script. -/
def slashedOther : Path := ⟨"/z.js"⟩

/-- The folder of both. -/
def slashedRoot : Path := ⟨"/"⟩

/-- A path without a file, and with one once the extension is put behind it. -/
def slashedStem : Path := ⟨"/node_modules/x"⟩

/-- The file, as it is spelled by its names. -/
def slashedFile : Path := ⟨"/node_modules/x.a/b/c"⟩

/-- The manifest above the file. -/
def slashedManifest : Path := ⟨"/node_modules/x.a/b/package.json"⟩

/-- An extension that leads, behind some idle pieces, to an entry of a folder. -/
def slashedExtension (k : Nat) : String := ".a/" ++ "/".intercalate (Path.idle k ++ ["b", "c"])

/-- A compiler for such an extension. -/
def slashedCompiler (k : Nat) : Compiler :=
  ⟨"slashed", [slashedExtension k], true, fun w p => (readSource w p, w)⟩

/-- The options with this compiler. -/
def slashedOptions (k : Nat) : Options := ⟨[], [], [slashedCompiler k], .collect⟩

/-- The project of these options. -/
def slashedProject (k : Nat) : Project :=
  ⟨slashedEntry, ⟨[(".json", .document), (slashedExtension k, slashedCompiler k)]⟩,
    [".js", ".json", slashedExtension k], .collect⟩

/-- The folder in front of the idle pieces. -/
def slashedFolder : List String := ["node_modules", "x.a"]

/-- The file, as it is spelled with the extension. -/
def slashedPath (k : Nat) : Path := .ofNames (slashedFolder ++ Path.idle k ++ ["b", "c"])

/-- The specifiers in a script of the tree. -/
def specifiersIn (source : String) : List String :=
  (Script.segments (Script.withoutDirective source.toList)).filterMap Segment.specifier?

/-- A `specifier` that is found as a path below the folder of the scripts. -/
def IsBelow (specifier : String) (target : Path) : Prop :=
  (isHostModule specifier = false ∧ Exclusions.none.holdsName specifier = false) ∧
    (Specifier.kind specifier = .relative ∧ Specifier.isFolderOnly specifier = false) ∧
    (slashedRoot.join ⟨specifier⟩).normalize = target

/-- **What the tree answers** where the idle `pieces` have no part in it, each found by evaluation. -/
structure SlashedAnswers : Prop where
  /-- The entry script is one. -/
  entry : Bundle.entryOf slashedTree slashedEntry = .ok slashedEntry
  /-- Its own name is not that of a dependency folder. -/
  own : slashedEntry.fileName? ≠ some Package.dependencyFolder
  /-- The folder of the entry script. -/
  base : slashedEntry.parent?.getD ⟨"/"⟩ = slashedRoot
  /-- The names in front of the idle pieces are names. -/
  folder_names : ∀ s ∈ slashedFolder, s ≠ "" ∧ s ≠ "." ∧ s ≠ ".." ∧ '/' ∉ s.toList
  /-- The names behind them are names. -/
  file_names : ∀ s ∈ ["b", "c"], s ≠ "" ∧ s ≠ "." ∧ s ≠ ".." ∧ '/' ∉ s.toList
  /-- The stem with the start of the extension spells the folder. -/
  stem : "/" ++ "/".intercalate slashedFolder ++ "/" = slashedStem.text ++ ".a/"
  /-- The file by its names. -/
  file : Path.ofNames (slashedFolder ++ ["b", "c"]) = slashedFile
  /-- The length of its spelling. -/
  file_size : slashedFile.text.utf8ByteSize = 21
  /-- The length of the spelling of its folder. -/
  folder_size : (Path.ofNames (slashedFolder ++ ["b"])).text.utf8ByteSize = 19
  /-- The length of the name of a manifest. -/
  manifest_size : Package.manifestName.utf8ByteSize = 12
  /-- The name of a manifest is relative. -/
  manifest_relative : Path.isAbsolute ⟨Package.manifestName⟩ = false
  /-- There is no manifest above the idle pieces. -/
  outer : ((Path.ofNames slashedFolder).ancestors.map
    fun folder => folder.join ⟨Package.manifestName⟩).find? slashedTree.isFile = none
  /-- The extensions of the scripts and of the file. -/
  extensions : slashedEntry.extension = ".js" ∧ slashedOther.extension = ".js" ∧
    slashedFile.extension = ""
  /-- The texts of the scripts and of the file. -/
  texts : slashedTree.readText slashedEntry = .ok "require('./node_modules/x');require('./z.js')" ∧
    slashedTree.readText slashedOther = .ok "require('./node_modules/x.a/b/c')" ∧
    slashedTree.readText slashedFile = .ok ""
  /-- The specifiers in these texts. -/
  specifiers : specifiersIn "require('./node_modules/x');require('./z.js')" =
      ["./node_modules/x", "./z.js"] ∧
    specifiersIn "require('./node_modules/x.a/b/c')" = ["./node_modules/x.a/b/c"] ∧
    specifiersIn "" = []
  /-- The folders these specifiers are asked from. -/
  folders : slashedTree.absolute slashedEntry.folder = .ok slashedRoot ∧
    slashedTree.absolute slashedOther.folder = .ok slashedRoot
  /-- Where these specifiers lead. -/
  below : IsBelow "./node_modules/x" slashedStem ∧ IsBelow "./z.js" slashedOther ∧
    IsBelow "./node_modules/x.a/b/c" slashedFile
  /-- The stem leads to no file, not even with one of the extensions of the host. -/
  missing : slashedTree.isFile slashedStem = false ∧
    slashedTree.isFile (slashedStem.append ".js") = false ∧
    slashedTree.isFile (slashedStem.append ".json") = false
  /-- The other script and the file are regular files. -/
  files : slashedTree.isFile slashedOther = true ∧ slashedTree.isFile slashedFile = true
  /-- The locations are different ones. -/
  apart : (slashedEntry.parts == slashedFile.parts) = false ∧
    (slashedEntry.parts == slashedOther.parts) = false ∧
    (slashedFile.parts == slashedOther.parts) = false ∧
    slashedManifest.isAmong [slashedEntry, slashedFile, slashedOther] = false
  /-- The other script lies in no dependency folder. -/
  outside : (Identity.ofLocation slashedRoot slashedOther).isDependency = false
  /-- The file does. -/
  inside : (Identity.ofLocation slashedRoot slashedFile).isDependency = true
  /-- The manifest is found above the file. -/
  manifest : slashedTree.manifestAbove? slashedFile = some slashedManifest

/-- A text that does not start as `slashedExtension` does is another extension. -/
theorem slashedExtension_ne (k : Nat) {s : String} (h : s.toList.take 2 ≠ ['.', 'a']) :
    slashedExtension k ≠ s := by
  rintro rfl
  exact h (by simp [slashedExtension])

/-- Scripts, and files without an `extension`, are taken as they stand. -/
theorem compilerFor_slashed (k : Nat) {p : Path} (h : p.extension = ".js" ∨ p.extension = "") :
    (slashedProject k).registry.compilerFor p.extension = .source := by
  have js : (".js" == slashedExtension k) = false :=
    beq_eq_false_iff_ne.mpr (slashedExtension_ne k (by decide)).symm
  have none : ("" == slashedExtension k) = false :=
    beq_eq_false_iff_ne.mpr (slashedExtension_ne k (by decide)).symm
  rcases h with h | h <;> rw [h] <;>
    simp [Registry.compilerFor, slashedProject, List.lookup_cons, js, none]

/-- Files without an extension and those that end in `.js` are not for the `slashedCompiler`. -/
theorem compile_slashed (k : Nat) {p : Path} {source : String}
    (h : p.extension = ".js" ∨ p.extension = "") (read : slashedTree.readText p = .ok source) :
    (slashedProject k).registry.compile slashedTree p = (.ok source, slashedTree) := by
  rw [Registry.compile, compilerFor_slashed k h, Compiler.compile_source, readSource, read]

/-- What a script without a JSON `extension` means are the files its specifiers mean, in their order. -/
theorem targetsOf_slashed (k : Nat) {p : Path} (source : String)
    (h : p.extension = ".js" ∨ p.extension = "") :
    (slashedProject k).targetsOf slashedTree .none p source =
      (specifiersIn source).filterMap ((slashedProject k).meantBy? slashedTree .none p) := by
  rw [Project.targetsOf_eq, Project.specifiersOf, Project.segmentsOf, compilerFor_slashed k h]
  rfl

/-- **A specifier that `IsBelow` the folder of the scripts** means what is found for its path as a file.
-/
theorem meantBy?_slashed (k : Nat) {referrer place target : Path} {specifier : String}
    (folder : slashedTree.absolute referrer.folder = .ok slashedRoot)
    (below : IsBelow specifier place)
    (file : asFile? slashedTree (slashedProject k).extensions place = some target) :
    (slashedProject k).meantBy? slashedTree .none referrer specifier = some target := by
  obtain ⟨named, relative, rfl⟩ := below
  exact Project.meantBy?_of_asFile? named relative folder file (Exclusions.holdsFile_none _)

namespace SlashedAnswers

variable (h : SlashedAnswers)

include h

/-- A bundle of these scripts starts as a walk in front of `slashedEntry`. -/
theorem setup (k : Nat) :
    (Bundle.setup slashedTree slashedEntry (slashedOptions k)).2 =
      .ok (slashedProject k, .start (slashedProject k) slashedTree) := by
  have good : isExtension (slashedExtension k) = true := by simp [isExtension, slashedExtension]
  have json : slashedExtension k ≠ ".json" := slashedExtension_ne k (by decide)
  have js : slashedExtension k ≠ ".js" := slashedExtension_ne k (by decide)
  have registered : Bundle.registerAll .initial (slashedOptions k).compilers =
      .ok (slashedProject k).registry := by
    simp [slashedOptions, slashedCompiler, Bundle.registerAll, Registry.register, Registry.refusal?,
      good, Registry.set, Registry.keys, Registry.initial, json, slashedProject]
  let P : Project := { slashedProject k with
    extensions := (slashedProject k).registry.resolutionExtensions }
  have same : P = slashedProject k := by
    simp [P, slashedProject, Registry.resolutionExtensions, Registry.keys, hostExtensions, json, js]
  have made : (Bundle.setup slashedTree slashedEntry (slashedOptions k)).2 =
      .ok (P, .start P slashedTree) :=
    Bundle.setup_of_registerAll h.entry registered
  rw [made, same]

/-- The entry script of `slashedTree` is compiled as it stands. -/
theorem compile_entry (k : Nat) :
    (slashedProject k).registry.compile slashedTree slashedEntry =
      (.ok "require('./node_modules/x');require('./z.js')", slashedTree) :=
  compile_slashed k (.inl h.extensions.1) h.texts.1

/-- The other script of `slashedTree` is compiled as it stands. -/
theorem compile_other (k : Nat) :
    (slashedProject k).registry.compile slashedTree slashedOther =
      (.ok "require('./node_modules/x.a/b/c')", slashedTree) :=
  compile_slashed k (.inl h.extensions.2.1) h.texts.2.1

/-- Identities are seen from `slashedRoot`, the folder of both scripts. -/
theorem identityOf (k : Nat) (p : Path) :
    (slashedProject k).identityOf p = .ofLocation slashedRoot p := by
  rw [Project.identityOf, ← h.base]
  rfl

/-! ### The long spelling -/

/-- The stem with the extension behind it. -/
theorem append_extension (k : Nat) :
    slashedStem.append (slashedExtension k) = slashedPath k := by
  have some_name : Path.idle k ++ ["b", "c"] ≠ [] := by simp
  have text : (slashedPath k).text = slashedStem.text ++ slashedExtension k := by
    rw [slashedPath, Path.text_ofNames, List.append_assoc,
      String.intercalate_append_of_ne_nil (by simp [slashedFolder]) some_name, slashedExtension,
      ← String.append_assoc, ← String.append_assoc, ← String.append_assoc, h.stem]
  rw [Path.append, ← text]

/-- The idle pieces count for nothing in the parts of `slashedPath`. -/
theorem parts_path (k : Nat) : (slashedPath k).parts = slashedFile.parts := by
  rw [slashedPath, Path.parts_ofNames_idle h.folder_names h.file_names (by simp), h.file]

/-- The file with the long spelling, `slashedPath`, has no extension. -/
theorem extension_path (k : Nat) : (slashedPath k).extension = "" := by
  rw [Path.extension, Path.fileName?, h.parts_path]
  exact h.extensions.2.2

/-- The long spelling leads to the file. -/
theorem find_path {k : Nat} (short : k ≤ 4074) :
    slashedTree.find (slashedPath k) = slashedTree.find slashedFile := by
  have size : (slashedPath k).text.utf8ByteSize = 21 + k := by
    rw [slashedPath, Path.utf8ByteSize_ofNames_idle (by simp), h.file, h.file_size]
  rw [Workspace.find, slashedPath, Path.find_ofNames_idle _ _ h.folder_names h.file_names
    (by simp) (by rw [← slashedPath]; omega), h.file]
  rfl

/-- **The manifest is not found** along the long spelling. -/
theorem manifestAbove?_path {k : Nat} (long : 4064 < k) :
    slashedTree.manifestAbove? (slashedPath k) = none := by
  have b : Part.IsName "b" := h.file_names "b" (by simp)
  have c : Part.IsName "c" := h.file_names "c" (by simp)
  -- the folder of the file is spelled with the idle pieces, so a manifest in it has too long a path
  have inner : slashedTree.isFile ((Path.ofNames (slashedFolder ++ Path.idle k ++ ["b"])).join
      ⟨Package.manifestName⟩) = false := by
    refine Path.isFile_of_long ?_
    have grown := Path.le_utf8ByteSize_join (.ofNames (slashedFolder ++ Path.idle k ++ ["b"]))
      h.manifest_relative
    rw [Path.utf8ByteSize_ofNames_idle (by simp), h.folder_size, h.manifest_size] at grown
    omega
  rw [Workspace.manifestAbove?, slashedPath,
    Path.ancestors_ofNames_idle_cons h.folder_names b c, List.tail_cons,
    Path.ancestors_ofNames_idle h.folder_names b, List.map_cons,
    List.find?_cons_of_neg (by rw [inner]; exact Bool.false_ne_true), h.outer]

/-- The file is found with the extension. -/
theorem asFile?_stem {k : Nat} (short : k ≤ 4074) :
    asFile? slashedTree (slashedProject k).extensions slashedStem = some (slashedPath k) := by
  obtain ⟨literal, js, json⟩ := h.missing
  have file : slashedTree.isFile (slashedPath k) = true := by
    rw [Workspace.isFile, h.find_path short]
    exact h.files.2
  simp [asFile?, slashedProject, literal, js, json, h.append_extension, file]

/-! ### The walk -/

/-- The entry script means the file by its long spelling, `slashedPath`, and the other script. -/
theorem targetsOf_entry {k : Nat} (short : k ≤ 4074) :
    (slashedProject k).targetsOf slashedTree .none slashedEntry
      "require('./node_modules/x');require('./z.js')" = [slashedPath k, slashedOther] := by
  have first := meantBy?_slashed k h.folders.1 h.below.1 (h.asFile?_stem short)
  have second := meantBy?_slashed k h.folders.1 h.below.2.1 (asFile?_of_isFile h.files.1)
  rw [targetsOf_slashed k _ (.inl h.extensions.1), h.specifiers.1]
  simp [first, second]

/-- The file itself means nothing. -/
theorem targetsOf_path (k : Nat) :
    (slashedProject k).targetsOf slashedTree .none (slashedPath k) "" = [] := by
  rw [targetsOf_slashed k _ (.inr (h.extension_path k)), h.specifiers.2.2]
  rfl

/-- The other script means the file by its short spelling, `slashedFile`. -/
theorem targetsOf_other (k : Nat) :
    (slashedProject k).targetsOf slashedTree .none slashedOther "require('./node_modules/x.a/b/c')" =
      [slashedFile] := by
  have only := meantBy?_slashed k h.folders.2 h.below.2.2 (asFile?_of_isFile h.files.2)
  rw [targetsOf_slashed k _ (.inl h.extensions.2.1), h.specifiers.2.1]
  simp [only]

/-- No manifest goes with the long spelling. -/
theorem withManifest_path {k : Nat} (long : 4064 < k) :
    (slashedProject k).withManifest slashedTree (slashedPath k) = [slashedPath k] := by
  rw [Project.withManifest, Project.manifestOf?, h.manifestAbove?_path long, ite_self]
  rfl

/-- No manifest goes with the other script. -/
theorem withManifest_other (k : Nat) :
    (slashedProject k).withManifest slashedTree slashedOther = [slashedOther] := by
  rw [Project.withManifest, Project.manifestOf?, h.identityOf, h.outside]
  rfl

/-- The manifest goes with the file. -/
theorem manifestOf?_file (k : Nat) :
    (slashedProject k).manifestOf? slashedTree slashedFile = some slashedManifest := by
  rw [Project.manifestOf?, h.identityOf, h.inside, if_pos rfl, h.manifest]

/-- The long spelling is compiled as the file is. -/
theorem compile_path {k : Nat} (short : k ≤ 4074) :
    (slashedProject k).registry.compile slashedTree (slashedPath k) = (.ok "", slashedTree) := by
  have empty : slashedTree.readText (slashedPath k) = .ok "" := by
    rw [Workspace.readText, Workspace.read, h.find_path short]
    exact h.texts.2.2
  exact compile_slashed k (.inr (h.extension_path k)) empty

/-- The long spelling, the entry script and the other script are different locations, and the long
spelling and the file are one. -/
theorem isAmong_path (k : Nat) :
    (slashedPath k).isAmong [slashedEntry] = false ∧
      slashedOther.isAmong [slashedEntry, slashedPath k] = false ∧
      slashedFile.isAmong [slashedEntry, slashedPath k] = true := by
  obtain ⟨entry_file, entry_other, file_other, -⟩ := h.apart
  refine ⟨?_, ?_, ?_⟩
  · simp [Path.isAmong, h.parts_path, entry_file]
  · simp [Path.isAmong, h.parts_path, entry_other, file_other]
  · simp [Path.isAmong, h.parts_path]

/-- **Behind the entry script** the long spelling brings nothing, and the other script a file that is
known. -/
theorem drains_behind {k : Nat} (short : k ≤ 4074) {walk : Walk}
    (reached : Walk.Reached slashedTree [slashedEntry] [slashedEntry, slashedPath k, slashedOther]
      walk) :
    ∃ steps final, Walk.Drains (slashedProject k) walk steps none final ∧
      final.scheduled = [slashedEntry, slashedPath k, slashedOther] ∧
      final.emitted = [slashedEntry, slashedPath k, slashedOther] := by
  obtain ⟨new, new_other, known⟩ := h.isAmong_path k
  have again : ([slashedFile].flatMap fun target => if target.isAmong [slashedEntry, slashedPath k]
      then [] else (slashedProject k).withManifest slashedTree target) = [] := by simp [known]
  obtain ⟨second, walk₂, e₂, reached₂⟩ := reached.next rfl new (h.compile_path short)
    (h.targetsOf_path k) rfl
  obtain ⟨third, walk₃, e₃, reached₃⟩ := reached₂.next rfl new_other (h.compile_other k)
    (h.targetsOf_other k) (congrArg (List.foldl Path.addNew _) again)
  exact ⟨_, _, .step e₂ (.step e₃ (.done reached₃.next_none)), reached₃.scheduled_eq,
    reached₃.emitted_eq⟩

/-- **What is `scheduled`, and what is not**: no manifest goes with the long spelling of the file, and the
other spelling comes too late to bring one. -/
theorem drains {k : Nat} (long : 4064 < k) (short : k ≤ 4074) :
    ∃ steps final,
      Walk.Drains (slashedProject k) (.start (slashedProject k) slashedTree) steps none final ∧
        final.scheduled = [slashedEntry, slashedPath k, slashedOther] := by
  obtain ⟨new, new_other, -⟩ := h.isAmong_path k
  have brought : ([slashedPath k, slashedOther].flatMap fun target => if target.isAmong [] then []
      else (slashedProject k).withManifest slashedTree target) = [slashedPath k, slashedOther] := by
    simp [Path.isAmong, h.withManifest_path long, h.withManifest_other k]
  have found : ([slashedPath k, slashedOther].flatMap fun target => if target.isAmong [] then []
      else (slashedProject k).withManifest slashedTree target).foldl Path.addNew [slashedEntry] =
        [slashedEntry] ++ slashedPath k :: [slashedOther] := by
    rw [brought, List.foldl_cons, Path.addNew_of_not_isAmong new, List.foldl_cons, List.foldl_nil,
      List.singleton_append, Path.addNew_of_not_isAmong new_other]
    rfl
  obtain ⟨first, walk₁, e₁, reached₁⟩ := (Walk.reached_start (slashedProject k) slashedTree).next rfl
    rfl (h.compile_entry k) (h.targetsOf_entry short) found
  obtain ⟨steps, final, rest, scheduled, -⟩ := h.drains_behind short reached₁
  exact ⟨_, _, .step e₁ rest, scheduled⟩

/-- The other spelling brings the manifest. -/
theorem mem_broughtBy_other (k : Nat) :
    slashedManifest ∈ (slashedProject k).broughtBy slashedTree .none slashedOther := by
  rw [Project.broughtBy, Exclusions.holdsFile_none, h.compile_other]
  simp only [← Project.targetsOf_eq, h.targetsOf_other]
  simp [Project.withManifest, h.manifestOf?_file]

end SlashedAnswers

/-- The tree answers so. -/
theorem slashedAnswers : SlashedAnswers where
  entry := by decide +kernel
  own := by decide +kernel
  base := by decide +kernel
  folder_names := by decide +kernel
  file_names := by decide +kernel
  stem := by decide +kernel
  file := by decide +kernel
  file_size := by decide +kernel
  folder_size := by decide +kernel
  manifest_size := by decide +kernel
  manifest_relative := by decide +kernel
  outer := by decide +kernel
  extensions := by decide +kernel
  texts := by decide +kernel
  specifiers := by decide +kernel
  folders := by decide +kernel
  below := by
    unfold IsBelow
    decide +kernel
  missing := by decide +kernel
  files := by decide +kernel
  apart := by decide +kernel
  outside := by decide +kernel
  inside := by decide +kernel
  manifest := by decide +kernel

/-- **With a slash in an extension, a manifest can be missing**: the other script brings the manifest
above the file, which is not among what the bundle `scheduled`. -/
theorem bundle_emission_order_slashed :
    ∃ P walk limit chunks s,
      (∀ compiler ∈ (slashedOptions 4070).compilers, compiler.LeavesFiles) ∧
      (Bundle.setup slashedTree slashedEntry (slashedOptions 4070)).2 = .ok (P, walk) ∧
      P.entry.fileName? ≠ some Package.dependencyFolder ∧
      (ChunkStream.start walk P.artifact).all P limit = some (.ok chunks, s) ∧
      ¬Path.IsDiscovery
        (P.entry :: (slashedOptions 4070).included.flatMap (P.addedBy slashedTree walk.exclusions))
        (P.broughtBy slashedTree walk.exclusions) s.walk.scheduled := by
  obtain ⟨steps, final, drained, scheduled⟩ := slashedAnswers.drains (k := 4070) (by decide) (by decide)
  obtain ⟨limit, whole⟩ := ChunkStream.all_start_eq_some_iff.mpr ⟨steps, none, final, drained, rfl, rfl⟩
  have leaves : ∀ compiler ∈ (slashedOptions 4070).compilers, compiler.LeavesFiles := by
    intro compiler h w p
    rw [List.mem_singleton.mp h]
    rfl
  refine ⟨slashedProject 4070, .start (slashedProject 4070) slashedTree, limit, _, _, leaves,
    slashedAnswers.setup 4070, slashedAnswers.own, whole, fun discovery => ?_⟩
  -- a discovery would hold what the other script brings, up to its spelling
  have known : slashedManifest.isAmong final.scheduled = true := by
    rw [Path.Discovers.found_eq discovery]
    refine Path.isAmong_foldl_addNew (List.mem_append_right _ ?_)
    exact List.mem_flatMap.mpr ⟨slashedOther, by simp [scheduled], slashedAnswers.mem_broughtBy_other 4070⟩
  have absent : slashedManifest.isAmong final.scheduled = false := by
    have short := slashedAnswers.apart.2.2.2
    simp only [Path.isAmong, List.any_cons, List.any_nil] at short
    rw [scheduled]
    simp only [Path.isAmong, List.any_cons, List.any_nil, slashedAnswers.parts_path, short]
  rw [absent] at known
  exact Bool.false_ne_true known

end ScriptBundle
