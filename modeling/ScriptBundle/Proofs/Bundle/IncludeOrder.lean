import ScriptBundle.Proofs.Bundle.Closure
import ScriptBundle.Proofs.Graph.Circles

/-! # The order of the included specifiers

Two bundles whose options include the same specifiers in another order schedule the same locations,
though they meet them in another order and may find one already made a module where the other finds
it new. What is made of a location does not depend on when it is met. So the two succeed together,
and differ in the order of their modules alone.

* **`Bundle.Yields`** — the modules of a bundle and its output;
* **`Bundle.Reordered`** — outputs that differ in the order of their modules alone;
* **`Bundle.exists_drains_of_same`** — where the walk of one bundle ends, the walk of the other ends
  among the same locations;
* **`bundle_include_order`** — the two bundles succeed together, and their outputs are reordered. -/

namespace ScriptBundle

open Project (IsMade)
open Walk (Drains)

variable {P : Project} {w : Workspace} {x : Exclusions} {walk other final last : Walk} {entry : Path}
  {options : Options} {included : List String} {steps later : List (ModuleRecord × Walk)}

/-! ## Modules and what is said of them -/

namespace Project

variable (P w x)

/-- What is to be noted about a module, over given files. -/
def notesOf (record : ModuleRecord) : List UnresolvedReference :=
  (P.specifiersOf record.location record.compiled).filterMap
    (P.unresolvedBy? w x record.location)

/-- The calls that were written into a module, over given files. -/
def linksOf (record : ModuleRecord) : List (Identity × Identity) :=
  ((P.targetsOf w x record.location record.compiled).map P.identityOf).map (record.identity, ·)

variable {P w x} {step : ModuleRecord × Walk}

/-- What a module notes is read off its record: `unresolvedIn` the step is `notesOf` the record. -/
theorem IsMade.unresolvedIn_eq (h : IsMade P w x step) :
    P.unresolvedIn step = P.notesOf w x step.1 := by
  rw [unresolvedIn, notesOf, h.files_eq, h.exclusions_eq]

/-- What a module calls is read off its record: `callsOf` the step is `linksOf` the record. -/
theorem IsMade.callsOf_eq (h : IsMade P w x step) : P.callsOf step = P.linksOf w x step.1 := by
  rw [callsOf, linksOf, targetsIn, h.files_eq, h.exclusions_eq]

/-- What steps say is what their modules say. -/
theorem flatMap_of_isMade {α : Type} {f : ModuleRecord × Walk → List α} {g : ModuleRecord → List α}
    (made : ∀ step ∈ steps, IsMade P w x step) (same : ∀ step, IsMade P w x step → f step = g step.1) :
    steps.flatMap f = (steps.map Prod.fst).flatMap g := by
  rw [List.flatMap_map]
  exact List.flatMap_congr fun step hstep => same step (made step hstep)

end Project

namespace Bundle

/-- **The modules of a bundle and its `output`**, where it succeeds. -/
def Yields (w : Workspace) (entry : Path) (options : Options) (records : List ModuleRecord)
    (output : Output) : Prop :=
  ∃ P walk steps final, (setup w entry options).2 = .ok (P, walk) ∧
    Drains P walk steps none final ∧ records = steps.map Prod.fst ∧
    output = ⟨String.join (P.artifact.header ::
        (records.map ChunkStream.blockOf ++ [Artifact.footer])),
      ⟨records.map (·.identity), final.unresolved, final.graph.circularGroups,
        final.graph.dependencyCount⟩⟩

/-- A `bundle` that succeeds has modules. -/
theorem exists_yields_iff {output : Output} :
    (∃ limit, bundle limit w entry options = some (.ok output)) ↔
      ∃ records, Yields w entry options records output := by
  rw [bundle_eq_ok_iff]
  constructor
  · rintro ⟨P, walk, steps, final, made, drained, rfl⟩
    refine ⟨steps.map Prod.fst, P, walk, steps, final, made, drained, rfl, ?_⟩
    rw [List.map_map, List.map_map]
    rfl
  · rintro ⟨records, P, walk, steps, final, made, drained, rfl, rfl⟩
    refine ⟨P, walk, steps, final, made, drained, ?_⟩
    rw [List.map_map, List.map_map]
    rfl

/-- A bundle yields one `output`. -/
theorem Yields.unique {records others : List ModuleRecord} {output report : Output}
    (h : Yields w entry options records output) (h' : Yields w entry options others report) :
    records = others ∧ output = report := by
  obtain ⟨P, walk, steps, final, made, drained, rfl, rfl⟩ := h
  obtain ⟨P', walk', steps', final', made', drained', rfl, rfl⟩ := h'
  obtain ⟨rfl, rfl⟩ := Prod.mk.inj (Except.ok.inj (made.symm.trans made'))
  obtain ⟨rfl, -, rfl⟩ := drained.unique drained'
  exact ⟨rfl, rfl⟩

/-- The modules of a `walk` that comes to its end are made of the locations it emitted. -/
theorem map_location_of_drains (made : (setup w entry options).2 = .ok (P, walk))
    (drained : Drains P walk steps none final) :
    (steps.map Prod.fst).map ModuleRecord.location = final.emitted := by
  have consistent := (((setup_spec made).1.consistent (P := P)
    (isAbsolute_of_setup made)).drains drained).1
  rw [consistent.emitted_eq, List.map_map]
  rfl

/-- **Outputs that differ in the order of their `modules` alone.** -/
structure Reordered (records others : List ModuleRecord) (report other : Report) : Prop where
  /-- The modules are the same, with their locations, identities and texts. -/
  records : records.Perm others
  /-- The modules are reported under the same identities. -/
  modules : report.modules.Perm other.modules
  /-- The same references are reported to be without a target, each as often. -/
  unresolved : report.unresolved.Perm other.unresolved
  /-- As many references are reported. -/
  dependencyCount_eq : report.dependencyCount = other.dependencyCount
  /-- The same groups are reported. -/
  circularGroups_eq : report.circularGroups = other.circularGroups

/-! ## The same locations -/

/-- The modules of a bundle are made of their locations, in the order these became modules. -/
theorem Ends.records_eq (h : Ends P w x steps final) :
    steps.map Prod.fst = final.emitted.filterMap (P.recordOf? w x) := by
  rw [h.consistent.emitted_eq, List.filterMap_map]
  have each : ∀ step ∈ steps, (P.recordOf? w x ∘ fun step => step.1.location) step = some step.1 :=
    fun step hstep => (h.made step hstep).record_eq
  rw [List.filterMap_congr each, List.filterMap_eq_map']

/-- **Where the `walk` of one bundle ends, so does the walk of another** that has the same included
specifiers, among the same locations. -/
theorem exists_drains_of_same (options : Options) (included : List String)
    (leaves : ∀ p, (P.registry.compile w p).2 = w) (spelled : ∀ e ∈ P.extensions, IsTightExtension e)
    (made : (setup w entry options).2 = .ok (P, walk))
    (remade : (setup w entry { options with included }).2 = .ok (P, other))
    (kept : other.exclusions = walk.exclusions)
    (same : ∀ specifier ∈ included, specifier ∈ options.included)
    (drained : Drains P walk steps none final) :
    ∃ later last, Drains P other later none last ∧ ∀ p ∈ last.scheduled, p ∈ final.scheduled := by
  have ends := ends_of_drains made leaves spelled drained
  have steady := steady_of_setup remade
  have grown := drained.scheduled_subset (steady_of_setup made).orderly
  rw [kept] at steady
  -- what the first walk scheduled is a closed set, and holds what the second starts from
  refine steady.exists_drains leaves (fun p hp => grown ?_) ends.packable ends.closed
  refine scheduled_of_mem_addedBy made spelled ?_
  refine (mem_scheduled_of_setup remade hp).imp_right fun ⟨specifier, listed, added⟩ => ?_
  exact ⟨specifier, same specifier listed, kept ▸ added⟩

/-- **Ends with the same locations** are reordered. -/
theorem Ends.reordered (h : Ends P w x steps final) (h' : Ends P w x later last)
    (same : ∀ p, p ∈ final.scheduled ↔ p ∈ last.scheduled) :
    (steps.map Prod.fst).Perm (later.map Prod.fst) ∧ final.unresolved.Perm last.unresolved ∧
      final.graph.dependencyCount = last.graph.dependencyCount ∧
      final.graph.circularGroups = last.graph.circularGroups := by
  have emitted : final.emitted.Perm last.emitted := by
    refine (List.perm_ext_iff_of_nodup h.nodup h'.nodup).mpr fun p => ?_
    constructor
    · intro hp
      obtain ⟨scheduled, kept⟩ := h.scheduled p hp
      exact h'.mem_emitted p ((same p).mp scheduled) kept
    · intro hp
      obtain ⟨scheduled, kept⟩ := h'.scheduled p hp
      exact h.mem_emitted p ((same p).mpr scheduled) kept
  have records : (steps.map Prod.fst).Perm (later.map Prod.fst) := by
    rw [h.records_eq, h'.records_eq]
    exact emitted.filterMap _
  have unresolved : final.unresolved.Perm last.unresolved := by
    rw [h.unresolved_eq, h'.unresolved_eq,
      Project.flatMap_of_isMade h.made fun _ made => made.unresolvedIn_eq,
      Project.flatMap_of_isMade h'.made fun _ made => made.unresolvedIn_eq]
    exact records.flatMap_right _
  -- both graphs have the same references, in whatever order
  have calls : (steps.flatMap P.callsOf).Perm (later.flatMap P.callsOf) := by
    rw [Project.flatMap_of_isMade h.made fun _ made => made.callsOf_eq,
      Project.flatMap_of_isMade h'.made fun _ made => made.callsOf_eq]
    exact records.flatMap_right _
  have references : ∀ pair, pair ∈ final.graph.references ↔ pair ∈ last.graph.references := by
    intro pair
    rw [h.consistent.references, h'.consistent.references, calls.mem_iff]
  refine ⟨records, unresolved, ?_, ?_⟩
  · rw [DependencyGraph.dependencyCount_eq h.consistent.numbered references,
      DependencyGraph.dependencyCount_eq h'.consistent.numbered fun pair => Iff.rfl]
  · exact (DependencyGraph.groupList_circularGroups h.consistent.numbered).unique
      (DependencyGraph.groupList_circularGroups h'.consistent.numbered) references

end Bundle

open ScriptBundle.Bundle (Yields Reordered)

/-- **A bundle with the same included specifiers** succeeds as well, and its `output` is reordered. -/
theorem Bundle.exists_reordered (options : Options) (included : List String)
    (leaves : ∀ compiler ∈ options.compilers, compiler.LeavesFiles)
    (tight : ∀ compiler ∈ options.compilers, ∀ e ∈ compiler.extensions, IsTightExtension e)
    (same : ∀ specifier, specifier ∈ included ↔ specifier ∈ options.included)
    {records : List ModuleRecord} {output : Output} (yields : Yields w entry options records output) :
    ∃ others other, Yields w entry { options with included } others other ∧
      Reordered records others output.report other.report := by
  obtain ⟨P, walk, steps, final, made, drained, rfl, rfl⟩ := yields
  have spelled := Bundle.isTightExtension_of_setup made tight
  have leave := Bundle.files_compile_of_setup made leaves
  have all := Bundle.resolve_of_setup made
  obtain ⟨start, remade, kept⟩ := Bundle.exists_setup_of_resolve made
    fun specifier listed => all specifier ((same specifier).mp listed)
  obtain ⟨later, last, redrained, inside⟩ := Bundle.exists_drains_of_same options included leave
    spelled made remade kept (fun specifier => (same specifier).mp) drained
  -- the other way round as well: the first walk is the only one, so it stays among the same locations
  obtain ⟨again, final', drained', outside⟩ := Bundle.exists_drains_of_same
    { options with included } options.included leave spelled remade made kept.symm
    (fun specifier => (same specifier).mpr) redrained
  obtain ⟨-, -, rfl⟩ := drained.unique drained'
  have ends := Bundle.ends_of_drains made leave spelled drained
  have ends' := Bundle.ends_of_drains remade leave spelled redrained
  rw [kept] at ends'
  obtain ⟨perm, unresolved, count, groups⟩ :=
    ends.reordered ends' fun p => ⟨outside p, inside p⟩
  exact ⟨_, _, ⟨P, start, later, last, remade, redrained, rfl, rfl⟩,
    ⟨perm, perm.map _, unresolved, count, groups⟩⟩

/-- **The order of the included specifiers changes only the order of the `output`.** Of two bundles
whose included specifiers are the same but for their order, both succeed or none does; and if they
do, they make the same modules, with the same identities and texts, note the same references as
often, and report as many references between modules and the same groups. So it is for all compilers
that leave the files as they are and whose extensions spell no idle piece between their
slashes. -/
theorem bundle_include_order (leaves : ∀ compiler ∈ options.compilers, compiler.LeavesFiles)
    (tight : ∀ compiler ∈ options.compilers, ∀ e ∈ compiler.extensions, IsTightExtension e)
    (perm : included.Perm options.included) :
    ((∃ limit output, bundle limit w entry options = some (.ok output)) ↔
      ∃ limit output, bundle limit w entry { options with included } = some (.ok output)) ∧
    ∀ limit output limit' output', bundle limit w entry options = some (.ok output) →
      bundle limit' w entry { options with included } = some (.ok output') →
      ∃ records others, Yields w entry options records output ∧
        Yields w entry { options with included } others output' ∧
        Reordered records others output.report output'.report := by
  refine ⟨⟨?_, ?_⟩, ?_⟩
  · rintro ⟨limit, output, whole⟩
    obtain ⟨records, yields⟩ := Bundle.exists_yields_iff.mp ⟨limit, whole⟩
    obtain ⟨others, other, again, -⟩ :=
      Bundle.exists_reordered options included leaves tight (fun _ => perm.mem_iff) yields
    obtain ⟨limit', whole'⟩ := Bundle.exists_yields_iff.mpr ⟨others, again⟩
    exact ⟨limit', other, whole'⟩
  · rintro ⟨limit, output, whole⟩
    obtain ⟨records, yields⟩ := Bundle.exists_yields_iff.mp ⟨limit, whole⟩
    obtain ⟨others, other, again, -⟩ := Bundle.exists_reordered { options with included }
      options.included leaves tight (fun _ => perm.mem_iff.symm) yields
    obtain ⟨limit', whole'⟩ := Bundle.exists_yields_iff.mpr ⟨others, again⟩
    exact ⟨limit', other, whole'⟩
  · intro limit output limit' output' whole whole'
    obtain ⟨records, yields⟩ := Bundle.exists_yields_iff.mp ⟨limit, whole⟩
    obtain ⟨others, yields'⟩ := Bundle.exists_yields_iff.mp ⟨limit', whole'⟩
    obtain ⟨_, _, again, reordered⟩ :=
      Bundle.exists_reordered options included leaves tight (fun _ => perm.mem_iff) yields
    obtain ⟨rfl, rfl⟩ := yields'.unique again
    exact ⟨records, others, yields, yields', reordered⟩

/-- The options that include a dependency and the manifest beside the script, with a compiler of
their own. -/
def twoIncluded (included : List String) : Options := { noteOptions with included }

/-- A `bundle` that includes a dependency and a manifest, in either order. -/
theorem bundle_include_order_dependent :
    (∀ compiler ∈ (twoIncluded ["x", "./package.json"]).compilers, compiler.LeavesFiles) ∧
      (∀ compiler ∈ (twoIncluded ["x", "./package.json"]).compilers, ∀ e ∈ compiler.extensions,
        IsTightExtension e) ∧
      ["./package.json", "x"].Perm (twoIncluded ["x", "./package.json"]).included ∧
      ∃ limit output limit' output',
        bundle limit dependentTree ⟨"a.js"⟩ (twoIncluded ["x", "./package.json"]) =
          some (.ok output) ∧
        bundle limit' dependentTree ⟨"a.js"⟩ (twoIncluded ["./package.json", "x"]) =
          some (.ok output') ∧
        ∃ records others,
          Yields dependentTree ⟨"a.js"⟩ (twoIncluded ["x", "./package.json"]) records output ∧
          Yields dependentTree ⟨"a.js"⟩ (twoIncluded ["./package.json", "x"]) others output' ∧
          Reordered records others output.report output'.report := by
  have leaves : ∀ compiler ∈ (twoIncluded ["x", "./package.json"]).compilers,
      compiler.LeavesFiles := by
    intro compiler h w p
    rw [List.mem_singleton.mp h]
    rfl
  have tight : ∀ compiler ∈ (twoIncluded ["x", "./package.json"]).compilers,
      ∀ e ∈ compiler.extensions, IsTightExtension e := by
    intro compiler h
    rw [List.mem_singleton.mp h]
    decide
  have perm : ["./package.json", "x"].Perm (twoIncluded ["x", "./package.json"]).included :=
    List.Perm.swap ..
  have succeeds : ((bundle 10 dependentTree ⟨"a.js"⟩ (twoIncluded ["x", "./package.json"])).bind
      Except.toOption).isSome = true := by
    decide +kernel
  obtain ⟨output, whole⟩ : ∃ output,
      bundle 10 dependentTree ⟨"a.js"⟩ (twoIncluded ["x", "./package.json"]) = some (.ok output) := by
    obtain ⟨_, found⟩ := Option.isSome_iff_exists.mp succeeds
    obtain ⟨outcome, whole, fine⟩ := Option.bind_eq_some_iff.mp found
    cases outcome with
    | error _ => cases fine
    | ok output => exact ⟨output, whole⟩
  obtain ⟨both, same⟩ := bundle_include_order leaves tight perm
  obtain ⟨limit', output', whole'⟩ := both.mp ⟨10, output, whole⟩
  exact ⟨leaves, tight, perm, 10, output, limit', output', whole, whole',
    same 10 output limit' output' whole whole'⟩

/-! ## Extensions with slashes

Where an extension holds a slash, the walk may meet one location under two spellings, and only one
of them may be short enough for the manifest above it to be found. The order of the included
specifiers decides which location is made a module first, and so whether the manifest is still
scheduled. -/

/-- The specifier that is found with the extension. -/
def slashedSpecifier : String := "./node_modules/x"

/-- The specifier of the other script. -/
def otherSpecifier : String := "./z.js"

/-- The options that include some specifiers, with the extension. -/
def slashedInclusions (k : Nat) (included : List String) : Options :=
  { slashedOptions k with included }

/-- The manifest is a JSON `document`. -/
theorem compilerFor_slashedManifest (k : Nat) :
    (slashedProject k).registry.compilerFor slashedManifest.extension = .document := by
  have json : slashedManifest.extension = ".json" := by decide +kernel
  rw [json]
  rfl

/-- The manifest of `slashedTree` is compiled as the JSON document it is. -/
theorem compile_slashedManifest (k : Nat) :
    (slashedProject k).registry.compile slashedTree slashedManifest =
      (.ok "module.exports = \x7b\x7d;", slashedTree) := by
  have read : Compiler.readDocument slashedTree slashedManifest =
      .ok "module.exports = \x7b\x7d;" := by
    decide +kernel
  rw [Registry.compile, compilerFor_slashedManifest]
  exact Prod.ext read rfl

/-- A document refers to nothing. -/
theorem targetsOf_slashedManifest (k : Nat) :
    (slashedProject k).targetsOf slashedTree .none slashedManifest
      "module.exports = \x7b\x7d;" = [] := by
  have plain : Compiler.document.emitsReferences = false := rfl
  rw [Project.targetsOf, Project.segmentsOf, compilerFor_slashedManifest, plain,
    if_neg Bool.false_ne_true, List.filterMap_map]
  exact List.filterMap_eq_nil_iff.mpr fun _ _ => rfl

namespace SlashedAnswers

open Walk (Reached)

variable (h : SlashedAnswers) {k : Nat}

include h

/-- What the two specifiers mean. -/
theorem resolve_included (short : k ≤ 4074) :
    (slashedProject k).resolve slashedTree slashedSpecifier (slashedProject k).base =
        .ok (.file (slashedPath k)) ∧
      (slashedProject k).resolve slashedTree otherSpecifier (slashedProject k).base =
        .ok (.file slashedOther) := by
  have folder : slashedEntry.folder = (slashedProject k).base := by
    have root : slashedEntry.folder = slashedRoot := by decide +kernel
    rw [root, ← h.base]
    rfl
  have first := meantBy?_slashed k h.folders.1 h.below.1 (h.asFile?_stem short)
  have second := meantBy?_slashed k h.folders.1 h.below.2.1 (asFile?_of_isFile h.files.1)
  rw [← folder]
  exact ⟨Project.resolve_of_meantBy? first, Project.resolve_of_meantBy? second⟩

/-- A bundle that includes the two specifiers in some order, in front of its first module. -/
theorem reached_of_included (long : 4064 < k) (short : k ≤ 4074) (included : List (String × Path))
    (listed : ∀ found ∈ included,
      found = (slashedSpecifier, slashedPath k) ∨ found = (otherSpecifier, slashedOther)) :
    ∃ walk, (Bundle.setup slashedTree slashedEntry (slashedInclusions k (included.map Prod.fst))).2 =
        .ok (slashedProject k, walk) ∧
      Reached slashedTree [] (Path.distinct (slashedEntry :: included.map Prod.snd)) walk := by
  obtain ⟨first, second⟩ := h.resolve_included short
  have all : ∀ specifier ∈ included.map Prod.fst, ∃ location,
      (slashedProject k).resolve slashedTree specifier (slashedProject k).base = .ok location := by
    refine List.forall_mem_map.mpr fun found hfound => ?_
    rcases listed found hfound with rfl | rfl
    · exact ⟨_, first⟩
    · exact ⟨_, second⟩
  obtain ⟨walk, made, kept⟩ := Bundle.exists_setup_of_resolve (h.setup k) all
  obtain ⟨fresh, scheduled⟩ := Bundle.setup_spec made
  have none : walk.exclusions = .none := kept
  refine ⟨walk, made, fresh.files_eq, none, fresh.orderly, ?_, fresh.emitted_eq⟩
  have adds : ∀ found ∈ included,
      (slashedProject k).addedBy slashedTree walk.exclusions found.1 = [found.2] := by
    intro found hfound
    rcases listed found hfound with rfl | rfl
    · rw [Project.addedBy, first, none]
      simp [h.withManifest_path long]
    · rw [Project.addedBy, second, none]
      simp [h.withManifest_other k]
  have added : (included.map Prod.fst).flatMap
      ((slashedProject k).addedBy slashedTree walk.exclusions) = included.map Prod.snd := by
    rw [List.flatMap_map, List.map_eq_flatMap]
    exact List.flatMap_congr adds
  rw [scheduled]
  exact congrArg (fun behind => Path.distinct (slashedEntry :: behind)) added

/-- What the entry script refers to is known where both specifiers were included. -/
theorem foldl_addNew_targets (long : 4064 < k) {found : List Path}
    (path : slashedPath k ∈ found) (script : slashedOther ∈ found) :
    ([slashedPath k, slashedOther].flatMap fun target => if target.isAmong [] then []
      else (slashedProject k).withManifest slashedTree target).foldl Path.addNew found = found := by
  refine Path.foldl_addNew_of_isAmong fun q hq => ?_
  have brought : q = slashedPath k ∨ q = slashedOther := by
    simpa [Path.isAmong, h.withManifest_path long, h.withManifest_other k] using hq
  rcases brought with rfl | rfl
  · exact Path.isAmong_of_mem path
  · exact Path.isAmong_of_mem script

/-- The scripts and the long spelling are different locations. -/
theorem nodup_parts (k : Nat) :
    ([slashedEntry, slashedPath k, slashedOther].map Path.parts).Nodup := by
  obtain ⟨entry_file, entry_other, file_other, -⟩ := h.apart
  rw [beq_eq_false_iff_ne] at entry_file entry_other file_other
  simp [h.parts_path, entry_file, entry_other, file_other]

/-- **With the long spelling included first**, the other script comes behind it, and the manifest is
missed. -/
theorem drains_path_first (long : 4064 < k) (short : k ≤ 4074) :
    ∃ walk steps final, (Bundle.setup slashedTree slashedEntry
        (slashedInclusions k [slashedSpecifier, otherSpecifier])).2 = .ok (slashedProject k, walk) ∧
      Drains (slashedProject k) walk steps none final ∧
      final.emitted = [slashedEntry, slashedPath k, slashedOther] := by
  obtain ⟨walk, made, reached⟩ := h.reached_of_included long short
    [(slashedSpecifier, slashedPath k), (otherSpecifier, slashedOther)] (by simp)
  have listed := Path.distinct_of_nodup (h.nodup_parts k)
  simp only [List.map_cons, List.map_nil, listed] at reached
  obtain ⟨record, walk₁, e₁, reached₁⟩ := reached.next rfl rfl (h.compile_entry k)
    (h.targetsOf_entry short) (h.foldl_addNew_targets long (by simp) (by simp))
  obtain ⟨steps, final, rest, -, emitted⟩ := h.drains_behind short reached₁
  exact ⟨walk, _, final, made, .step e₁ rest, emitted⟩

/-- The manifest is another location than the scripts and the file. -/
theorem isAmong_manifest (k : Nat) :
    slashedManifest.isAmong [slashedEntry, slashedOther, slashedPath k] = false := by
  have absent := h.apart.2.2.2
  simp only [Path.isAmong, List.any_cons, List.any_nil, Bool.or_eq_false_iff] at absent ⊢
  rw [h.parts_path]
  exact ⟨absent.1, absent.2.2.1, absent.2.1, trivial⟩

/-- **With the other script included first**, it brings the manifest. -/
theorem drains_other_first (long : 4064 < k) (short : k ≤ 4074) :
    ∃ walk steps final, (Bundle.setup slashedTree slashedEntry
        (slashedInclusions k [otherSpecifier, slashedSpecifier])).2 = .ok (slashedProject k, walk) ∧
      Drains (slashedProject k) walk steps none final ∧
      final.emitted = [slashedEntry, slashedOther, slashedPath k, slashedManifest] := by
  obtain ⟨entry_file, entry_other, file_other, -⟩ := h.apart
  have new : slashedOther.isAmong [slashedEntry] = false := by simp [Path.isAmong, entry_other]
  have new_path : (slashedPath k).isAmong [slashedEntry, slashedOther] = false := by
    have other_file : (slashedOther.parts == slashedFile.parts) = false := by
      rw [BEq.comm]
      exact file_other
    simp [Path.isAmong, h.parts_path, entry_file, other_file]
  have new_manifest := h.isAmong_manifest k
  have fresh : slashedFile.isAmong [slashedEntry] = false := by simp [Path.isAmong, entry_file]
  have known_file : slashedFile.isAmong [slashedEntry, slashedOther, slashedPath k] = true := by
    rw [Path.isAmong, ← h.parts_path k]
    exact Path.isAmong_of_mem (by simp)
  obtain ⟨walk, made, reached⟩ := h.reached_of_included long short
    [(otherSpecifier, slashedOther), (slashedSpecifier, slashedPath k)] (by simp)
  have swapped : [slashedEntry, slashedOther, slashedPath k].Perm
      [slashedEntry, slashedPath k, slashedOther] := (List.Perm.swap ..).cons _
  have listed := Path.distinct_of_nodup
    ((swapped.map Path.parts).nodup_iff.mpr (h.nodup_parts k))
  simp only [List.map_cons, List.map_nil, listed] at reached
  -- the file is no module when the other script refers to it, so it is met with its manifest
  have brought : ([slashedFile].flatMap fun target => if target.isAmong [slashedEntry] then []
      else (slashedProject k).withManifest slashedTree target).foldl Path.addNew
        ([slashedEntry] ++ slashedOther :: [slashedPath k]) =
      [slashedEntry] ++ [slashedOther] ++ slashedPath k :: [slashedManifest] := by
    have goes : (slashedProject k).withManifest slashedTree slashedFile =
        [slashedFile, slashedManifest] := by
      rw [Project.withManifest, h.manifestOf?_file]
      rfl
    rw [List.flatMap_singleton, fresh, if_neg Bool.false_ne_true, goes, List.foldl_cons,
      List.foldl_cons, List.foldl_nil]
    have kept := Path.addNew_of_isAmong known_file
    have grown := Path.addNew_of_not_isAmong new_manifest
    exact (congrArg (Path.addNew · slashedManifest) kept).trans grown
  obtain ⟨first, walk₁, e₁, reached₁⟩ := reached.next rfl rfl (h.compile_entry k)
    (h.targetsOf_entry short) (h.foldl_addNew_targets long (by simp) (by simp))
  obtain ⟨second, walk₂, e₂, reached₂⟩ := reached₁.next rfl new (h.compile_other k)
    (h.targetsOf_other k) brought
  obtain ⟨third, walk₃, e₃, reached₃⟩ := reached₂.next rfl new_path (h.compile_path short)
    (h.targetsOf_path k) rfl
  obtain ⟨fourth, walk₄, e₄, reached₄⟩ := reached₃.next rfl new_manifest (compile_slashedManifest k)
    (targetsOf_slashedManifest k) rfl
  exact ⟨walk, _, _, made, .step e₁ (.step e₂ (.step e₃ (.step e₄ (.done reached₄.next_none)))),
    reached₄.emitted_eq⟩

end SlashedAnswers

/-- **With a slash in an extension, the order of the included specifiers matters**: both bundles
succeed, and one of them makes a module of a manifest of which the other makes none. -/
theorem bundle_include_order_slashed :
    (∀ compiler ∈ (slashedInclusions 4070 [slashedSpecifier, otherSpecifier]).compilers,
        compiler.LeavesFiles) ∧
      [otherSpecifier, slashedSpecifier].Perm
        (slashedInclusions 4070 [slashedSpecifier, otherSpecifier]).included ∧
      ∃ limit output limit' output' records others,
        bundle limit slashedTree slashedEntry
            (slashedInclusions 4070 [slashedSpecifier, otherSpecifier]) = some (.ok output) ∧
        bundle limit' slashedTree slashedEntry
            (slashedInclusions 4070 [otherSpecifier, slashedSpecifier]) = some (.ok output') ∧
        Yields slashedTree slashedEntry
          (slashedInclusions 4070 [slashedSpecifier, otherSpecifier]) records output ∧
        Yields slashedTree slashedEntry
          (slashedInclusions 4070 [otherSpecifier, slashedSpecifier]) others output' ∧
        ∃ record ∈ others, ∀ made ∈ records, made.location.parts ≠ record.location.parts := by
  have leaves : ∀ compiler ∈ (slashedInclusions 4070 [slashedSpecifier, otherSpecifier]).compilers,
      compiler.LeavesFiles := by
    intro compiler h w p
    rw [List.mem_singleton.mp h]
    rfl
  obtain ⟨walk, steps, final, made, drained, emitted⟩ :=
    slashedAnswers.drains_path_first (k := 4070) (by decide) (by decide)
  obtain ⟨other, later, last, remade, redrained, remitted⟩ :=
    slashedAnswers.drains_other_first (k := 4070) (by decide) (by decide)
  obtain ⟨output, yields⟩ : ∃ output, Yields slashedTree slashedEntry
      (slashedInclusions 4070 [slashedSpecifier, otherSpecifier]) (steps.map Prod.fst) output :=
    ⟨_, _, walk, steps, final, made, drained, rfl, rfl⟩
  obtain ⟨output', yields'⟩ : ∃ output, Yields slashedTree slashedEntry
      (slashedInclusions 4070 [otherSpecifier, slashedSpecifier]) (later.map Prod.fst) output :=
    ⟨_, _, other, later, last, remade, redrained, rfl, rfl⟩
  obtain ⟨limit, whole⟩ := Bundle.exists_yields_iff.mpr ⟨_, yields⟩
  obtain ⟨limit', whole'⟩ := Bundle.exists_yields_iff.mpr ⟨_, yields'⟩
  -- the manifest is the fourth module behind the other script, and none behind the long spelling
  obtain ⟨record, listed, located⟩ : ∃ record ∈ later.map Prod.fst,
      record.location = slashedManifest := by
    refine List.mem_map.mp ?_
    rw [Bundle.map_location_of_drains remade redrained, remitted]
    simp
  refine ⟨leaves, List.Perm.swap .., limit, output, limit', output', _, _, whole, whole', yields,
    yields', record, listed, fun module hmodule same => ?_⟩
  have among : slashedManifest.isAmong [slashedEntry, slashedPath 4070, slashedOther] = true := by
    rw [← emitted, ← Bundle.map_location_of_drains made drained, ← located]
    exact Path.isAmong_iff.mpr (List.mem_map.mpr ⟨_, List.mem_map_of_mem hmodule, same⟩)
  have absent := slashedAnswers.isAmong_manifest 4070
  simp only [Path.isAmong, List.any_cons, List.any_nil, Bool.or_eq_false_iff, Bool.or_eq_true]
    at among absent
  simp [absent] at among

end ScriptBundle
