import ScriptBundle.Proofs.Bundle.Modules

/-! # Manifests of dependencies

A file that a bundle schedules was added by an included specifier, or is called by a module, or goes
as a manifest with such a file. When it was met, the manifest that goes with it was scheduled too, and
the bundle makes modules of all that is not kept out. A manifest goes with a file whose identity lies
in a dependency folder. The identity is the way from the folder of the entry script, so this is every
file below a dependency folder, unless that folder holds the entry script as well:

* **`Project.LiesInDependency`, `Project.manifestOf?_of_liesInDependency`** — the files a manifest goes
  with, by their paths;
* **`Project.MetOver`** — the files that stood when a location was scheduled;
* **`Walk.HasManifests`, `HasManifests.next`, `HasManifests.drains`** — a walk that has scheduled the
  manifests;
* **`bundle_brings_manifests`** — what holds of every bundle that succeeds. -/

namespace ScriptBundle

open Walk (Consistent Drains Makes)

namespace Project

variable {P : Project} {w : Workspace} {p : Path}

/-- **A file in a dependency**: it lies below a dependency folder that does not hold the entry
script. -/
def LiesInDependency (P : Project) (p : Path) : Prop :=
  ∃ front back, p.parts = front ++ .name Package.dependencyFolder :: back ∧
    ¬front ++ [.name Package.dependencyFolder] <+: P.base.parts

/-- The identity of a file tells whether the file lies in a dependency. -/
theorem isDependency_identityOf_iff (normal : P.entry.IsNormal) (rooted : p.isAbsolute = true) :
    (P.identityOf p).isDependency = true ↔ P.LiesInDependency p :=
  (isDependency_identityOf normal rooted).trans Path.mem_wayParts_iff

/-- **The nearest manifest above a file goes with it** if the file lies in a dependency. -/
theorem manifestOf?_of_liesInDependency (normal : P.entry.IsNormal) (rooted : p.isAbsolute = true)
    (inside : P.LiesInDependency p) : P.manifestOf? w p = w.manifestAbove? p :=
  if_pos ((isDependency_identityOf_iff normal rooted).mpr inside)

/-- **The files over which a `location` was scheduled**: those in front of the first module if an
included specifier adds the location, and those behind a module that brings it. -/
inductive MetOver (P : Project) (w : Workspace) (x : Exclusions) (included : List String)
    (done : List (ModuleRecord × Walk)) (p : Path) : Workspace → Prop
  /-- An included specifier means the location, or means a file it goes with. -/
  | included {specifier : String} (listed : specifier ∈ included)
      (added : p ∈ P.addedBy w x specifier) : MetOver P w x included done p w
  /-- A module calls the location, or calls a file it goes with. -/
  | called {step : ModuleRecord × Walk} {target : Path} (made : step ∈ done)
      (called : target ∈ P.targetsIn step) (brought : p ∈ P.withManifest step.2.files target) :
      MetOver P w x included done p step.2.files

variable {x : Exclusions} {included : List String} {done steps : List (ModuleRecord × Walk)}
  {files : Workspace}

/-- What `MetOver` says of some modules, it says of any that are more. -/
theorem MetOver.mono (h : P.MetOver w x included done p files) (sub : done ⊆ steps) :
    P.MetOver w x included steps p files := by
  cases h with
  | included listed added => exact .included listed added
  | called made called brought => exact .called (sub made) called brought

/-- The files are those in front of the first module, if these stay behind every module. -/
theorem MetOver.files_eq (h : P.MetOver w x included done p files)
    (stay : ∀ step ∈ done, step.2.files = w) : files = w := by
  cases h with
  | included => rfl
  | called made => exact stay _ made

end Project

namespace Walk

variable {P : Project} {w : Workspace} {x : Exclusions} {included : List String}
  {done steps : List (ModuleRecord × Walk)} {walk after final : Walk} {record : ModuleRecord}
  {gone : List Path} {p : Path}

/-- **A `walk` that has scheduled the manifests**: whatever was scheduled, but for the entry script, was
scheduled with the manifest that goes with it. -/
def HasManifests (P : Project) (w : Workspace) (x : Exclusions) (included : List String)
    (done : List (ModuleRecord × Walk)) (walk : Walk) : Prop :=
  ∀ p ∈ walk.scheduled, p = P.entry ∨ ∃ files, P.MetOver w x included done p files ∧
    ∀ manifest, P.manifestOf? files p = some manifest → manifest.isAmong walk.scheduled = true

namespace HasManifests

/-- **A step that makes a module schedules the manifests** of what it schedules. -/
theorem next (h : HasManifests P w x included done walk) (order : Orderly gone walk)
    (e : walk.next P = (some (.ok record), after)) :
    HasManifests P w x included (done ++ [(record, after)]) after := by
  have makes := makes_of_next order e
  intro p hp
  rw [makes.scheduled_eq] at hp
  rcases Path.mem_of_mem_foldl_addNew hp with old | new
  · have grown : walk.scheduled ⊆ after.scheduled := by
      rw [makes.scheduled_eq]
      exact (Path.prefix_foldl_addNew ..).subset
    refine (h p old).imp_right fun ⟨files, met, brings⟩ => ?_
    exact ⟨files, met.mono (List.subset_append_left ..), fun manifest found =>
      Path.isAmong_mono grown (brings manifest found)⟩
  · obtain ⟨target, called, entered⟩ := List.mem_flatMap.mp new
    obtain ⟨⟨specifier, resolved⟩, -⟩ := Project.resolve_of_mem_targetsOf P _ _ called
    have rooted : target.isAbsolute = true := (isCandidate_of_resolve resolved).2.isAbsolute
    obtain ⟨unmade, beside⟩ := mem_entries_iff.mp entered
    have latest : (record, after) ∈ done ++ [(record, after)] :=
      List.mem_append_right _ (List.mem_singleton_self _)
    refine .inr ⟨after.files, .called latest called beside, fun manifest found => ?_⟩
    -- the manifest of a file that goes with the target goes with the target
    rw [makes.scheduled_eq]
    refine Path.isAmong_foldl_addNew (List.mem_flatMap.mpr ⟨target, called, ?_⟩)
    exact mem_entries_iff.mpr
      ⟨unmade, Project.mem_withManifest_of_manifestOf? rooted beside found⟩

/-- **A `walk` that comes to its end has scheduled the manifests.** -/
theorem drains (h : HasManifests P w x included done walk) (order : Orderly gone walk)
    (drained : Drains P walk steps none final) :
    HasManifests P w x included (done ++ steps) final := by
  generalize e : (none : Option BundleError) = failure at drained
  induction drained generalizing done gone with
  | done last =>
      -- only what is passed over leaves the queue at the end
      obtain rfl := eq_of_next_none last
      rw [List.append_nil]
      exact h
  | failed => cases e
  | step first rest ih =>
      have ordered := order.next (P := P)
      rw [first] at ordered
      have later := ih (h.next order first) ordered e
      rwa [List.append_assoc] at later

end HasManifests

end Walk

namespace Bundle

open Walk (HasManifests)

variable {P : Project} {w : Workspace} {walk final : Walk} {entry : Path} {options : Options}
  {steps : List (ModuleRecord × Walk)}

/-- **A bundle starts with the manifests** of what its included specifiers mean. -/
theorem hasManifests_of_setup (made : (setup w entry options).2 = .ok (P, walk)) :
    HasManifests P w walk.exclusions options.included [] walk := by
  intro p hp
  refine (mem_scheduled_of_setup made hp).imp_right fun ⟨specifier, listed, added⟩ => ?_
  refine ⟨w, .included listed added, fun manifest found => ?_⟩
  obtain ⟨location, resolved, kept, beside⟩ := Project.mem_addedBy_iff.mp added
  have rooted : location.isAbsolute = true := (isCandidate_of_resolve resolved).2.isAbsolute
  have brought : manifest ∈ P.addedBy w walk.exclusions specifier := Project.mem_addedBy_iff.mpr
    ⟨location, resolved, kept, Project.mem_withManifest_of_manifestOf? rooted beside found⟩
  rw [(setup_spec made).2]
  refine Path.isAmong_foldl_addNew (List.mem_cons_of_mem _ ?_)
  exact List.mem_flatMap.mpr ⟨specifier, listed, brought⟩

/-- The files stay as they are behind every module, if the `compilers` of the options leave them. -/
theorem files_eq_of_mem (made : (setup w entry options).2 = .ok (P, walk))
    (leaves : ∀ compiler ∈ options.compilers, compiler.LeavesFiles)
    (drained : Drains P walk steps none final) : ∀ step ∈ steps, step.2.files = w :=
  fun step hstep => ((steady_of_setup made).isMade (files_compile_of_setup made leaves) drained step
    hstep).files_eq

end Bundle

variable {w : Workspace} {entry : Path} {options : Options} {limit : Nat} {output : Output}

/-- **A module that lies in a dependency brings the nearest `manifest` above it**, for every bundle that
succeeds: the manifest is a module as well, unless the options exclude it. The manifest is looked for
when the file of the module is scheduled, and this is over the files the bundle started with unless a
compiler changes them. -/
theorem bundle_brings_manifests (h : bundle limit w entry options = some (.ok output)) :
    ∃ P walk steps final, (Bundle.setup w entry options).2 = .ok (P, walk) ∧
      Drains P walk steps none final ∧ output.report.modules = steps.map (·.1.identity) ∧
      ∀ step ∈ steps, step.1.location ≠ P.entry → P.LiesInDependency step.1.location →
        ∃ files, P.MetOver w walk.exclusions options.included steps step.1.location files ∧
          ((∀ compiler ∈ options.compilers, compiler.LeavesFiles) → files = w) ∧
          ∀ manifest, files.manifestAbove? step.1.location = some manifest →
            options.LeavesOut P w manifest ∨ ∃ other ∈ steps,
              other.1.location.parts = manifest.parts ∧
                other.1.identity = P.identityOf manifest := by
  obtain ⟨P, walk, steps, final, made, drained, rfl⟩ := bundle_eq_ok_iff.mp ⟨limit, h⟩
  refine ⟨P, walk, steps, final, made, drained, rfl, fun step hstep other_than inside => ?_⟩
  have normal := (Bundle.isFile_entry made).1
  obtain ⟨rooted, -⟩ := Bundle.identity_of_mem made drained hstep
  obtain ⟨consistent, all⟩ := Bundle.consistent_of_drains made drained
  have orderly := (Bundle.setup_spec made).1.orderly
  have accompanied := (Bundle.hasManifests_of_setup made).drains orderly drained
  rw [List.nil_append] at accompanied
  obtain ⟨files, met, brings⟩ :=
    (accompanied _ (Bundle.location_mem_scheduled made drained hstep)).resolve_left other_than
  refine ⟨files, met, fun leaves => met.files_eq (Bundle.files_eq_of_mem made leaves drained),
    fun manifest above => ?_⟩
  rw [Project.manifestOf?_of_liesInDependency normal rooted inside] at brings
  have scheduled := brings manifest above
  rw [← Bundle.holdsFile_of_setup made]
  refine or_iff_not_imp_left.mpr fun kept => ?_
  have outside : final.exclusions.holdsFile manifest = false := by
    rw [drained.exclusions_eq.1, ← Bool.not_eq_true]
    exact kept
  obtain ⟨other, hother, same⟩ := consistent.exists_made all scheduled outside
  refine ⟨other, hother, same, ?_⟩
  rw [consistent.identity_eq other hother]
  exact (Project.identityOf_eq_of_parts_eq normal (isAbsolute_of_manifestAbove? rooted above)
    same.symm).symm

/-- The project of a script, without overrides. -/
def plainProject (entry : Path) : Project :=
  ⟨entry, .initial, Registry.initial.resolutionExtensions, .fail⟩

/-- A script that requires a package, whose main file lies in a folder and requires another file. -/
def packagedTree : Workspace :=
  ⟨⟨[(["a.js"], .text "require('p')"),
    (["node_modules", "p", "package.json"], .text "\x7b\x22main\x22:\x22l/m\x22\x7d"),
    (["node_modules", "p", "l", "m.js"], .text "require('../n')"),
    (["node_modules", "p", "n.js"], .text "")], []⟩, []⟩

/-- The `bundle` of this script holds the manifest of the package, which is the nearest one above the
main file. -/
theorem bundle_brings_manifests_packaged :
    ∃ limit output P walk steps final,
      bundle limit packagedTree ⟨"a.js"⟩ ⟨[], [], [], .fail⟩ = some (.ok output) ∧
      (Bundle.setup packagedTree ⟨"a.js"⟩ ⟨[], [], [], .fail⟩).2 = .ok (P, walk) ∧
      Drains P walk steps none final ∧
      ∃ step ∈ steps, step.1.location ≠ P.entry ∧ P.LiesInDependency step.1.location ∧
        ∃ manifest, packagedTree.manifestAbove? step.1.location = some manifest ∧
          ∃ other ∈ steps, other.1.location.parts = manifest.parts ∧
            other.1.identity = P.identityOf manifest := by
  let P := plainProject ⟨"/a.js"⟩
  have made : (Bundle.setup packagedTree ⟨"a.js"⟩ ⟨[], [], [], .fail⟩).2 =
      .ok (P, .start P packagedTree) :=
    Bundle.setup_of_registerAll (by decide +kernel) rfl
  obtain ⟨steps, final, drained, located⟩ : ∃ steps final,
      Drains P (.start P packagedTree) steps none final ∧ steps.map (·.1.location) =
        [⟨"/a.js"⟩, ⟨"/node_modules/p/l/m.js"⟩, ⟨"/node_modules/p/package.json"⟩,
          ⟨"/node_modules/p/n.js"⟩] := by
    refine Walk.exists_drains_of_all 10 ?_
    decide +kernel
  obtain ⟨limit, whole⟩ := bundle_eq_ok_iff.mpr ⟨P, _, steps, final, made, drained, rfl⟩
  obtain ⟨P', walk, steps', final', made', drained', -, brought⟩ := bundle_brings_manifests whole
  obtain ⟨rfl, rfl⟩ := Prod.mk.inj (Except.ok.inj (made.symm.trans made'))
  obtain ⟨rfl, -, rfl⟩ := drained.unique drained'
  obtain ⟨step, hstep, place⟩ : ∃ step ∈ steps', step.1.location = ⟨"/node_modules/p/l/m.js"⟩ := by
    refine List.mem_map.mp ?_
    rw [located]
    simp
  have other_than : step.1.location ≠ P.entry := by
    rw [place]
    decide +kernel
  have inside : P.LiesInDependency step.1.location := by
    refine ⟨[.root], [.name "p", .name "l", .name "m.js"], ?_, ?_⟩
    · rw [place]
      decide +kernel
    · decide +kernel
  have above : packagedTree.manifestAbove? step.1.location = some ⟨"/node_modules/p/package.json"⟩ := by
    rw [place]
    decide +kernel
  obtain ⟨files, -, stay, brings⟩ := brought step hstep other_than inside
  obtain rfl := stay (by simp)
  have packed := (brings _ above).resolve_left fun ⟨_, listed, _⟩ => List.not_mem_nil listed
  exact ⟨limit, _, P, _, steps', final', whole, made, drained, step, hstep, other_than, inside, _, above,
    packed⟩

/-! ## Entry scripts in dependencies

Below the dependency folder that holds the entry script, no way goes through a dependency folder. So
no manifest goes with the files there. -/

/-- A dependency with a script that requires another one. -/
def dependencyTree : Workspace :=
  ⟨⟨[(["node_modules", "p", "a.js"], .text "require('./b')"),
    (["node_modules", "p", "b.js"], .text ""),
    (["node_modules", "p", "package.json"], .text "\x7b\x7d")], []⟩, []⟩

/-- **A module below a dependency folder can lack its `manifest`**: the bundle of a script of a
dependency holds the other script of the dependency, and not the manifest above it, which is not
excluded. -/
theorem bundle_lacks_manifest :
    ∃ limit output P walk steps final,
      bundle limit dependencyTree ⟨"node_modules/p/a.js"⟩ ⟨[], [], [], .fail⟩ = some (.ok output) ∧
      (Bundle.setup dependencyTree ⟨"node_modules/p/a.js"⟩ ⟨[], [], [], .fail⟩).2 = .ok (P, walk) ∧
      Drains P walk steps none final ∧ output.report.modules = steps.map (·.1.identity) ∧
      ∃ step ∈ steps, step.1.location ≠ P.entry ∧
        step.1.location.parts = [.root, .name "node_modules", .name "p", .name "b.js"] ∧
        ∃ manifest, dependencyTree.manifestAbove? step.1.location = some manifest ∧
          manifest.parts = [.root, .name "node_modules", .name "p", .name "package.json"] ∧
          ¬(⟨[], [], [], .fail⟩ : Options).LeavesOut P dependencyTree manifest ∧
          ∀ other ∈ steps, other.1.location.parts ≠ manifest.parts := by
  let P := plainProject ⟨"/node_modules/p/a.js"⟩
  have made : (Bundle.setup dependencyTree ⟨"node_modules/p/a.js"⟩ ⟨[], [], [], .fail⟩).2 =
      .ok (P, .start P dependencyTree) :=
    Bundle.setup_of_registerAll (by decide +kernel) rfl
  obtain ⟨steps, final, drained, located⟩ : ∃ steps final,
      Drains P (.start P dependencyTree) steps none final ∧ steps.map (·.1.location) =
        [⟨"/node_modules/p/a.js"⟩, ⟨"/node_modules/p/b.js"⟩] := by
    refine Walk.exists_drains_of_all 10 ?_
    decide +kernel
  obtain ⟨limit, whole⟩ := bundle_eq_ok_iff.mpr ⟨P, _, steps, final, made, drained, rfl⟩
  obtain ⟨step, hstep, place⟩ : ∃ step ∈ steps, step.1.location = ⟨"/node_modules/p/b.js"⟩ := by
    refine List.mem_map.mp ?_
    rw [located]
    simp
  refine ⟨limit, _, P, _, steps, final, whole, made, drained, rfl, step, hstep, ?_, ?_,
    ⟨"/node_modules/p/package.json"⟩, ?_, by decide +kernel, ?_, ?_⟩
  · rw [place]
    decide +kernel
  · rw [place]
    decide +kernel
  · rw [place]
    decide +kernel
  · rintro ⟨_, listed, _⟩
    exact List.not_mem_nil listed
  · intro other hother
    have listed : other.1.location ∈ steps.map (·.1.location) := List.mem_map_of_mem hother
    rw [located] at listed
    rcases List.mem_pair.mp listed with e | e
    · rw [e]
      decide +kernel
    · rw [e]
      decide +kernel

end ScriptBundle
