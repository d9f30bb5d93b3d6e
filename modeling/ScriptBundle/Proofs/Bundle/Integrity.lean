import Mathlib.Data.List.TakeWhile
import ScriptBundle.Proofs.Bundle.Setup
import ScriptBundle.Proofs.Graph.References
import ScriptBundle.Proofs.Walk.Drain

/-! # Integrity of artifacts

An artifact that was made to its end calls no identity that it does not hold, and the graph that is
reported with it is the graph of the calls that stand in it. While a walk is under way neither is so:
a reference is replaced, and added to the graph, while its target waits in the queue.

* **`Project.callsOf`** — the calls that were written into a module, as pairs of identities;
* **`Walk.Consistent`** — the invariant of a walk: what left the queue is a module or is kept out, and
  the graph has what was called so far;
* **`bundle_integrity`** — what holds of every bundle that succeeds. -/

namespace ScriptBundle

namespace Project

variable (P : Project)

/-- The files a module was made to call, with the walk that was left behind it. -/
def targetsIn (step : ModuleRecord × Walk) : List Path :=
  P.targetsOf step.2.files step.2.exclusions step.1.location step.1.compiled

/-- **The calls that were written into a module**, from its `identity` to those it calls. -/
def callsOf (step : ModuleRecord × Walk) : List (Identity × Identity) :=
  ((P.targetsIn step).map P.identityOf).map (step.1.identity, ·)

/-- **A module whose references are replaced**: by a call of the identity of what they mean, of the
path of what is kept out, or not at all. -/
def IsLinked (step : ModuleRecord × Walk) : Prop :=
  step.1.linked = .ofList ((P.segmentsOf step.1.location step.1.compiled).flatMap
    (P.linkedText step.2.files step.2.exclusions step.1.location))

end Project

namespace Walk

variable {P : Project} {walk after final : Walk} {done steps : List (ModuleRecord × Walk)}
  {record : ModuleRecord} {gone : List Path}

/-- **A `walk` behind some modules.** -/
structure Consistent (P : Project) (done : List (ModuleRecord × Walk)) (walk : Walk) : Prop where
  /-- What left the queue is a module or is kept out. -/
  accounted : ∃ gone, Orderly gone walk ∧
    ∀ p ∈ gone, p.isAmong walk.emitted = true ∨ walk.exclusions.holdsFile p = true
  /-- The modules are those of the steps, under the identities of their locations. -/
  emitted_eq : walk.emitted = done.map (·.1.location)
  /-- A module has the identity of its location. -/
  identity_eq : ∀ step ∈ done, step.1.identity = P.identityOf step.1.location
  /-- A module has its references replaced. -/
  linked : ∀ step ∈ done, P.IsLinked step
  /-- Whatever is scheduled has an absolute path. -/
  absolute : ∀ p ∈ walk.scheduled, p.isAbsolute = true
  /-- What is called is scheduled and not kept out. -/
  called : ∀ step ∈ done, ∀ p ∈ P.targetsIn step, p.isAbsolute = true ∧
    p.isAmong walk.scheduled = true ∧ walk.exclusions.holdsFile p = false
  /-- The graph is numbered as it should be. -/
  numbered : walk.graph.WellNumbered
  /-- The graph has the modules and what they call. -/
  modules : ∀ m, m ∈ walk.graph.modules ↔
    m ∈ done.map (·.1.identity) ∨ m ∈ (done.flatMap P.callsOf).map Prod.snd
  /-- The graph has the calls. -/
  references : ∀ pair, pair ∈ walk.graph.references ↔ pair ∈ done.flatMap P.callsOf

/-- A `walk` in front of its first module is consistent. -/
theorem Fresh.consistent {w : Workspace} (h : Fresh w walk)
    (absolute : ∀ p ∈ walk.scheduled, p.isAbsolute = true) : Consistent P [] walk where
  accounted := ⟨[], h.orderly, fun _ hp => absurd hp List.not_mem_nil⟩
  emitted_eq := h.emitted_eq
  identity_eq := by simp
  linked := by simp
  absolute := absolute
  called := by simp
  numbered := h.graph_eq ▸ DependencyGraph.wellNumbered_empty
  modules := by simp [h.graph_eq, DependencyGraph.empty]
  references := by simp [h.graph_eq, DependencyGraph.references, DependencyGraph.empty]

namespace Consistent

/-- What left the queue behind a step that makes a module is a module or is kept out. -/
theorem accounted_of_makes (h : Consistent P done walk) (e : walk.next P = (some (.ok record), after))
    (makes : Makes P walk record after) : ∃ gone, Orderly gone after ∧
      ∀ p ∈ gone, p.isAmong after.emitted = true ∨ after.exclusions.holdsFile p = true := by
  obtain ⟨gone, orderly, all⟩ := h.accounted
  have ordered := orderly.next (P := P)
  rw [e] at ordered
  refine ⟨gone ++ walk.taken, ordered, fun p hp => ?_⟩
  rw [makes.emitted_eq, makes.exclusions_eq]
  have grown : walk.emitted ⊆ walk.emitted ++ [record.location] := List.subset_append_left ..
  -- what left the queue before is still accounted for; of what left it now, the last location is
  -- the module and the others were passed over
  rcases List.mem_append.mp hp with old | new
  · exact (all p old).imp_left (Path.isAmong_mono grown)
  · rw [makes.taken_eq] at new
    rcases List.mem_append.mp new with passed | last
    · have passes : walk.passesOver p = true := List.mem_takeWhile_imp passed
      exact ((Bool.or_eq_true ..).mp passes).imp_left (Path.isAmong_mono grown)
    · exact .inl (Path.isAmong_of_mem (List.mem_append_right _ last))

/-- Whatever is `scheduled` behind a step that makes a module has an absolute path. -/
theorem absolute_of_makes (h : Consistent P done walk) (makes : Makes P walk record after) :
    ∀ p ∈ after.scheduled, p.isAbsolute = true := by
  intro p hp
  rw [makes.scheduled_eq] at hp
  rcases Path.mem_of_mem_foldl_addNew hp with old | new
  · exact h.absolute p old
  · obtain ⟨target, met, entered⟩ := List.mem_flatMap.mp new
    obtain ⟨⟨specifier, resolved⟩, -⟩ := Project.resolve_of_mem_targetsOf P _ _ met
    have rooted : target.isAbsolute = true := (isCandidate_of_resolve resolved).2.isAbsolute
    exact Project.isAbsolute_of_mem_withManifest rooted (mem_entries_iff.mp entered).2

/-- **A step that makes a module keeps a `walk` consistent.** -/
theorem next (h : Consistent P done walk) (e : walk.next P = (some (.ok record), after)) :
    Consistent P (done ++ [(record, after)]) after := by
  obtain ⟨gone, orderly, -⟩ := h.accounted
  have makes := makes_of_next orderly e
  -- a schedule only grows, so what was called stays scheduled
  have grown : walk.scheduled ⊆ after.scheduled := by
    rw [makes.scheduled_eq]
    exact (Path.prefix_foldl_addNew ..).subset
  -- the graph mentions the module and then has its references added
  obtain ⟨numbered, -, same, -, mentioned⟩ :=
    DependencyGraph.addModule_spec h.numbered record.identity
  obtain ⟨numbered, modules, references⟩ := DependencyGraph.foldl_addDependency_spec numbered
    ((mentioned _).mpr (.inr rfl)) ((P.targetsIn (record, after)).map P.identityOf)
  have calls : (done ++ [(record, after)]).flatMap P.callsOf =
      done.flatMap P.callsOf ++ P.callsOf (record, after) := by simp
  refine ⟨h.accounted_of_makes e makes, ?_, ?_, ?_, h.absolute_of_makes makes, ?_, ?_, ?_, ?_⟩
  · rw [makes.emitted_eq, h.emitted_eq, List.map_append, List.map_singleton]
  · exact List.forall_mem_append.mpr ⟨h.identity_eq, by simpa using makes.identity_eq⟩
  · refine List.forall_mem_append.mpr ⟨h.linked, ?_⟩
    rw [List.forall_mem_singleton]
    exact makes.linked_eq
  · refine List.forall_mem_append.mpr ⟨fun step old p hp => ?_, ?_⟩
    · obtain ⟨rooted, scheduled, kept⟩ := h.called step old p hp
      exact ⟨rooted, Path.isAmong_mono grown scheduled, makes.exclusions_eq ▸ kept⟩
    · rw [List.forall_mem_singleton]
      intro p hp
      obtain ⟨⟨specifier, resolved⟩, kept⟩ := Project.resolve_of_mem_targetsOf P _ _ hp
      exact ⟨(isCandidate_of_resolve resolved).2.isAbsolute, makes.isAmong_scheduled orderly hp, kept⟩
  · rw [makes.graph_eq]
    exact numbered
  · intro m
    rw [makes.graph_eq, calls]
    refine (modules m).trans ?_
    have new : (P.callsOf (record, after)).map Prod.snd =
        (P.targetsIn (record, after)).map P.identityOf := by
      simp [Project.callsOf]
    rw [mentioned, h.modules, List.map_append, List.map_append, new, List.map_singleton,
      List.mem_append, List.mem_append, List.mem_singleton]
    tauto
  · intro pair
    rw [makes.graph_eq, calls, List.mem_append]
    refine (references pair).trans ?_
    rw [same, h.references]
    rfl

/-- **A `walk` that comes to its end is consistent there**, and whatever was scheduled is a module or is
kept out. -/
theorem drains (h : Consistent P done walk) (drained : Drains P walk steps none final) :
    Consistent P (done ++ steps) final ∧ ∀ p ∈ final.scheduled,
      p.isAmong final.emitted = true ∨ final.exclusions.holdsFile p = true := by
  -- the invariant holds behind every step; at the end all that waits is passed over, so it is
  -- accounted for as well
  generalize e : (none : Option BundleError) = failure at drained
  induction drained generalizing done with
  | @done walk after last =>
      obtain ⟨gone, orderly, all⟩ := h.accounted
      have empty := dropWhile_of_next_none last
      obtain rfl := eq_of_next_none last
      have passed : ∀ p ∈ walk.queue, p.isAmong walk.emitted = true ∨
          walk.exclusions.holdsFile p = true := fun p hp =>
        (Bool.or_eq_true ..).mp (List.dropWhile_eq_nil_iff.mp empty p hp)
      have whole : ∀ p ∈ gone ++ walk.queue, p.isAmong walk.emitted = true ∨
          walk.exclusions.holdsFile p = true := List.forall_mem_append.mpr ⟨all, passed⟩
      rw [List.append_nil]
      refine ⟨{ h with accounted := ⟨gone ++ walk.queue, ⟨?_, orderly.nodup, ?_⟩, whole⟩ }, ?_⟩
      · simpa using orderly.scheduled_eq
      · exact orderly.emitted_sublist.trans (List.sublist_append_left ..)
      · exact orderly.scheduled_eq ▸ whole
  | failed => cases e
  | @step _ after _ record _ _ first _ ih =>
      have later := ih (h.next first) e
      rwa [List.append_assoc] at later

/-- **Every `location` that is scheduled and not kept out is that of a module**, once every location
that was scheduled is one or is kept out. -/
theorem exists_made (h : Consistent P done walk)
    (all : ∀ p ∈ walk.scheduled, p.isAmong walk.emitted = true ∨ walk.exclusions.holdsFile p = true)
    {p : Path} (scheduled : p.isAmong walk.scheduled = true)
    (kept : walk.exclusions.holdsFile p = false) :
    ∃ step ∈ done, step.1.location.parts = p.parts := by
  obtain ⟨q, hq, same⟩ := List.mem_map.mp (Path.isAmong_iff.mp scheduled)
  -- what was scheduled may be another spelling of the location
  have emitted : q.isAmong walk.emitted = true := by
    refine (all q hq).resolve_right fun excluded => ?_
    rw [Exclusions.holdsFile, same] at excluded
    exact absurd excluded (by simpa [Exclusions.holdsFile] using kept)
  obtain ⟨r, hr, spelled⟩ := List.mem_map.mp (Path.isAmong_iff.mp emitted)
  rw [h.emitted_eq] at hr
  obtain ⟨step, hstep, rfl⟩ := List.mem_map.mp hr
  exact ⟨step, hstep, spelled.trans same⟩

/-- **What is called is a module** once every location that was `scheduled` is one or is kept out. -/
theorem identityOf_mem (h : Consistent P done walk) (normal : P.entry.IsNormal)
    (all : ∀ p ∈ walk.scheduled, p.isAmong walk.emitted = true ∨ walk.exclusions.holdsFile p = true)
    {step : ModuleRecord × Walk} (made : step ∈ done) {p : Path} (called : p ∈ P.targetsIn step) :
    P.identityOf p ∈ done.map (·.1.identity) := by
  obtain ⟨rooted, scheduled, kept⟩ := h.called step made p called
  obtain ⟨later, hlater, same⟩ := h.exists_made all scheduled kept
  rw [Project.identityOf_eq_of_parts_eq normal rooted same.symm, ← h.identity_eq later hlater]
  exact List.mem_map_of_mem hlater

end Consistent

end Walk

open Walk (Consistent Drains)

variable {w : Workspace} {entry : Path} {options : Options}

/-- What waits in front of the first module of a bundle has an absolute path. -/
theorem Bundle.isAbsolute_of_setup {P : Project} {walk : Walk}
    (h : (Bundle.setup w entry options).2 = .ok (P, walk)) :
    ∀ p ∈ walk.scheduled, p.isAbsolute = true := by
  intro p hp
  rcases Bundle.mem_scheduled_of_setup h hp with rfl | ⟨specifier, -, added⟩
  · exact (Bundle.isFile_entry h).1.isAbsolute
  · obtain ⟨location, resolved, -, beside⟩ := Project.mem_addedBy_iff.mp added
    have rooted : location.isAbsolute = true := (isCandidate_of_resolve resolved).2.isAbsolute
    exact Project.isAbsolute_of_mem_withManifest rooted beside

/-- **An `artifact` that agrees with its report**, made by the steps of a walk that ended with a graph. -/
structure Intact (P : Project) (steps : List (ModuleRecord × Walk)) (graph : DependencyGraph)
    (output : Output) : Prop where
  /-- The artifact is its head, the blocks of the modules, and its end. -/
  code_eq : output.code = String.join (P.artifact.header ::
    (steps.map (ChunkStream.blockOf ·.1) ++ [Artifact.footer]))
  /-- The modules that are reported are those of the blocks. -/
  modules_eq : output.report.modules = steps.map (·.1.identity)
  /-- The references of every module are replaced. -/
  linked : ∀ step ∈ steps, P.IsLinked step
  /-- Whatever a module was made to call is reported. -/
  held : ∀ step ∈ steps, ∀ p ∈ P.targetsIn step, P.identityOf p ∈ output.report.modules
  /-- The modules of the graph are those that are reported. -/
  mem_modules : ∀ m, m ∈ graph.modules ↔ m ∈ output.report.modules
  /-- A module depends on exactly what it was made to call. -/
  mem_dependenciesOf : ∀ a b, b ∈ graph.dependenciesOf a ↔ (a, b) ∈ steps.flatMap P.callsOf
  /-- The dependencies are counted without repetition. -/
  dependencyCount_eq : output.report.dependencyCount = (steps.flatMap P.callsOf).dedup.length

/-- **No artifact calls what it does not hold, and the `graph` reported with it is that of its calls**,
for every bundle that succeeds. -/
theorem bundle_integrity {limit : Nat} {output : Output}
    (h : bundle limit w entry options = some (.ok output)) :
    ∃ P walk steps final, (Bundle.setup w entry options).2 = .ok (P, walk) ∧
      Drains P walk steps none final ∧ Intact P steps final.graph output := by
  obtain ⟨P, walk, steps, final, made, drained, whole⟩ := bundle_eq_ok_iff.mp ⟨limit, h⟩
  have listed : output.report.modules = steps.map (·.1.identity) := by rw [whole]
  obtain ⟨consistent, all⟩ :=
    ((Bundle.setup_spec made).1.consistent (P := P) (Bundle.isAbsolute_of_setup made)).drains drained
  rw [List.nil_append] at consistent
  -- what is called was scheduled, and whatever was scheduled is a module here
  have held : ∀ step ∈ steps, ∀ p ∈ P.targetsIn step,
      P.identityOf p ∈ output.report.modules := fun step hstep p hp => by
    rw [listed]
    exact consistent.identityOf_mem (Bundle.isFile_entry made).1 all hstep hp
  refine ⟨P, walk, steps, final, made, drained, ?_, listed, consistent.linked, held, fun m => ?_,
    fun a b => ?_, ?_⟩
  · rw [whole]
  · rw [consistent.modules, ← listed]
    refine ⟨fun known => known.elim id fun called => ?_, .inl⟩
    -- a module of the graph that was only called is one that is held
    obtain ⟨⟨a, b⟩, call, rfl⟩ := List.mem_map.mp called
    obtain ⟨step, hstep, written⟩ := List.mem_flatMap.mp call
    obtain ⟨identity, target, e⟩ := List.mem_map.mp written
    obtain ⟨p, hp, rfl⟩ := List.mem_map.mp target
    cases e
    exact held step hstep p hp
  · rw [DependencyGraph.mem_dependenciesOf consistent.numbered, consistent.references]
  · rw [whole]
    exact DependencyGraph.dependencyCount_eq consistent.numbered consistent.references

/-- A script that refers to another one twice. -/
def twoScripts : Workspace :=
  ⟨⟨[(["a.js"], .text "require('./b');require('./b')"), (["b.js"], .text "")], []⟩, []⟩

/-- The project of that script. -/
def twoScriptsProject : Project :=
  ⟨⟨"/a.js"⟩, .initial, Registry.initial.resolutionExtensions, .fail⟩

/-- Both scripts become modules. -/
theorem drains_twoScripts : ∃ steps final,
    Drains twoScriptsProject (.start twoScriptsProject twoScripts) steps none final ∧
      steps.map (·.1.identity) = [⟨"/a.js"⟩, ⟨"/b.js"⟩] := by
  have first : ((Walk.start twoScriptsProject twoScripts).next twoScriptsProject).1 = some (.ok
      ⟨⟨"/a.js"⟩, ⟨"/a.js"⟩, "require('./b');require('./b')", "require('/b.js');require('/b.js')"⟩) := by
    decide +kernel
  have second : (((Walk.start twoScriptsProject twoScripts).next twoScriptsProject).2.next
      twoScriptsProject).1 = some (.ok ⟨⟨"/b.js"⟩, ⟨"/b.js"⟩, "", ""⟩) := by
    decide +kernel
  have last : ((((Walk.start twoScriptsProject twoScripts).next twoScriptsProject).2.next
      twoScriptsProject).2.next twoScriptsProject).1 = none := by
    decide +kernel
  exact ⟨_, _, .step (Prod.ext first rfl) (.step (Prod.ext second rfl) (.done (Prod.ext last rfl))), rfl⟩

/-- The `bundle` of two scripts succeeds, and its report agrees with it. -/
theorem bundle_integrity_twoScripts :
    ∃ limit output, bundle limit twoScripts ⟨"a.js"⟩ ⟨[], [], [], .fail⟩ = some (.ok output) ∧
      output.report.modules = [⟨"/a.js"⟩, ⟨"/b.js"⟩] ∧
      ∃ P walk steps final,
        (Bundle.setup twoScripts ⟨"a.js"⟩ ⟨[], [], [], .fail⟩).2 = .ok (P, walk) ∧
        Drains P walk steps none final ∧ Intact P steps final.graph output := by
  have made : (Bundle.setup twoScripts ⟨"a.js"⟩ ⟨[], [], [], .fail⟩).2 =
      .ok (twoScriptsProject, .start twoScriptsProject twoScripts) :=
    Bundle.setup_of_registerAll (by decide +kernel) rfl
  obtain ⟨steps, final, drained, listed⟩ := drains_twoScripts
  obtain ⟨limit, whole⟩ := bundle_eq_ok_iff.mpr ⟨_, _, steps, final, made, drained, rfl⟩
  exact ⟨limit, _, whole, listed, bundle_integrity whole⟩

end ScriptBundle
