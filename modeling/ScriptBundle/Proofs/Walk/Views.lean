import ScriptBundle.Proofs.Files.Holding
import ScriptBundle.Proofs.Walk.Closure

/-! # Walks over other files

A walk looks at its files at one location after the other: at the file itself, at what its references
mean, and at the manifests that go with them. Over files that look the same at this location, the step
is the same, and the walk behind it differs in its files alone.

* **`Project.SeesAlike`** — a location that looks the same over other files;
* **`Project.looksAt`, `Project.seesAlike_of_looksAt`** — the paths that are looked at, and that it is
  enough for them to lead to the same;
* **`Walk.among`, `Walk.linkAll_among`** — a walk over other files that keeps out other things, and
  the references of a script that it treats in the same way;
* **`Walk.onFiles`, `Walk.process_onFiles`, `Walk.next_onFiles`** — a walk over other files, and a
  location and a step of it where they look the same;
* **`Walk.Stays`, `Walk.Stays.next_onFiles`** — a walk that stays in a closed set, over files where all
  of the set looks the same. -/

namespace ScriptBundle

/-- The folder of an absolute path is absolute. -/
theorem Path.isAbsolute_folder {p : Path} (rooted : p.isAbsolute = true) :
    p.folder.isAbsolute = true := by
  rw [Path.folder]
  cases above : p.parent? with
  | none => exact rooted
  | some folder => exact Path.isAbsolute_of_mem_ancestors rooted (List.mem_of_getElem? above)

namespace Project

/-- **A `location` that looks the same over other files**: its compiler gives the same, its references
are treated in the same way, and the manifests that go with its targets are the same. -/
structure SeesAlike (P : Project) (w w' : Workspace) (x : Exclusions) (location : Path) : Prop where
  /-- Its compiler gives the same. -/
  compile_eq : (P.registry.compile w' location).1 = (P.registry.compile w location).1
  /-- Its references are treated in the same way. -/
  treatment_eq : ∀ compiled, (P.registry.compile w location).1 = .ok compiled →
    ∀ specifier ∈ P.specifiersOf location compiled,
      P.treatment w' x location specifier = P.treatment w x location specifier
  /-- The manifests that go with its targets are the same. -/
  manifestOf?_eq : ∀ compiled, (P.registry.compile w location).1 = .ok compiled →
    ∀ target ∈ P.targetsOf w x location compiled, P.manifestOf? w' target = P.manifestOf? w target

variable {P : Project} {w w' : Workspace} {x : Exclusions} {location : Path}

/-- Every `location` looks the same over the same files. -/
theorem SeesAlike.refl (P : Project) (w : Workspace) (x : Exclusions) (location : Path) :
    P.SeesAlike w w x location :=
  ⟨rfl, fun _ _ _ _ => rfl, fun _ _ _ _ => rfl⟩

/-- **The paths that are looked at** for a `location` that is compiled: those tried for its references,
and the manifests above its targets. -/
def looksAt (P : Project) (w : Workspace) (x : Exclusions) (location : Path) (compiled : String) :
    List Path :=
  (P.specifiersOf location compiled).flatMap
      (w.probed P.extensions · location.folder.normalize) ++
    (P.targetsOf w x location compiled).flatMap manifestsAbove

/-- **A `location` looks the same** where it compiles to the same, and the paths that are looked at
lead to the same. -/
theorem seesAlike_of_looksAt (rooted : location.isAbsolute = true)
    (compile_eq : (P.registry.compile w' location).1 = (P.registry.compile w location).1)
    (same : ∀ compiled, (P.registry.compile w location).1 = .ok compiled →
      ∀ p ∈ P.looksAt w x location compiled, w'.find p = w.find p) :
    P.SeesAlike w w' x location := by
  refine ⟨compile_eq, fun compiled gave specifier hs => ?_, fun compiled gave target ht => ?_⟩
  · have resolved : P.resolve w' specifier location.folder = P.resolve w specifier location.folder :=
      resolve_congr (Path.isAbsolute_folder rooted) fun p hp => same compiled gave p
        (List.mem_append_left _ (List.mem_flatMap.mpr ⟨specifier, hs, hp⟩))
    rw [treatment, treatment, resolved]
  · have above : w'.manifestAbove? target = w.manifestAbove? target :=
      manifestAbove?_congr fun p hp => same compiled gave p
        (List.mem_append_right _ (List.mem_flatMap.mpr ⟨target, ht, hp⟩))
    rw [manifestOf?, manifestOf?, above]

end Project

namespace Walk

variable {P : Project} {w' : Workspace} {y : Exclusions} {walk : Walk} {referrer location p : Path}
  {segments : List Segment}

/-- **The `walk` over other files, keeping out other things.** -/
def among (walk : Walk) (w : Workspace) (y : Exclusions) : Walk :=
  { walk with files := w, exclusions := y }

/-- **The `walk` over other files.** -/
def onFiles (walk : Walk) (w : Workspace) : Walk := { walk with files := w }

/-! ## References -/

/-- Which files there are, and what is kept out, has no part in `enqueue`. -/
theorem enqueue_among (walk : Walk) (w : Workspace) (y : Exclusions) (p : Path) :
    (walk.among w y).enqueue p = (walk.enqueue p).among w y := by
  by_cases known : (p.isAmong walk.emitted || p.isAmong walk.scheduled) = true <;>
    simp [enqueue, among, hasEmitted, hasScheduled, known]

/-- A target that is met brings the same manifest. -/
theorem meet_among (same : P.manifestOf? w' p = P.manifestOf? walk.files p) (y : Exclusions) :
    meet P referrer (walk.among w' y) p = (meet P referrer walk p).among w' y := by
  have manifested : ∀ walk : Walk, P.manifestOf? w' p = P.manifestOf? walk.files p →
      (walk.among w' y).enqueueWithManifest P p = (walk.enqueueWithManifest P p).among w' y := by
    intro walk same
    rw [enqueueWithManifest, enqueueWithManifest, show (walk.among w' y).files = w' from rfl, same]
    cases P.manifestOf? walk.files p with
    | none => exact enqueue_among ..
    | some manifest => simp only [enqueue_among]
  by_cases emitted : walk.hasEmitted p = true
  · have emitted' : (walk.among w' y).hasEmitted p = true := emitted
    rw [meet, meet, if_pos emitted, if_pos emitted']
    rfl
  · have emitted' : ¬(walk.among w' y).hasEmitted p = true := emitted
    rw [meet, meet, if_neg emitted, if_neg emitted']
    exact manifested { walk with
      graph := walk.graph.addDependency (P.identityOf referrer) (P.identityOf p) } same

/-- **A reference that is treated in the same way** over other files, where other things are kept
out. -/
theorem follow_among {text specifier : List Char}
    (treats : P.treatment w' y referrer (.ofList specifier) =
      P.treatment walk.files walk.exclusions referrer (.ofList specifier))
    (brings : ∀ target,
      P.treatment walk.files walk.exclusions referrer (.ofList specifier) = .target target →
      P.manifestOf? w' target = P.manifestOf? walk.files target) :
    follow P referrer (walk.among w' y) text specifier =
      ((follow P referrer walk text specifier).1,
        (follow P referrer walk text specifier).2.among w' y) := by
  have treats' : P.treatment (walk.among w' y).files (walk.among w' y).exclusions referrer
      (.ofList specifier) = _ := treats
  cases treated : P.treatment walk.files walk.exclusions referrer (.ofList specifier) with
  | literal => rw [follow_literal treated, follow_literal (treats'.trans treated)]
  | outside path => rw [follow_outside treated, follow_outside (treats'.trans treated)]
  | missing cause =>
      cases policy : P.policy with
      | fail =>
          rw [follow_missing_fail treated policy,
            follow_missing_fail (treats'.trans treated) policy]
      | collect =>
          rw [follow_missing_collect treated policy,
            follow_missing_collect (treats'.trans treated) policy]
          rfl
  | target location =>
      rw [follow_target treated, follow_target (treats'.trans treated),
        meet_among (brings location treated)]

/-- A reference changes neither the files nor what is kept out. -/
theorem follow_frame (P : Project) (referrer : Path) (walk : Walk) (text specifier : List Char) :
    (follow P referrer walk text specifier).2.files = walk.files ∧
      (follow P referrer walk text specifier).2.exclusions = walk.exclusions := by
  let keeps (after : Walk) : Prop :=
    after.files = walk.files ∧ after.exclusions = walk.exclusions
  have met : ∀ between location specifier, keeps between →
      P.treatment between.files between.exclusions referrer specifier = .target location →
      keeps (meet P referrer between location) := by
    intro between location _ h _
    exact ⟨(files_meet ..).trans h.1, (exclusions_meet ..).trans h.2⟩
  exact follow_keeps_of_met (fun _ _ h => h) met (⟨rfl, rfl⟩ : keeps walk)

/-- **The references of a script in a `walk` that is changed**: where each reference gives the same text
in the walk that is changed and leaves behind the changed walk, so do all of them. -/
theorem linkAll_map {f : Walk → Walk} {keeps : Walk → Prop}
    (follows : ∀ text specifier, Segment.reference text specifier ∈ segments → ∀ walk, keeps walk →
      keeps (follow P referrer walk text specifier).2 ∧
        follow P referrer (f walk) text specifier =
          ((follow P referrer walk text specifier).1, f (follow P referrer walk text specifier).2))
    (h : keeps walk) : linkAll P referrer (f walk) segments =
      ((linkAll P referrer walk segments).1, f (linkAll P referrer walk segments).2) := by
  induction segments generalizing walk with
  | nil => rfl
  | cons segment rest ih =>
      have later := fun text specifier hs =>
        follows text specifier (List.mem_cons_of_mem segment hs)
      cases segment with
      | char c =>
          rw [linkAll, linkAll, ih later h]
          rcases linkAll P referrer walk rest with ⟨e | text, after⟩ <;> rfl
      | reference text specifier =>
          obtain ⟨kept, followed⟩ := follows text specifier List.mem_cons_self walk h
          rw [linkAll, linkAll, followed]
          generalize follow P referrer walk text specifier = made at kept ⊢
          obtain ⟨e | replacement, between⟩ := made
          · rfl
          · dsimp only at kept ⊢
            rw [ih later kept]
            rcases linkAll P referrer between rest with ⟨e | text, after⟩ <;> rfl

/-- **The references of a script** that are treated in the same way over other files, where other
things are kept out: the text is the same, and so is all of the `walk` but its files and what it keeps
out. -/
theorem linkAll_among
    (treats : ∀ specifier ∈ segments.filterMap Segment.specifier?,
      P.treatment w' y referrer specifier =
        P.treatment walk.files walk.exclusions referrer specifier)
    (brings : ∀ target ∈ segments.filterMap (P.target? walk.files walk.exclusions referrer),
      P.manifestOf? w' target = P.manifestOf? walk.files target) :
    linkAll P referrer (walk.among w' y) segments =
      ((linkAll P referrer walk segments).1, (linkAll P referrer walk segments).2.among w' y) := by
  -- files and exclusions stay the same, so each reference is treated as at the start
  let keeps (between : Walk) : Prop :=
    between.files = walk.files ∧ between.exclusions = walk.exclusions
  have first : keeps walk := ⟨rfl, rfl⟩
  refine linkAll_map (f := (among · w' y)) (fun text specifier stands between kept => ?_) first
  obtain ⟨files, exclusions⟩ := follow_frame P referrer between text specifier
  refine ⟨⟨files.trans kept.1, exclusions.trans kept.2⟩, follow_among ?_ fun target treated => ?_⟩
  · rw [kept.1, kept.2]
    exact treats _ (List.mem_filterMap.mpr ⟨_, stands, rfl⟩)
  · rw [kept.1, kept.2] at treated
    rw [kept.1]
    refine brings target (List.mem_filterMap.mpr ⟨_, stands, ?_⟩)
    rw [Project.target?, treated]

/-- **The references of a script over other files**: where they are treated in the same way, the text
is the same, and so is all of the `walk` but its files. -/
theorem linkAll_onFiles
    (treats : ∀ specifier ∈ segments.filterMap Segment.specifier?,
      P.treatment w' walk.exclusions referrer specifier =
        P.treatment walk.files walk.exclusions referrer specifier)
    (brings : ∀ target ∈ segments.filterMap (P.target? walk.files walk.exclusions referrer),
      P.manifestOf? w' target = P.manifestOf? walk.files target) :
    linkAll P referrer (walk.onFiles w') segments =
      ((linkAll P referrer walk segments).1, (linkAll P referrer walk segments).2.onFiles w') := by
  have kept := (linkAll_frame P referrer walk segments).2.1
  refine (linkAll_among treats brings).trans (congrArg (Prod.mk _) ?_)
  rw [onFiles, among, kept]

/-! ## Locations -/

/-- **A `location` over files that look the same**, the compilers leaving them as they are. -/
theorem process_onFiles (alike : P.SeesAlike walk.files w' walk.exclusions location)
    (leaves : (P.registry.compile walk.files location).2 = walk.files)
    (leaves' : (P.registry.compile w' location).2 = w') :
    process P (walk.onFiles w') location =
      ((process P walk location).1, (process P walk location).2.onFiles w') := by
  cases gave : (P.registry.compile walk.files location).1 with
  | error cause =>
      have compiled : P.registry.compile walk.files location = (.error cause, walk.files) :=
        Prod.ext gave leaves
      have compiled' : P.registry.compile (walk.onFiles w').files location = (.error cause, w') :=
        Prod.ext (alike.compile_eq.trans gave) leaves'
      rw [process_of_compile_error compiled, process_of_compile_error compiled']
      rfl
  | ok source =>
      have compiled : P.registry.compile walk.files location = (.ok source, walk.files) :=
        Prod.ext gave leaves
      have compiled' : P.registry.compile (walk.onFiles w').files location = (.ok source, w') :=
        Prod.ext (alike.compile_eq.trans gave) leaves'
      have linked : linkAll P location ((walk.known P walk.files location).onFiles w')
          (P.segmentsOf location source) = _ :=
        linkAll_onFiles (alike.treatment_eq source gave) (alike.manifestOf?_eq source gave)
      have known : (walk.onFiles w').known P w' location =
          (walk.known P walk.files location).onFiles w' := rfl
      rw [process_of_compile_ok compiled, process_of_compile_ok compiled', known, linked]
      rcases linkAll P location (walk.known P walk.files location) (P.segmentsOf location source)
        with ⟨e | text, after⟩ <;> rfl

/-- **A step over files that look the same** at the `location` whose turn it is. -/
theorem next_onFiles
    (alike : ∀ location ∈ walk.queue, walk.passesOver location = false →
      P.SeesAlike walk.files w' walk.exclusions location)
    (leaves : ∀ p, (P.registry.compile walk.files p).2 = walk.files)
    (leaves' : ∀ p, (P.registry.compile w' p).2 = w') :
    next P (walk.onFiles w') = ((next P walk).1, (next P walk).2.onFiles w') := by
  have passes : (walk.onFiles w').passesOver = walk.passesOver := rfl
  cases waiting : walk.queue.dropWhile walk.passesOver with
  | nil =>
      have waiting' : (walk.onFiles w').queue.dropWhile (walk.onFiles w').passesOver = [] := waiting
      rw [next_nil waiting, next_nil waiting']
      rfl
  | cons location rest =>
      have waiting' : (walk.onFiles w').queue.dropWhile (walk.onFiles w').passesOver =
          location :: rest := waiting
      have waits : location ∈ walk.queue :=
        (List.dropWhile_suffix walk.passesOver).subset (waiting ▸ List.mem_cons_self)
      have fresh : walk.passesOver location = false := by
        have head : walk.queue.dropWhile walk.passesOver ≠ [] := by simp [waiting]
        simpa [waiting] using List.head_dropWhile_not walk.passesOver head
      let left : Walk := { walk with queue := rest }
      have processed : process P (left.onFiles w') location =
          ((process P left location).1, (process P left location).2.onFiles w') :=
        process_onFiles (alike location waits fresh) (leaves location) (leaves' location)
      rw [next_cons waiting, next_cons waiting']
      exact congrArg (fun made => (some made.1, made.2)) processed

/-! ## Closed sets -/

/-- **A `walk` that stays in a set** of locations: it is steady, and all that it scheduled is in the
set. -/
structure Stays (P : Project) (w : Workspace) (x : Exclusions) (S : Path → Prop) (walk : Walk) :
    Prop where
  /-- The walk is steady. -/
  steady : ∃ gone, Steady P w x gone walk
  /-- What was scheduled is in the set. -/
  inside : ∀ p ∈ walk.scheduled, S p

namespace Stays

variable {w : Workspace} {x : Exclusions} {S : Path → Prop} {after : Walk} {record : ModuleRecord}

/-- **A step that makes a module** leaves a `walk` in a closed set. -/
theorem next (leaves : ∀ p, (P.registry.compile w p).2 = w)
    (closed : ∀ p, S p → ∀ q ∈ P.broughtPast w x p, S q) (h : Stays P w x S walk)
    (e : walk.next P = (some (.ok record), after)) : Stays P w x S after := by
  obtain ⟨gone, steady⟩ := h.steady
  exact ⟨⟨_, (steady.next leaves e).1⟩, steady.inside_next leaves e h.inside closed⟩

/-- **A step over other files** where all of the set looks the same. -/
theorem next_onFiles (leaves : P.registry.Holds fun _ compiler => compiler.LeavesFiles)
    (alike : ∀ p, S p → x.holdsFile p = false → P.SeesAlike w w' x p) (h : Stays P w x S walk) :
    (walk.onFiles w').next P = ((walk.next P).1, (walk.next P).2.onFiles w') := by
  obtain ⟨gone, steady⟩ := h.steady
  have files := steady.within.files_eq
  refine Walk.next_onFiles (fun location waits fresh => ?_) (Registry.files_compile leaves _)
    (Registry.files_compile leaves _)
  have scheduled : location ∈ walk.scheduled :=
    steady.orderly.scheduled_eq ▸ List.mem_append_right _ waits
  have kept : x.holdsFile location = false :=
    steady.exclusions_eq ▸ ((Bool.or_eq_false_iff ..).mp fresh).2
  rw [files, steady.exclusions_eq]
  exact alike location (h.inside location scheduled) kept

end Stays

end Walk

end ScriptBundle
