import ScriptBundle.Proofs.Path.Discovery
import ScriptBundle.Proofs.Resolution.Found
import ScriptBundle.Proofs.Walk.Linking
import ScriptBundle.Proofs.Walk.Queue

/-! # Entries into the queue

Which locations a walk schedules when it meets some files, and in which order. A location is scheduled
behind the others unless it is among them, so that a schedule is made of first occurrences:

* **`Project.withManifest`** — a file and the manifest that goes with it;
* **`Walk.entries`** — what a file that is met puts into the queue;
* **`Walk.Orderly.scheduled_foldl_meet`** — the schedule behind the targets of a module;
* **`Walk.Makes`, `Walk.makes_of_next`** — all that a step does that makes a module;
* **`Walk.Orderly.exists_makes`** — there is such a step, where missing targets are noted;
* **`Walk.Reached`** — a walk that made a module of every location so far, and one module more. -/

namespace ScriptBundle

namespace Project

variable {P : Project} {w : Workspace} {p q : Path}

/-- **A file and the manifest that goes with it**, behind it. -/
def withManifest (P : Project) (w : Workspace) (p : Path) : List Path :=
  p :: (P.manifestOf? w p).toList

/-- A file goes with itself. -/
theorem mem_withManifest_self : p ∈ P.withManifest w p := List.mem_cons_self

/-- The manifest that goes with a file is the nearest one above it. -/
theorem manifestAbove?_of_manifestOf? (h : P.manifestOf? w p = some q) :
    w.manifestAbove? p = some q := by
  unfold manifestOf? at h
  split at h
  · exact h
  · simp at h

/-- What goes with an absolute path is absolute. -/
theorem isAbsolute_of_mem_withManifest (rooted : p.isAbsolute = true)
    (h : q ∈ P.withManifest w p) : q.isAbsolute = true := by
  rcases List.mem_cons.mp h with rfl | manifest
  · exact rooted
  · exact isAbsolute_of_manifestAbove? rooted
      (manifestAbove?_of_manifestOf? (Option.mem_toList.mp manifest))

/-- What goes with a tight path is tight. -/
theorem isTight_of_mem_withManifest (tight : p.IsTight) (h : q ∈ P.withManifest w p) :
    q.IsTight := by
  rcases List.mem_cons.mp h with rfl | manifest
  · exact tight
  · exact isTight_of_manifestAbove? tight
      (manifestAbove?_of_manifestOf? (Option.mem_toList.mp manifest))

/-- What goes with a reduced path is reduced. -/
theorem isReduced_of_mem_withManifest (reduced : p.IsReduced) (h : q ∈ P.withManifest w p) :
    q.IsReduced := by
  rcases List.mem_cons.mp h with rfl | manifest
  · exact reduced
  · exact isReduced_of_manifestAbove? reduced
      (manifestAbove?_of_manifestOf? (Option.mem_toList.mp manifest))

/-- **What goes with a `manifest` goes with its file.** -/
theorem mem_withManifest_of_manifestOf? {manifest : Path} (rooted : p.isAbsolute = true)
    (h : q ∈ P.withManifest w p) (found : P.manifestOf? w q = some manifest) :
    manifest ∈ P.withManifest w p := by
  rcases List.mem_cons.mp h with rfl | above
  · exact List.mem_cons_of_mem _ (Option.mem_toList.mpr found)
  -- `q` is itself a manifest, and the nearest one above it is `q` again
  · have nearest := manifestAbove?_of_manifestOf? (Option.mem_toList.mp above)
    have same := (manifestAbove?_self rooted nearest).symm.trans (manifestAbove?_of_manifestOf? found)
    exact Option.some.inj same ▸ h

end Project

namespace Walk

variable {P : Project} {walk : Walk} {referrer p : Path} {gone : List Path}

/-- **What a file that is met puts into the queue**: nothing if it is a module, else its location and
the manifest that goes with it. -/
def entries (P : Project) (walk : Walk) (p : Path) : List Path :=
  if walk.hasEmitted p then [] else P.withManifest walk.files p

/-- A location is met with what goes with it, unless it is a module. -/
theorem mem_entries_iff {q : Path} :
    q ∈ walk.entries P p ↔ walk.hasEmitted p = false ∧ q ∈ P.withManifest walk.files p := by
  rw [entries]
  cases emitted : walk.hasEmitted p with
  | true => simp
  | false => simp

namespace Orderly

/-- What became a module was scheduled. -/
theorem hasScheduled (h : Orderly gone walk) (emitted : walk.hasEmitted p = true) :
    walk.hasScheduled p = true :=
  Path.isAmong_mono
    (fun _ hq => h.scheduled_eq ▸ List.mem_append_left _ (h.emitted_sublist.subset hq)) emitted

/-- On what was scheduled, `enqueue` is `Path.addNew`. -/
theorem scheduled_enqueue (h : Orderly gone walk) (p : Path) :
    (walk.enqueue p).scheduled = Path.addNew walk.scheduled p := by
  -- the queue also asks for modules, but these were all scheduled
  by_cases known : walk.hasScheduled p = true
  · rw [enqueue_of_hasScheduled known, Path.addNew_of_isAmong known]
  · have emitted : walk.hasEmitted p = false := by
      by_contra emitted
      exact known (h.hasScheduled (by simpa using emitted))
    rw [enqueue_of_new emitted (by simpa using known)]
    exact (if_neg known).symm

/-- On what was scheduled, `enqueueWithManifest` adds what goes with the location, one after the other.
-/
theorem scheduled_enqueueWithManifest (h : Orderly gone walk) (p : Path) :
    (walk.enqueueWithManifest P p).scheduled =
      (P.withManifest walk.files p).foldl Path.addNew walk.scheduled := by
  unfold Walk.enqueueWithManifest Project.withManifest
  split
  · rename_i manifest found
    rw [(h.enqueue p).scheduled_enqueue, h.scheduled_enqueue, found]
    rfl
  · rename_i found
    rw [h.scheduled_enqueue, found]
    rfl

/-- The order of the queue behind a file that is met. -/
theorem meet (h : Orderly gone walk) (referrer p : Path) :
    Orderly gone (Walk.meet P referrer walk p) :=
  meet_keeps (fun _ _ h => ⟨h.1, h.2, h.3⟩) (fun _ _ h => h.enqueue _) h

/-- On what was scheduled, `meet` adds the `entries` of the location, one after the other. -/
theorem scheduled_meet (h : Orderly gone walk) (referrer p : Path) :
    (Walk.meet P referrer walk p).scheduled = (walk.entries P p).foldl Path.addNew walk.scheduled := by
  have drawn : Orderly gone { walk with
      graph := walk.graph.addDependency (P.identityOf referrer) (P.identityOf p) } :=
    ⟨h.1, h.2, h.3⟩
  unfold Walk.meet entries
  split
  · rfl
  · exact drawn.scheduled_enqueueWithManifest p

/-- **The schedule behind some `targets`.** -/
theorem scheduled_foldl_meet (h : Orderly gone walk) (referrer : Path) (targets : List Path) :
    (targets.foldl (Walk.meet P referrer) walk).scheduled =
      (targets.flatMap (walk.entries P)).foldl Path.addNew walk.scheduled := by
  induction targets generalizing walk with
  | nil => rfl
  | cons target rest ih =>
      -- what is a module, and the files, are the same in front of every target
      have same : (Walk.meet P referrer walk target).entries P = walk.entries P := by
        funext p
        rw [entries, entries, hasEmitted, hasEmitted, emitted_meet, files_meet]
      rw [List.foldl_cons, ih (h.meet referrer target), h.scheduled_meet, same, List.flatMap_cons,
        List.foldl_append]

end Orderly

/-! ## Steps that make a module -/

/-- **A step that makes a module**: what the module is, and what of the `walk` is new behind it. -/
structure Makes (P : Project) (walk : Walk) (record : ModuleRecord) (after : Walk) : Prop where
  /-- The script is what its compiler gave. -/
  compiled_eq : P.registry.compile walk.files record.location = (.ok record.compiled, after.files)
  /-- The identity is that of the location. -/
  identity_eq : record.identity = P.identityOf record.location
  /-- The text has every reference replaced. -/
  linked_eq : record.linked = .ofList ((P.segmentsOf record.location record.compiled).flatMap
    (P.linkedText after.files after.exclusions record.location))
  /-- The location is the first that is not passed over. -/
  taken_eq : walk.taken = walk.queue.takeWhile walk.passesOver ++ [record.location]
  /-- It is no module yet, and is not kept out. -/
  passesOver_eq : walk.passesOver record.location = false
  /-- Nothing more is kept out. -/
  exclusions_eq : after.exclusions = walk.exclusions
  /-- The location is the latest module. -/
  emitted_eq : after.emitted = walk.emitted ++ [record.location]
  /-- What it refers to without a target is noted. -/
  unresolved_eq : after.unresolved = walk.unresolved ++
    (P.segmentsOf record.location record.compiled).filterMap
      (P.note? after.files after.exclusions record.location)
  /-- The module and its references are in the graph. -/
  graph_eq : after.graph =
    ((P.targetsOf after.files after.exclusions record.location record.compiled).map
      P.identityOf).foldl (·.addDependency record.identity ·)
      (walk.graph.addModule record.identity).1
  /-- Its targets are scheduled. -/
  scheduled_eq : after.scheduled =
    ((P.targetsOf after.files after.exclusions record.location record.compiled).flatMap
      (entries P { walk with files := after.files })).foldl Path.addNew walk.scheduled

/-- **What a step does that makes a module.** -/
theorem makes_of_next (h : Orderly gone walk) {record : ModuleRecord} {after : Walk}
    (e : walk.next P = (some (.ok record), after)) : Makes P walk record after := by
  cases waiting : walk.queue.dropWhile walk.passesOver with
  | nil =>
      rw [next_nil waiting] at e
      simp at e
  | cons location rest =>
      -- the first location behind those that are passed over is not passed over
      have fresh : walk.passesOver location = false := by
        have head : walk.queue.dropWhile walk.passesOver ≠ [] := by simp [waiting]
        simpa [waiting] using List.head_dropWhile_not walk.passesOver head
      have left := h.dequeue waiting
      rw [next_cons waiting] at e
      obtain ⟨made, rfl⟩ := Prod.mk.inj e
      have processed : process P { walk with queue := rest } location =
          (.ok record, (process P { walk with queue := rest } location).2) :=
        Prod.ext (Option.some.inj made) rfl
      obtain ⟨source, files, compiled, rfl, behind⟩ := process_ok processed
      rw [behind]
      -- the references are followed with the location out of the queue and not yet a module
      have known := left.known (P := P) files location
      obtain ⟨files_eq, exclusions_eq, -, -⟩ := foldl_meet_frame P location
        (P.targetsOf files walk.exclusions location source)
        (Walk.known P { walk with queue := rest } files location)
      refine ⟨?_, rfl, ?_, taken_cons waiting, fresh, exclusions_eq, rfl, ?_, ?_, ?_⟩
      all_goals simp only [files_eq, exclusions_eq]
      · exact compiled
      · rfl
      · rfl
      · exact foldl_meet_graph ..
      · exact known.scheduled_foldl_meet ..

/-- A `location` that is made a module was scheduled. -/
theorem Makes.location_mem (makes : Makes P walk record after) (order : Orderly gone walk) :
    record.location ∈ walk.scheduled := by
  have waits : record.location ∈ walk.queue := by
    rw [← taken_append_drop walk, makes.taken_eq]
    simp
  exact order.scheduled_eq ▸ List.mem_append_right _ waits

/-- **The step that makes a module of the first `location`**, where missing targets are noted. -/
theorem Orderly.exists_makes (h : Orderly gone walk) (collects : P.policy = .collect)
    {location : Path} {rest : List Path} (waits : walk.queue = location :: rest)
    (kept : walk.passesOver location = false) {source : String} {files : Workspace}
    (compiled : P.registry.compile walk.files location = (.ok source, files)) :
    ∃ record after, walk.next P = (some (.ok record), after) ∧ Makes P walk record after ∧
      Orderly (gone ++ [location]) after ∧ record.location = location ∧ record.compiled = source ∧
      after.files = files := by
  have first : walk.queue.dropWhile walk.passesOver = location :: rest := by
    rw [waits, List.dropWhile_cons_of_neg (by simp [kept])]
  have gone_now : walk.taken = [location] := by
    rw [taken_cons first, waits, List.takeWhile_cons_of_neg (by simp [kept]), List.nil_append]
  let left : Walk := { walk with queue := rest }
  obtain ⟨record, after, processed, place, made⟩ : ∃ record after,
      Walk.process P left location = (.ok record, after) ∧ record.location = location ∧
        record.compiled = source := exists_process_ok collects compiled
  have e : walk.next P = (some (.ok record), after) := by rw [next_cons first, processed]
  -- what is made is made by a step, and `makes_of_next` tells the rest
  have makes := makes_of_next h e
  have orderly := h.next (P := P)
  rw [e, gone_now] at orderly
  refine ⟨record, after, e, makes, orderly, place, made, ?_⟩
  have same := makes.compiled_eq
  rw [place, compiled] at same
  exact (Prod.mk.inj same).2.symm

/-- **A `walk` that made a module of every location so far**, with nothing kept out. -/
structure Reached (w : Workspace) (gone scheduled : List Path) (walk : Walk) : Prop where
  /-- The files are those it started with. -/
  files_eq : walk.files = w
  /-- Nothing is kept out. -/
  exclusions_eq : walk.exclusions = .none
  /-- The queue is in order. -/
  orderly : Orderly gone walk
  /-- What was scheduled. -/
  scheduled_eq : walk.scheduled = scheduled
  /-- Whatever left the queue is a module. -/
  emitted_eq : walk.emitted = gone

/-- The walk in front of the `entry` script has reached nothing, and the entry script waits. -/
theorem reached_start (P : Project) (w : Workspace) : Reached w [] [P.entry] (start P w) :=
  ⟨rfl, rfl, orderly_start P w, rfl, rfl⟩

/-- What waits behind the modules. -/
theorem Reached.queue_eq {w : Workspace} {rest : List Path} (h : Reached w gone (gone ++ rest) walk) :
    walk.queue = rest := by
  have whole := h.orderly.scheduled_eq
  rw [h.scheduled_eq] at whole
  exact (List.append_cancel_left whole).symm

/-- Nothing waits where every location that was scheduled is a module. -/
theorem Reached.next_none {w : Workspace} (h : Reached w gone gone walk) :
    walk.next P = (none, { walk with queue := [] }) := by
  have whole : Reached w gone (gone ++ []) walk := by rwa [List.append_nil]
  rw [next_nil]
  rw [whole.queue_eq]
  rfl

/-- **One module more**, where missing `targets` are noted: what it refers to is scheduled, unless it is a
module. -/
theorem Reached.next {w : Workspace} {rest targets found : List Path} {location : Path}
    {source : String} (h : Reached w gone (gone ++ location :: rest) walk)
    (collects : P.policy = .collect) (new : location.isAmong gone = false)
    (compiled : P.registry.compile w location = (.ok source, w))
    (refers : P.targetsOf w .none location source = targets)
    (brought : (targets.flatMap fun target =>
      if target.isAmong gone then [] else P.withManifest w target).foldl Path.addNew
        (gone ++ location :: rest) = found) :
    ∃ record after, walk.next P = (some (.ok record), after) ∧
      Reached w (gone ++ [location]) found after := by
  have kept : walk.passesOver location = false := by
    rw [passesOver, hasEmitted, h.emitted_eq, new, h.exclusions_eq, Exclusions.holdsFile_none]
    rfl
  rw [← h.files_eq] at compiled
  obtain ⟨record, after, e, makes, orderly, place, made, files⟩ :=
    h.orderly.exists_makes collects h.queue_eq kept compiled
  have exclusions := makes.exclusions_eq.trans h.exclusions_eq
  refine ⟨record, after, e, files.trans h.files_eq, exclusions, orderly, ?_, ?_⟩
  · rw [makes.scheduled_eq, h.scheduled_eq, files, h.files_eq, exclusions, place, made, refers,
      ← brought, ← h.emitted_eq]
    rfl
  · rw [makes.emitted_eq, h.emitted_eq, place]

/-- **What a module calls is `scheduled`** behind the step that makes it. -/
theorem Makes.isAmong_scheduled {record : ModuleRecord} {after : Walk}
    (makes : Makes P walk record after) (h : Orderly gone walk)
    (called : p ∈ P.targetsOf after.files after.exclusions record.location record.compiled) :
    p.isAmong after.scheduled = true := by
  rw [makes.scheduled_eq]
  -- a target that is a module enters nothing, but was scheduled before
  by_cases emitted : walk.hasEmitted p = true
  · exact Path.isAmong_mono (Path.prefix_foldl_addNew ..).subset (h.hasScheduled emitted)
  · refine Path.isAmong_foldl_addNew (List.mem_flatMap.mpr ⟨p, called, ?_⟩)
    have entered : { walk with files := after.files }.entries P p =
        P.withManifest after.files p := if_neg emitted
    exact entered ▸ Project.mem_withManifest_self

end Walk

end ScriptBundle
