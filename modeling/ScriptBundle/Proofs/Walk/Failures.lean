import ScriptBundle.Proofs.Bundle.Setup
import ScriptBundle.Proofs.Graph.References
import ScriptBundle.Proofs.Walk.Exclusion

/-! # Steps that fail

A step may fail in the middle: its location has left the queue, and some of its references have been
followed. What was done by then is not taken back, so that it has to be harmless: the modules, what is
kept out and what is noted are as they were, the location never comes back, and whatever is new in the
queue or in the graph was brought by a reference of the location in front of the one that fails.

* **`Walk.linkAll_error`** — a script with a reference that fails: the references in front of it were
  met, and nothing else was done;
* **`Walk.FailsAt`, `Walk.process_error`** — a location that fails at a reference, and the two ways a
  location can fail;
* **`Walk.Orderly.gone_for_good`** — what left the queue and became no module stays out of both;
* **`Walk.numbered_run`** — the graph of a walk is well numbered, whatever the walk was asked for;
* **`Walk.run_start_failed`** — what every failure leaves behind. -/

namespace ScriptBundle

namespace Walk

variable {P : Project} {w : Workspace} {walk after between : Walk} {location referrer p : Path}
  {segments front : List Segment} {text specifier replacement : List Char} {e : BundleError}
  {gone : List Path} {commands : List Command} {asked : String}

/-! ## References that fail -/

/-- **A reference fails** only where it has no target and the `policy` is strict, and the walk stays as
it is. -/
theorem follow_error (h : follow P referrer walk text specifier = (.error e, after)) :
    ∃ cause, P.policy = .fail ∧
      P.treatment walk.files walk.exclusions referrer (.ofList specifier) = .missing cause ∧
      e = .unresolvedReference (.ofList specifier) referrer cause ∧ after = walk := by
  cases treated : P.treatment walk.files walk.exclusions referrer (.ofList specifier) with
  | literal => simp [follow_literal treated] at h
  | outside path => simp [follow_outside treated] at h
  | target location => simp [follow_target treated] at h
  | missing cause =>
      cases policy : P.policy with
      | collect => simp [follow_missing_collect treated policy] at h
      | fail =>
          rw [follow_missing_fail treated policy] at h
          obtain ⟨rfl, rfl⟩ := by simpa using h
          exact ⟨cause, rfl, rfl, rfl, rfl⟩

/-- **A reference that goes through** under the strict `policy` is not to be noted, and its target is
met. -/
theorem follow_ok (strict : P.policy = .fail)
    (h : follow P referrer walk text specifier = (.ok replacement, after)) :
    P.note? walk.files walk.exclusions referrer (.reference text specifier) = none ∧
      after = (P.target? walk.files walk.exclusions referrer
        (.reference text specifier)).toList.foldl (meet P referrer) walk := by
  rw [Project.note?, Project.target?]
  cases treated : P.treatment walk.files walk.exclusions referrer (.ofList specifier) with
  | literal =>
      rw [follow_literal treated] at h
      exact ⟨rfl, (Prod.mk.inj h).2.symm⟩
  | outside path =>
      rw [follow_outside treated] at h
      exact ⟨rfl, (Prod.mk.inj h).2.symm⟩
  | missing cause => simp [follow_missing_fail treated strict] at h
  | target location =>
      rw [follow_target treated] at h
      exact ⟨rfl, (Prod.mk.inj h).2.symm⟩

/-- **A script with a reference that fails.** The references in front of it were met, one after the
other, and none of them is to be noted. -/
theorem linkAll_error (h : linkAll P referrer walk segments = (.error e, after)) :
    ∃ front text specifier back cause,
      segments = front ++ .reference text specifier :: back ∧ P.policy = .fail ∧
      (∀ segment ∈ front, P.note? walk.files walk.exclusions referrer segment = none) ∧
      P.treatment walk.files walk.exclusions referrer (.ofList specifier) = .missing cause ∧
      e = .unresolvedReference (.ofList specifier) referrer cause ∧
      after = (front.filterMap (P.target? walk.files walk.exclusions referrer)).foldl
        (meet P referrer) walk := by
  -- on the segments; files and exclusions stay the same, so each segment is treated as at the start
  induction segments generalizing walk with
  | nil => simp [linkAll] at h
  | cons segment rest ih =>
      cases segment with
      | char c =>
          rw [linkAll] at h
          split at h <;> rename_i linked
          · simp at h
          · obtain ⟨rfl, rfl⟩ := by simpa using h
            obtain ⟨front, text, specifier, back, cause, rfl, strict, silent, missing, rfl, rfl⟩ :=
              ih linked
            exact ⟨.char c :: front, text, specifier, back, cause, rfl, strict,
              List.forall_mem_cons.mpr ⟨rfl, silent⟩, missing, rfl, rfl⟩
      | reference shown named =>
          rw [linkAll] at h
          split at h <;> rename_i followed
          · obtain ⟨rfl, rfl⟩ := by simpa using h
            obtain ⟨cause, strict, missing, rfl, rfl⟩ := follow_error followed
            exact ⟨[], shown, named, rest, cause, rfl, strict, by simp, missing, rfl, rfl⟩
          · split at h <;> rename_i linked
            · simp at h
            · obtain ⟨rfl, rfl⟩ := by simpa using h
              obtain ⟨front, text, specifier, back, cause, rfl, strict, silent, missing, rfl, rfl⟩ :=
                ih linked
              obtain ⟨quiet, rfl⟩ := follow_ok strict followed
              obtain ⟨files, exclusions, -, -⟩ := foldl_meet_frame P referrer
                (P.target? walk.files walk.exclusions referrer (.reference shown named)).toList walk
              rw [files, exclusions] at silent missing
              refine ⟨.reference shown named :: front, text, specifier, back, cause, rfl, strict,
                List.forall_mem_cons.mpr ⟨quiet, silent⟩, missing, rfl, ?_⟩
              rw [files, exclusions, ← List.foldl_append, List.filterMap_cons]
              cases P.target? walk.files walk.exclusions referrer (.reference shown named) <;> rfl

/-! ## Locations that fail -/

/-- **A `location` that fails at a reference**: its compiler gives a script, and the reference is the
first in it that has no target. -/
structure FailsAt (P : Project) (w : Workspace) (x : Exclusions) (location : Path)
    (front : List Segment) (specifier : String) (cause : ResolveError) (behind : Workspace) : Prop where
  /-- The policy is strict. -/
  strict : P.policy = .fail
  /-- The reference stands in the script, behind the segments in front. -/
  stands : ∃ source text back, P.registry.compile w location = (.ok source, behind) ∧
    P.segmentsOf location source = front ++ .reference text specifier.toList :: back
  /-- It has no target. -/
  missing : P.treatment behind x location specifier = .missing cause
  /-- No reference in front of it is without a target. -/
  silent : ∀ segment ∈ front, P.note? behind x location segment = none

/-- **The two ways a `location` can fail.** Its compiler fails, and all but the files stays as it is; or
it fails at a reference, and the references in front were met. -/
theorem process_error (h : process P walk location = (.error e, after)) :
    (∃ cause files, e = .compilation location cause ∧ after = { walk with files }) ∨
    ∃ front specifier cause, e = .unresolvedReference specifier location cause ∧
      FailsAt P walk.files walk.exclusions location front specifier cause after.files ∧
      after = (front.filterMap (P.target? after.files walk.exclusions location)).foldl
        (meet P location) (walk.known P after.files location) := by
  rcases process_cases P walk location with
    ⟨cause, files, -, e⟩ | ⟨source, files, compiled, ⟨cause, left, linked, e⟩ | ⟨text, left, linked, e⟩⟩
  · obtain ⟨failed, rfl⟩ := Prod.mk.inj (e.symm.trans h)
    exact .inl ⟨cause, files, (Except.error.inj failed).symm, rfl⟩
  · obtain ⟨failed, rfl⟩ := Prod.mk.inj (e.symm.trans h)
    obtain rfl := Except.error.inj failed
    obtain ⟨front, text, specifier, back, cause, whole, strict, silent, missing, rfl, behind⟩ :=
      linkAll_error linked
    have same : left.files = files := behind ▸ (foldl_meet_frame P location _ _).1
    subst same
    refine .inr ⟨front, .ofList specifier, cause, rfl, ⟨strict, ?_, missing, silent⟩, behind⟩
    exact ⟨source, text, back, compiled, by simpa using whole⟩
  · simp [e] at h

/-! ## What left the queue -/

/-- A module comes out of a command for a `location` that left the queue by it. -/
theorem location_mem_takenBy {record : ModuleRecord} {command : Command} (order : Orderly gone walk)
    (h : record ∈ walk.recordBy P command) : record.location ∈ walk.takenBy command := by
  cases command with
  | pack specifier => exact absurd h List.not_mem_nil
  | keepOut specifier => exact absurd h List.not_mem_nil
  | next =>
      rw [recordBy] at h
      split at h
      · rename_i made
        obtain rfl := List.mem_singleton.mp h
        rw [takenBy, (makes_of_next order (Prod.ext made rfl)).taken_eq]
        exact List.mem_append_right _ (List.mem_singleton_self _)
      · exact absurd h List.not_mem_nil

/-- **The modules that come out of a run** are made of locations that left the queue along it. -/
theorem location_mem_takenAlong {record : ModuleRecord} (order : Orderly gone walk)
    (h : record ∈ recordsAlong P walk commands) : record.location ∈ takenAlong P walk commands := by
  induction commands generalizing gone walk with
  | nil => exact absurd h List.not_mem_nil
  | cons command rest ih =>
      rcases List.mem_append.mp h with first | later
      · exact List.mem_append_left _ (location_mem_takenBy order first)
      · exact List.mem_append_right _ (ih (order.perform command) later)

/-- **What left the `queue` and became no module** neither waits nor becomes a module later. -/
theorem Orderly.gone_for_good (order : Orderly (gone ++ [location]) walk)
    (unmade : walk.emitted.Sublist gone) (later : List Command) :
    location.isAmong (walk.run P later).queue = false ∧
      location.isAmong (walk.run P later).emitted = false := by
  have final := order.run (P := P) later
  -- what left the queue before, what leaves it later and what waits then are all other locations
  have parts := final.nodup
  rw [final.scheduled_eq, List.append_assoc, List.append_assoc, List.singleton_append, List.map_append,
    List.map_cons] at parts
  have apart := (List.nodup_cons.mp (List.nodup_middle.mp parts)).1
  rw [List.mem_append, List.map_append, List.mem_append, not_or, not_or] at apart
  obtain ⟨before, along, waits⟩ := apart
  refine ⟨by rwa [← Bool.not_eq_true, Path.isAmong_iff], ?_⟩
  rw [← Bool.not_eq_true, Path.isAmong_iff, emitted_run, List.map_append, List.mem_append, not_or]
  refine ⟨fun old => before (List.map_subset _ unmade.subset old), fun new => along ?_⟩
  refine List.map_subset _ (fun q hq => ?_) new
  obtain ⟨record, made, rfl⟩ := List.mem_map.mp hq
  exact location_mem_takenAlong order made

/-! ## What enters the queue -/

/-- What waits is only added to by `enqueue`, and by nothing but the location. -/
theorem exists_queue_enqueue (walk : Walk) (p : Path) :
    ∃ added, (walk.enqueue p).queue = walk.queue ++ added ∧ added ⊆ [p] := by
  unfold enqueue
  split
  · exact ⟨[], (List.append_nil _).symm, List.nil_subset _⟩
  · exact ⟨[p], rfl, List.Subset.refl _⟩

/-- What waits is only added to by `enqueueWithManifest`, and by nothing but what goes with the
location. -/
theorem exists_queue_enqueueWithManifest (P : Project) (walk : Walk) (p : Path) :
    ∃ added, (walk.enqueueWithManifest P p).queue = walk.queue ++ added ∧
      added ⊆ P.withManifest walk.files p := by
  obtain ⟨own, queued, sub⟩ := exists_queue_enqueue walk p
  unfold enqueueWithManifest Project.withManifest
  cases P.manifestOf? walk.files p with
  | none => exact ⟨own, queued, sub⟩
  | some manifest =>
      obtain ⟨more, later, below⟩ := exists_queue_enqueue (walk.enqueue p) manifest
      refine ⟨own ++ more, by rw [later, queued, List.append_assoc], ?_⟩
      exact List.append_subset.mpr ⟨List.subset_append_of_subset_left [manifest] sub,
        List.subset_append_of_subset_right [p] below⟩

/-- **Targets that are met** put nothing into the `queue` but themselves and their manifests, behind
what waits. -/
theorem exists_queue_foldl_meet (P : Project) (referrer : Path) (targets : List Path) (walk : Walk) :
    ∃ added, (targets.foldl (meet P referrer) walk).queue = walk.queue ++ added ∧
      added ⊆ targets.flatMap (P.withManifest walk.files) := by
  induction targets generalizing walk with
  | nil => exact ⟨[], (List.append_nil _).symm, List.nil_subset _⟩
  | cons target rest ih =>
      obtain ⟨own, first, sub⟩ : ∃ own, (meet P referrer walk target).queue = walk.queue ++ own ∧
          own ⊆ P.withManifest walk.files target := by
        unfold meet
        split
        · exact ⟨[], (List.append_nil _).symm, List.nil_subset _⟩
        · exact exists_queue_enqueueWithManifest P { walk with
            graph := walk.graph.addDependency (P.identityOf referrer) (P.identityOf target) } target
      obtain ⟨more, later, below⟩ := ih (meet P referrer walk target)
      rw [files_meet] at below
      refine ⟨own ++ more, by rw [List.foldl_cons, later, first, List.append_assoc], ?_⟩
      exact List.append_subset.mpr ⟨List.subset_append_of_subset_left _ sub,
        List.subset_append_of_subset_right _ below⟩

/-! ## Graphs -/

/-- A file that is met leaves a well numbered `graph`. -/
theorem numbered_meet (h : walk.graph.WellNumbered) (referrer location : Path) :
    (meet P referrer walk location).graph.WellNumbered := by
  have drawn := (DependencyGraph.addDependency_spec h (P.identityOf referrer)
    (P.identityOf location)).1
  unfold meet
  split
  · exact drawn
  · rwa [graph_enqueueWithManifest]

/-- **Targets that are met** add to the `graph` what the referrer refers to, and nothing else. -/
theorem references_foldl_meet (h : walk.graph.WellNumbered)
    (known : P.identityOf referrer ∈ walk.graph.modules) (targets : List Path)
    (pair : Identity × Identity) :
    pair ∈ (targets.foldl (meet P referrer) walk).graph.references ↔
      pair ∈ walk.graph.references ∨
        ∃ target ∈ targets, pair = (P.identityOf referrer, P.identityOf target) := by
  obtain ⟨-, -, references⟩ :=
    DependencyGraph.foldl_addDependency_spec h known (targets.map P.identityOf)
  rw [foldl_meet_graph, references, List.map_map, List.mem_map]
  exact or_congr_right ⟨fun ⟨target, met, e⟩ => ⟨target, met, e.symm⟩,
    fun ⟨target, met, e⟩ => ⟨target, met, e.symm⟩⟩

/-- **Targets of a `location`** that are met when the graph mentions it: what is new in the queue is
among them and their manifests, and what is new in the graph leads to them. -/
theorem foldl_meet_known (h : walk.graph.WellNumbered) (location : Path) (files : Workspace)
    (targets : List Path) :
    let after := targets.foldl (meet P location) (walk.known P files location)
    after.unresolved = walk.unresolved ∧
      (∃ added, after.queue = walk.queue ++ added ∧
        added ⊆ targets.flatMap (P.withManifest files)) ∧
      ∀ pair, pair ∈ after.graph.references ↔ pair ∈ walk.graph.references ∨
        ∃ target ∈ targets, pair = (P.identityOf location, P.identityOf target) := by
  intro after
  obtain ⟨-, -, -, noted⟩ := foldl_meet_frame P location targets (walk.known P files location)
  obtain ⟨well, -, same, -, modules⟩ := DependencyGraph.addModule_spec h (P.identityOf location)
  have numbered : (walk.known P files location).graph.WellNumbered := well
  have mentioned : P.identityOf location ∈ (walk.known P files location).graph.modules :=
    (modules _).mpr (.inr rfl)
  refine ⟨noted, exists_queue_foldl_meet P location targets _, fun pair => ?_⟩
  rw [← same]
  exact references_foldl_meet numbered mentioned targets pair

/-- The `graph` behind a location is well numbered, whether or not it becomes a module. -/
theorem numbered_process (h : walk.graph.WellNumbered) (location : Path) :
    (process P walk location).2.graph.WellNumbered := by
  have known (files : Workspace) : (walk.known P files location).graph.WellNumbered :=
    (DependencyGraph.addModule_spec h (P.identityOf location)).1
  let keeps (walk : Walk) : Prop := walk.graph.WellNumbered
  have met : ∀ walk target specifier, keeps walk →
      P.treatment walk.files walk.exclusions location specifier = .target target →
      keeps (meet P location walk target) := fun _ _ _ h _ => numbered_meet h ..
  have linked (source : String) (files : Workspace) : (linkAll P location
      (walk.known P files location) (P.segmentsOf location source)).2.graph.WellNumbered :=
    linkAll_keeps_of_met (fun _ _ h => h) met _ (known files : keeps _)
  rcases process_cases P walk location with
    ⟨cause, files, -, e⟩ | ⟨source, files, -, ⟨cause, left, done, e⟩ | ⟨text, left, done, e⟩⟩
  · rw [e]
    exact h
  · have behind := linked source files
    rw [done] at behind
    rw [e]
    exact behind
  · have behind := linked source files
    rw [done] at behind
    rw [e]
    exact behind

/-- Whatever a command does, the graph stays `WellNumbered`. -/
theorem numbered_perform (h : walk.graph.WellNumbered) (command : Command) :
    (walk.perform P command).graph.WellNumbered := by
  cases command with
  | pack specifier =>
      rw [perform]
      split
      · rename_i packed
        rcases include?_cases packed with ⟨_, -, -, rfl⟩ | ⟨location, -, ⟨-, -, rfl⟩ | ⟨-, -, rfl⟩⟩
        · exact h
        · exact h
        · rwa [graph_enqueueWithManifest]
      · exact h
  | keepOut specifier =>
      rw [perform_keepOut]
      exact h
  | next =>
      rw [perform]
      cases waiting : walk.queue.dropWhile walk.passesOver with
      | nil =>
          rw [next_nil waiting]
          exact h
      | cons location rest =>
          have left : ({ walk with queue := rest } : Walk).graph.WellNumbered := h
          rw [next_cons waiting]
          exact numbered_process left location

/-- **The `graph` of a walk is well numbered**, whatever the walk was asked for. -/
theorem numbered_run (h : walk.graph.WellNumbered) (commands : List Command) :
    (walk.run P commands).graph.WellNumbered := by
  induction commands generalizing walk with
  | nil => exact h
  | cons command rest ih => exact ih (numbered_perform h command)

/-! ## Every failure -/

/-- **A specifier that cannot be packed** adds nothing. -/
theorem addedBy_of_include?_error (h : walk.include? P asked = .error e) :
    P.addedBy walk.files walk.exclusions asked = [] := by
  unfold include? at h
  split at h <;> rename_i resolved
  · rw [Project.addedBy, resolved]
  · simp at h
  · split at h <;> simp at h

/-- **A specifier that cannot be kept out** keeps out neither a name nor a file. -/
theorem kept_of_exclude?_error (h : walk.exclude? P asked = .error e) :
    Specifier.keptNames asked = [] ∧ P.keptFiles walk.files asked = [] := by
  unfold exclude? at h
  split at h
  · simp at h
  · dsimp only at h
    split at h <;> rename_i resolved
    · simp at h
    · simp at h
    · split at h <;> rename_i named
      · simp at h
      · have other : Specifier.kind asked ≠ .bare := by simpa using named
        rw [Specifier.keptNames, if_neg fun both => other both.2, Project.keptFiles, resolved]
        exact ⟨rfl, rfl⟩

/-- **A step that fails** takes the first `location` that is not passed over, which then fails. -/
theorem process_of_next_error (h : walk.next P = (some (.error e), after)) :
    ∃ location rest, walk.queue.dropWhile walk.passesOver = location :: rest ∧
      process P { walk with queue := rest } location = (.error e, after) := by
  cases waiting : walk.queue.dropWhile walk.passesOver with
  | nil => simp [next_nil waiting] at h
  | cons location rest =>
      rw [next_cons waiting] at h
      obtain ⟨result, rfl⟩ := Prod.mk.inj h
      exact ⟨location, rest, rfl, Prod.ext (Option.some.inj result) rfl⟩

/-- **The `location` of a step that fails** is never again in the queue, and never a module. -/
theorem Orderly.never_again {rest : List Path} (order : Orderly gone walk)
    (waiting : walk.queue.dropWhile walk.passesOver = location :: rest)
    (failed : Walk.process P { walk with queue := rest } location = (.error e, after))
    (later : List Command) : location.isAmong (after.run P later).queue = false ∧
      location.isAmong (after.run P later).emitted = false := by
  -- the location left the queue last, and the modules are those from before
  have behind := order.next (P := P)
  rw [next_cons waiting, failed, taken_cons waiting, ← List.append_assoc] at behind
  refine behind.gone_for_good ?_ later
  rw [emitted_process_error failed]
  exact order.emitted_sublist.trans (List.sublist_append_left ..)

/-- **What a failure leaves behind**, for every `walk` that can be reached. A specifier that cannot be
packed would have added nothing and one that cannot be kept out would have kept out nothing, so that
the walk is the one from before. A step that fails leaves the modules, what is kept out and what is
noted as they were. Its location is the first that is not passed over, and it is in the queue or a
module at no later time. Either its compiler failed, and then the graph is unchanged and the queue is
the rest of the old one; or it fails at a reference, and then whatever is new in the queue is a target
of a reference in front of it or the manifest of one, and whatever is new in the graph leads from the
location to such a target. -/
theorem run_start_failed (P : Project) (w : Workspace) (commands : List Command) :
    let walk := (start P w).run P commands
    (∀ asked e, walk.include? P asked = .error e →
      P.addedBy walk.files walk.exclusions asked = [] ∧ walk.perform P (.pack asked) = walk) ∧
    (∀ asked e, walk.exclude? P asked = .error e →
      Specifier.keptNames asked = [] ∧ P.keptFiles walk.files asked = [] ∧
        walk.perform P (.keepOut asked) = walk) ∧
    ∀ e after, walk.next P = (some (.error e), after) →
      after.emitted = walk.emitted ∧ after.exclusions = walk.exclusions ∧
      after.unresolved = walk.unresolved ∧
      ∃ location rest, walk.queue.dropWhile walk.passesOver = location :: rest ∧
        rest <:+ walk.queue ∧
        (∀ later, location.isAmong (after.run P later).queue = false ∧
          location.isAmong (after.run P later).emitted = false) ∧
        ((∃ cause, e = .compilation location cause ∧ after.graph = walk.graph ∧
            after.queue = rest) ∨
          ∃ front specifier cause, e = .unresolvedReference specifier location cause ∧
            FailsAt P walk.files walk.exclusions location front specifier cause after.files ∧
            (∃ added, after.queue = rest ++ added ∧ ∀ p ∈ added,
              ∃ target ∈ front.filterMap (P.target? after.files walk.exclusions location),
                p ∈ P.withManifest after.files target) ∧
            ∀ pair, pair ∈ after.graph.references ↔ pair ∈ walk.graph.references ∨
              ∃ target ∈ front.filterMap (P.target? after.files walk.exclusions location),
                pair = (P.identityOf location, P.identityOf target)) := by
  intro walk
  refine ⟨fun asked e failed => ⟨addedBy_of_include?_error failed, by rw [perform, failed]⟩,
    fun asked e failed => ?_, fun e after failed => ?_⟩
  · obtain ⟨names, files⟩ := kept_of_exclude?_error failed
    exact ⟨names, files, by rw [perform, failed]⟩
  · have order : Orderly _ walk := (orderly_start P w).run (P := P) commands
    have numbered : walk.graph.WellNumbered :=
      numbered_run DependencyGraph.wellNumbered_empty commands
    obtain ⟨location, rest, waiting, processed⟩ := process_of_next_error failed
    let left : Walk := { walk with queue := rest }
    have processed : process P left location = (.error e, after) := processed
    have suffix : rest <:+ walk.queue := by
      have below := List.dropWhile_suffix (l := walk.queue) walk.passesOver
      exact (List.suffix_cons location rest).trans (waiting ▸ below)
    have emitted := emitted_process_error processed
    have kept : after.exclusions = walk.exclusions := by
      have same := exclusions_process (P := P) left location
      rwa [processed] at same
    rcases process_error processed with
      ⟨cause, files, rfl, rfl⟩ | ⟨front, specifier, cause, rfl, fails, met⟩
    · exact ⟨emitted, kept, rfl, location, rest, waiting, suffix, order.never_again waiting processed,
        .inl ⟨cause, rfl, rfl, rfl⟩⟩
    · -- the references in front were met by the walk that mentions the location
      have numbered : left.graph.WellNumbered := numbered
      obtain ⟨noted, ⟨added, queued, below⟩, references⟩ := foldl_meet_known (P := P) numbered location
        after.files (front.filterMap (P.target? after.files walk.exclusions location))
      rw [← met] at noted queued references
      exact ⟨emitted, kept, noted, location, rest, waiting, suffix,
        order.never_again waiting processed, .inr ⟨front, specifier, cause, rfl, fails,
          ⟨added, queued, fun p hp => List.mem_flatMap.mp (below hp)⟩, references⟩⟩

/-- A script whose first reference has a target and whose second has none. -/
def halfScripts : Workspace :=
  ⟨⟨[(["a.js"], .text "require('./b');require('./gone')"), (["b.js"], .text "")], []⟩, []⟩

/-- The project of these scripts. -/
def halfProject : Project :=
  ⟨⟨"/a.js"⟩, .initial, Registry.initial.resolutionExtensions, .fail⟩

/-- The reference that fails. -/
def halfReference : BundleError :=
  .unresolvedReference "./gone" ⟨"/a.js"⟩ (.notFound "./gone" ⟨"/"⟩)

/-- The first step of these scripts fails behind the reference that has a target: only this target
waits then, and the script never comes back. The file that is missing can neither be packed nor kept
out. -/
theorem run_start_failed_halfScripts :
    let walk := start halfProject halfScripts
    let after := (walk.next halfProject).2
    walk.include? halfProject "./gone" =
        .error (.setup .included "./gone" (.notFound "./gone" ⟨"/"⟩)) ∧
      walk.exclude? halfProject "./gone" =
        .error (.setup .excluded "./gone" (.notFound "./gone" ⟨"/"⟩)) ∧
      walk.next halfProject = (some (.error halfReference), after) ∧
      walk.perform halfProject (.pack "./gone") = walk ∧
      walk.perform halfProject (.keepOut "./gone") = walk ∧
      after.queue = [⟨"/b.js"⟩] ∧ after.emitted = [] ∧
      ∀ later, Path.isAmong ⟨"/a.js"⟩ (after.run halfProject later).queue = false := by
  intro walk after
  have found : resolve halfScripts halfProject.extensions "./gone" halfProject.base =
      .error (.notFound "./gone" ⟨"/"⟩) := by decide +kernel
  have unpacked : walk.include? halfProject "./gone" =
      .error (.setup .included "./gone" (.notFound "./gone" ⟨"/"⟩)) := by
    rw [include?, Project.resolve, show walk.files = halfScripts from rfl, found]
  have packed : walk.exclude? halfProject "./gone" =
      .error (.setup .excluded "./gone" (.notFound "./gone" ⟨"/"⟩)) := by
    rw [exclude?, if_neg (by decide), Project.resolve, show walk.files = halfScripts from rfl, found]
    rfl
  have result : (walk.next halfProject).1 = some (.error halfReference) := by decide +kernel
  have failed : walk.next halfProject = (some (.error halfReference), after) := Prod.ext result rfl
  obtain ⟨onPack, onKeepOut, onNext⟩ := run_start_failed halfProject halfScripts []
  obtain ⟨emitted, -, -, location, rest, waiting, -, gone, -⟩ := onNext _ _ failed
  obtain ⟨rfl, rfl⟩ := List.cons.inj (show [(⟨"/a.js"⟩ : Path)] = location :: rest from waiting)
  exact ⟨unpacked, packed, failed, (onPack _ _ unpacked).2, (onKeepOut _ _ packed).2.2,
    by decide +kernel, emitted, fun later => (gone later).1⟩

end Walk

end ScriptBundle
