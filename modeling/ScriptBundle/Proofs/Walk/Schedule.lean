import ScriptBundle.Proofs.Walk.Entries

/-! # What walks schedule

Whatever a walk puts into its queue is the entry script, a file that a search found, or the manifest
that goes with one. So what holds of these holds of everything that is ever scheduled, whatever a
walk is asked for and whatever its compilers write.

* **`Walk.SchedulesOnly`** — the invariant, for given locations and over given files;
* **`Walk.SchedulesOnly.run`** — a run keeps it, if what is found over these files is among the
  locations and compilers leave such files. -/

namespace ScriptBundle

namespace Walk

variable {P : Project} {files : Workspace → Prop} {only : Path → Prop} {walk : Walk}
  {p referrer : Path}

/-- **A `walk` that schedules only some locations**, over some files. -/
structure SchedulesOnly (files : Workspace → Prop) (only : Path → Prop) (walk : Walk) : Prop where
  /-- The files are such files. -/
  among : files walk.files
  /-- Whatever was scheduled is such a location. -/
  listed : ∀ p ∈ walk.scheduled, only p

namespace SchedulesOnly

/-- In front of the entry script a walk schedules `only` paths of its kind. -/
theorem start (P : Project) {w : Workspace} (among : files w) (entry : only P.entry) :
    SchedulesOnly files only (Walk.start P w) := by
  refine ⟨among, fun p hp => ?_⟩
  rw [show (Walk.start P w).scheduled = [P.entry] from rfl, List.mem_singleton] at hp
  exact hp ▸ entry

/-- To put a path of the kind into the queue leaves a walk that schedules `only` these. -/
theorem enqueue (h : SchedulesOnly files only walk) (listed : only p) :
    SchedulesOnly files only (walk.enqueue p) := by
  unfold Walk.enqueue
  split
  · exact h
  · refine ⟨h.among, fun q hq => ?_⟩
    rcases List.mem_append.mp hq with old | new
    · exact h.listed q old
    · exact List.mem_singleton.mp new ▸ listed

section Found

variable (found : ∀ w specifier folder p, files w → P.resolve w specifier folder = .ok (.file p) →
  ∀ q ∈ P.withManifest w p, only q)

include found

/-- A file that is found enters the queue with its manifest. -/
theorem enqueueWithManifest (h : SchedulesOnly files only walk) {specifier : String} {folder : Path}
    (resolved : P.resolve walk.files specifier folder = .ok (.file p)) :
    SchedulesOnly files only (walk.enqueueWithManifest P p) := by
  have listed := found walk.files specifier folder p h.among resolved
  unfold Walk.enqueueWithManifest
  split
  · rename_i manifest goes
    have first := h.enqueue (listed p Project.mem_withManifest_self)
    exact first.enqueue (listed manifest (List.mem_cons_of_mem _ (Option.mem_toList.mpr goes)))
  · exact h.enqueue (listed p Project.mem_withManifest_self)

/-- To meet a file that a specifier means leaves a walk that schedules `only` paths of the kind. -/
theorem meet (h : SchedulesOnly files only walk) {specifier : String} {folder : Path}
    (resolved : P.resolve walk.files specifier folder = .ok (.file p)) :
    SchedulesOnly files only (Walk.meet P referrer walk p) := by
  have drawn : SchedulesOnly files only { walk with
      graph := walk.graph.addDependency (P.identityOf referrer) (P.identityOf p) } := ⟨h.1, h.2⟩
  unfold Walk.meet
  split
  · exact drawn
  · exact drawn.enqueueWithManifest found resolved

/-- References lead to what is found. -/
theorem linkAll (h : SchedulesOnly files only walk) (referrer : Path) (segments : List Segment) :
    SchedulesOnly files only (Walk.linkAll P referrer walk segments).2 := by
  refine linkAll_keeps_of_met (fun _ _ h => ⟨h.1, h.2⟩) ?_ segments h
  intro walk location specifier h treated
  exact h.meet found (Project.resolve_of_treatment_target P _ _ _ treated).1

variable (left : ∀ w p, files w → files (P.registry.compile w p).2)

include left

/-- **A `location` that is processed** leads to what is found, whatever its compiler writes and
whether or not it becomes a module. -/
theorem process (h : SchedulesOnly files only walk) (location : Path) :
    SchedulesOnly files only (Walk.process P walk location).2 := by
  have behind : ∀ result after, P.registry.compile walk.files location = (result, after) →
      files after := by
    intro result after compiled
    have such := left walk.files location h.among
    rwa [compiled] at such
  have known : ∀ after, files after → SchedulesOnly files only (walk.known P after location) :=
    fun after such => ⟨such, h.listed⟩
  rcases process_cases P walk location with
    ⟨cause, after, compiled, e⟩ |
      ⟨source, between, compiled, ⟨cause, after, linked, e⟩ | ⟨text, after, linked, e⟩⟩
  · rw [e]
    exact ⟨behind _ _ compiled, h.listed⟩
  · rw [e]
    have links := (known between (behind _ _ compiled)).linkAll found location
      (P.segmentsOf location source)
    rwa [linked] at links
  · rw [e]
    have links := (known between (behind _ _ compiled)).linkAll found location
      (P.segmentsOf location source)
    rw [linked] at links
    exact ⟨links.among, links.listed⟩

/-- **The next module** leads to what is found. -/
theorem next (h : SchedulesOnly files only walk) : SchedulesOnly files only (walk.next P).2 := by
  cases waiting : walk.queue.dropWhile walk.passesOver with
  | nil =>
      rw [next_nil waiting]
      exact ⟨h.1, h.2⟩
  | cons location rest =>
      have shorter : SchedulesOnly files only { walk with queue := rest } := ⟨h.1, h.2⟩
      rw [next_cons waiting]
      exact shorter.process found left location

/-- **A command** leads to what is found. -/
theorem perform (h : SchedulesOnly files only walk) (command : Command) :
    SchedulesOnly files only (walk.perform P command) := by
  cases command with
  | pack specifier =>
      rw [Walk.perform]
      split
      · rename_i done
        rcases include?_cases done with
          ⟨_, -, -, rfl⟩ | ⟨location, resolved, ⟨-, -, rfl⟩ | ⟨-, -, rfl⟩⟩
        · exact h
        · exact h
        · exact h.enqueueWithManifest found resolved
      · exact h
  | keepOut specifier =>
      rw [Walk.perform]
      split
      · rename_i done
        obtain ⟨exclusions, rfl⟩ := exclude?_frame done
        exact ⟨h.1, h.2⟩
      · exact h
  | next => exact h.next found left

/-- **A run** leads to what is found. -/
theorem run (h : SchedulesOnly files only walk) (commands : List Command) :
    SchedulesOnly files only (walk.run P commands) := by
  induction commands generalizing walk with
  | nil => exact h
  | cons command rest ih => exact ih (h.perform found left command)

end Found

end SchedulesOnly

end Walk

end ScriptBundle
