import Mathlib.Data.List.Nodup
import ScriptBundle.Proofs.Path.Discovery
import ScriptBundle.Proofs.Walk.Step

/-! # The queue of a walk

A walk can be asked to pack a specifier, to keep one out, or to make its next module, in any order
and whether or not it was able to do what it was asked before. Through all of that every location
enters the queue at most once and leaves it at most once:

* **`Walk.Command`, `Walk.perform`, `Walk.run`** — what a walk can be asked for, and the walk behind
  it;
* **`Walk.taken`, `Walk.takenAlong`** — the locations that leave the queue on the way to the next
  module, and along a run;
* **`Walk.Orderly`** — the invariant: what was ever scheduled is what was taken and, behind it, what
  waits, and nothing occurs in it twice;
* **`Walk.run_start_once`** — what follows for every run. -/

namespace ScriptBundle

namespace Walk

variable {P : Project} {walk after : Walk} {location p : Path} {gone : List Path}

/-! ## Commands -/

/-- **What a walk can be asked for.** -/
inductive Command
  /-- A specifier is to be packed. -/
  | pack (specifier : String)
  /-- A specifier is to be kept out. -/
  | keepOut (specifier : String)
  /-- The next module is to be made. -/
  | next
deriving DecidableEq, Repr

/-- **The `walk` behind a command**, whether or not it was able to do what it was asked. -/
def perform (P : Project) (walk : Walk) : Command → Walk
  | .pack specifier =>
    match walk.include? P specifier with
    | .ok (_, after) => after
    | .error _ => walk
  | .keepOut specifier =>
    match walk.exclude? P specifier with
    | .ok after => after
    | .error _ => walk
  | .next => (walk.next P).2

/-- **The `walk` behind some commands.** -/
def run (P : Project) (walk : Walk) (commands : List Command) : Walk :=
  commands.foldl (perform P) walk

/-- **The locations that leave the `queue`** on the way to the next module: those that are passed
over, and the first that is not. -/
def taken (walk : Walk) : List Path :=
  walk.queue.takeWhile walk.passesOver ++ (walk.queue.dropWhile walk.passesOver).take 1

/-- The locations that leave the queue by a command. -/
def takenBy (walk : Walk) : Command → List Path
  | .next => walk.taken
  | _ => []

/-- The module that comes out of a command. -/
def recordBy (P : Project) (walk : Walk) : Command → List ModuleRecord
  | .next =>
    match (walk.next P).1 with
    | some (.ok record) => [record]
    | _ => []
  | _ => []

/-- **The locations that leave the queue along a run**, in that order. -/
def takenAlong (P : Project) : Walk → List Command → List Path
  | _, [] => []
  | walk, command :: rest => walk.takenBy command ++ takenAlong P (walk.perform P command) rest

/-- **The modules that come out of a run**, in that order. -/
def recordsAlong (P : Project) : Walk → List Command → List ModuleRecord
  | _, [] => []
  | walk, command :: rest =>
    walk.recordBy P command ++ recordsAlong P (walk.perform P command) rest

/-! ## The invariant -/

/-- **The order of a `queue`**, behind the locations that left it. -/
structure Orderly (gone : List Path) (walk : Walk) : Prop where
  /-- What was scheduled left the queue or waits, in this order. -/
  scheduled_eq : walk.scheduled = gone ++ walk.queue
  /-- Nothing was scheduled twice. -/
  nodup : (walk.scheduled.map Path.parts).Nodup
  /-- What became a module left the queue, in this order. -/
  emitted_sublist : walk.emitted.Sublist gone

/-- A location that was scheduled before is not scheduled again. -/
theorem enqueue_of_hasScheduled (h : walk.hasScheduled p = true) : walk.enqueue p = walk := by
  simp [enqueue, h]

/-- **A location that is new** is put behind all that wait. -/
theorem enqueue_of_new (emitted : walk.hasEmitted p = false)
    (scheduled : walk.hasScheduled p = false) :
    walk.enqueue p =
      { walk with queue := walk.queue ++ [p], scheduled := walk.scheduled ++ [p] } := by
  simp [enqueue, emitted, scheduled]

/-- An entry into the queue keeps its order. -/
theorem Orderly.enqueue (h : Orderly gone walk) (p : Path) : Orderly gone (walk.enqueue p) := by
  by_cases known : walk.hasEmitted p = true ∨ walk.hasScheduled p = true
  · rcases known with known | known
    · rwa [enqueue_of_hasEmitted known]
    · rwa [enqueue_of_hasScheduled known]
  · obtain ⟨emitted, scheduled⟩ := not_or.mp known
    rw [enqueue_of_new (by simpa using emitted) (by simpa using scheduled)]
    -- `isAmong` compares parts, which is what the schedule must not repeat
    have fresh : p.parts ∉ walk.scheduled.map Path.parts := fun hp =>
      scheduled (Path.isAmong_iff.mpr hp)
    refine ⟨by simp [h.scheduled_eq], ?_, h.emitted_sublist⟩
    rw [List.map_append, List.map_singleton, ← List.concat_eq_append]
    exact h.nodup.concat fresh

/-- To schedule a location and its manifest leaves a walk `Orderly`. -/
theorem Orderly.enqueueWithManifest (h : Orderly gone walk) (p : Path) :
    Orderly gone (walk.enqueueWithManifest P p) :=
  enqueueWithManifest_keeps (fun _ _ h => h.enqueue _) p h

/-- References keep the order of the queue. -/
theorem Orderly.linkAll (h : Orderly gone walk) (referrer : Path) (segments : List Segment) :
    Orderly gone (linkAll P referrer walk segments).2 :=
  linkAll_keeps (fun _ _ h => ⟨h.1, h.2, h.3⟩) (fun _ _ h => ⟨h.1, h.2, h.3⟩)
    (fun _ _ h => h.enqueue _) segments h

/-- The order of the queue does not depend on the files and the graph. -/
theorem Orderly.known (h : Orderly gone walk) (files : Workspace) (location : Path) :
    Orderly gone (walk.known P files location) := ⟨h.1, h.2, h.3⟩

/-- **The order of the queue behind a `location` that left it**: while it is processed it neither
waits nor is it a module. -/
theorem Orderly.process (h : Orderly (gone ++ [location]) walk)
    (earlier : walk.emitted.Sublist gone) :
    Orderly (gone ++ [location]) (process P walk location).2 := by
  rcases process_cases P walk location with
    ⟨cause, files, -, e⟩ | ⟨source, files, -, ⟨cause, after, linked, e⟩ | ⟨text, after, linked, e⟩⟩
  · rw [e]
    exact ⟨h.1, h.2, h.3⟩
  · rw [e]
    have := (h.known (P := P) files location).linkAll (P := P) location
      (P.segmentsOf location source)
    rwa [linked] at this
  · rw [e]
    have order := (h.known (P := P) files location).linkAll (P := P) location
      (P.segmentsOf location source)
    have frame := (linkAll_frame P location (walk.known P files location)
      (P.segmentsOf location source)).2.2
    rw [linked] at order frame
    refine ⟨order.1, order.2, ?_⟩
    -- the location is not a module before its references are followed, so it comes last in both
    -- lists
    show (after.emitted ++ [location]).Sublist (gone ++ [location])
    rw [show after.emitted = walk.emitted from frame]
    exact earlier.append_right [location]

/-- The `queue` is what leaves it and what stays. -/
theorem taken_append_drop (walk : Walk) :
    walk.taken ++ (walk.queue.dropWhile walk.passesOver).drop 1 = walk.queue := by
  rw [taken, List.append_assoc, List.take_append_drop, List.takeWhile_append_dropWhile]

/-- What is taken ends in the `location` that is not passed over. -/
theorem taken_cons {rest : List Path}
    (waiting : walk.queue.dropWhile walk.passesOver = location :: rest) :
    walk.taken = walk.queue.takeWhile walk.passesOver ++ [location] := by
  simp [taken, waiting]

/-- The order of the `queue` once a location has left it. -/
theorem Orderly.dequeue (h : Orderly gone walk) {rest : List Path}
    (waiting : walk.queue.dropWhile walk.passesOver = location :: rest) :
    Orderly (gone ++ walk.taken) { walk with queue := rest } := by
  have whole := taken_append_drop walk
  rw [waiting, List.drop_one, List.tail_cons] at whole
  refine ⟨?_, h.nodup, h.emitted_sublist.trans (List.sublist_append_left ..)⟩
  rw [List.append_assoc, whole]
  exact h.scheduled_eq

/-- **The next module keeps the order of the queue.** -/
theorem Orderly.next (h : Orderly gone walk) :
    Orderly (gone ++ walk.taken) (walk.next P).2 := by
  -- what is passed over leaves the queue with the location that is processed, or alone
  cases waiting : walk.queue.dropWhile walk.passesOver with
  | nil =>
      have whole := taken_append_drop walk
      rw [next_nil waiting]
      rw [waiting, List.drop_nil, List.append_nil] at whole
      refine ⟨?_, h.nodup, h.emitted_sublist.trans (List.sublist_append_left ..)⟩
      simp [h.scheduled_eq, whole]
  | cons location rest =>
      have left := h.dequeue waiting
      rw [next_cons waiting]
      rw [taken_cons waiting, ← List.append_assoc] at left ⊢
      exact left.process (h.emitted_sublist.trans (List.sublist_append_left ..))

/-- Packing a `specifier` keeps the order of the queue. -/
theorem Orderly.include? (h : Orderly gone walk) {specifier : String} {notice : Option Notice}
    (done : walk.include? P specifier = .ok (notice, after)) : Orderly gone after := by
  rcases include?_cases done with ⟨_, -, -, rfl⟩ | ⟨location, -, ⟨-, -, rfl⟩ | ⟨-, -, rfl⟩⟩
  · exact h
  · exact h
  · exact h.enqueueWithManifest location

/-- **A command keeps the order of the queue.** -/
theorem Orderly.perform (h : Orderly gone walk) (command : Command) :
    Orderly (gone ++ walk.takenBy command) (walk.perform P command) := by
  cases command with
  | pack specifier =>
      rw [Walk.perform, show walk.takenBy (.pack specifier) = [] from rfl, List.append_nil]
      split
      · rename_i done
        exact h.include? done
      · exact h
  | keepOut specifier =>
      rw [Walk.perform, show walk.takenBy (.keepOut specifier) = [] from rfl, List.append_nil]
      split
      · rename_i done
        obtain ⟨exclusions, rfl⟩ := exclude?_frame done
        exact ⟨h.1, h.2, h.3⟩
      · exact h
  | next => exact h.next

/-- **A run keeps the order of the queue.** -/
theorem Orderly.run (h : Orderly gone walk) (commands : List Command) :
    Orderly (gone ++ takenAlong P walk commands) (walk.run P commands) := by
  -- on the commands, one more of them at the front: what it takes goes behind what was gone
  induction commands generalizing gone walk with
  | nil => simpa [takenAlong, Walk.run] using h
  | cons command rest ih =>
      rw [takenAlong, ← List.append_assoc]
      exact ih (h.perform command)

/-- The queue of a new walk is in order. -/
theorem orderly_start (P : Project) (w : Workspace) : Orderly [] (start P w) := by
  have empty : Orderly [] ⟨w, [], [], [], .none, [], .empty⟩ :=
    ⟨rfl, List.nodup_nil, List.Sublist.refl _⟩
  exact empty.enqueue P.entry

/-! ## What only grows -/

/-- A `location` that is made a module comes last among the modules. -/
theorem emitted_process_ok {record : ModuleRecord}
    (h : process P walk location = (.ok record, after)) :
    record.location = location ∧ after.emitted = walk.emitted ++ [location] := by
  rcases process_cases P walk location with
    ⟨cause, files, -, e⟩ | ⟨source, files, -, ⟨cause, left, linked, e⟩ | ⟨text, left, linked, e⟩⟩
  · simp [e] at h
  · simp [e] at h
  · have frame := (linkAll_frame P location (walk.known P files location)
      (P.segmentsOf location source)).2.2
    rw [linked] at frame
    rw [e] at h
    obtain ⟨made, rfl⟩ := Prod.mk.inj h
    exact ⟨(congrArg ModuleRecord.location (Except.ok.inj made)).symm,
      congrArg (· ++ [location]) frame⟩

/-- A `location` that fails leaves the modules as they are. -/
theorem emitted_process_error {e : BundleError}
    (h : process P walk location = (.error e, after)) : after.emitted = walk.emitted := by
  rcases process_cases P walk location with
    ⟨cause, files, -, e⟩ | ⟨source, files, -, ⟨cause, left, linked, e⟩ | ⟨text, left, linked, e⟩⟩
  · rw [e] at h
    exact (congrArg Walk.emitted (Prod.mk.inj h).2).symm
  · have frame := (linkAll_frame P location (walk.known P files location)
      (P.segmentsOf location source)).2.2
    rw [e] at h
    rw [linked] at frame
    exact (Prod.mk.inj h).2 ▸ frame
  · simp [e] at h

/-- **A command adds the module that comes out of it**, at the end. -/
theorem emitted_perform (walk : Walk) (command : Command) :
    (walk.perform P command).emitted =
      walk.emitted ++ (walk.recordBy P command).map ModuleRecord.location := by
  -- only `next` makes modules, and only where the location does not fail
  cases command with
  | pack specifier =>
      suffices (walk.perform P (.pack specifier)).emitted = walk.emitted by
        simpa [recordBy] using this
      rw [perform]
      split
      · rename_i done
        rcases include?_cases done with ⟨_, -, -, rfl⟩ | ⟨location, -, ⟨-, -, rfl⟩ | ⟨-, -, rfl⟩⟩
        · rfl
        · rfl
        · exact emitted_enqueueWithManifest ..
      · rfl
  | keepOut specifier =>
      suffices (walk.perform P (.keepOut specifier)).emitted = walk.emitted by
        simpa [recordBy] using this
      rw [perform]
      split
      · rename_i done
        obtain ⟨exclusions, rfl⟩ := exclude?_frame done
        rfl
      · rfl
  | next =>
      rw [perform, recordBy]
      cases waiting : walk.queue.dropWhile walk.passesOver with
      | nil => simp [next_nil waiting]
      | cons location rest =>
          rw [next_cons waiting]
          cases processed : process P { walk with queue := rest } location with
          | mk result after =>
              cases result with
              | error e => simpa using emitted_process_error processed
              | ok record =>
                  obtain ⟨place, grown⟩ := emitted_process_ok processed
                  simpa [place] using grown

/-- **A run adds the modules that come out of it**, in that order. -/
theorem emitted_run (walk : Walk) (commands : List Command) :
    (walk.run P commands).emitted =
      walk.emitted ++ (recordsAlong P walk commands).map ModuleRecord.location := by
  induction commands generalizing walk with
  | nil => simp [run, recordsAlong]
  | cons command rest ih =>
      rw [recordsAlong, List.map_append, ← List.append_assoc, ← emitted_perform]
      exact ih (walk.perform P command)

/-- A run in two parts. -/
theorem run_append (walk : Walk) (commands later : List Command) :
    walk.run P (commands ++ later) = (walk.run P commands).run P later :=
  List.foldl_append ..

/-! ## Every run -/

/-- **Every location is scheduled once, taken once, and becomes a module at most once**, whatever a
new `walk` is asked for and whether or not it was able to do it. The queue holds nothing twice, and
nothing that is a module; what waits and what is a module was scheduled; what was scheduled is what
was taken and, behind it, what waits; the modules only grow at the end; and the modules that come out
of a run have different locations. -/
theorem run_start_once (P : Project) (w : Workspace) (commands later : List Command) :
    let walk := (start P w).run P commands
    let further := (start P w).run P (commands ++ later)
    let gone := takenAlong P (start P w) commands
    (walk.queue.map Path.parts).Nodup ∧
      (∀ p ∈ walk.queue, ∀ q ∈ walk.emitted, p.parts ≠ q.parts) ∧
      (∀ p ∈ walk.queue, p ∈ walk.scheduled) ∧
      (∀ p ∈ walk.emitted, p ∈ walk.scheduled) ∧
      walk.scheduled = gone ++ walk.queue ∧
      (gone.map Path.parts).Nodup ∧
      walk.emitted <+: further.emitted ∧
      walk.emitted = (recordsAlong P (start P w) commands).map ModuleRecord.location ∧
      ((recordsAlong P (start P w) commands).map fun record => record.location.parts).Nodup := by
  intro walk further gone
  -- `Orderly` from the start gives everything but the modules that came out
  have order : Orderly gone walk := (orderly_start P w).run commands
  -- no part of the schedule is repeated, so what is gone and what waits are apart
  have parts := order.nodup
  rw [order.scheduled_eq, List.map_append] at parts
  obtain ⟨taken_once, queued_once, apart⟩ := List.nodup_append.mp parts
  have emitted_eq : walk.emitted =
      (recordsAlong P (start P w) commands).map ModuleRecord.location := by
    simpa using emitted_run (P := P) (start P w) commands
  refine ⟨queued_once, fun p hp q hq e => ?_, fun p hp => ?_, fun p hp => ?_, order.scheduled_eq,
    taken_once, ?_, emitted_eq, ?_⟩
  · exact apart _ (List.mem_map_of_mem (order.emitted_sublist.subset hq)) _
      (List.mem_map_of_mem hp) e.symm
  · exact order.scheduled_eq ▸ List.mem_append_right _ hp
  · exact order.scheduled_eq ▸ List.mem_append_left _ (order.emitted_sublist.subset hp)
  · have grown := emitted_run (P := P) walk later
    rw [show further = walk.run P later from run_append .., grown]
    exact List.prefix_append ..
  · have once := (order.emitted_sublist.map Path.parts).nodup taken_once
    rw [emitted_eq, List.map_map] at once
    exact once

end Walk

end ScriptBundle
