import Mathlib.Data.List.Perm.Subperm
import ScriptBundle.Proofs.Compiler.Registered
import ScriptBundle.Proofs.Resolution.Places
import ScriptBundle.Proofs.Walk.Drain
import ScriptBundle.Proofs.Walk.Schedule

/-! # Termination of walks

A step of a walk may put more into the queue than it takes out, so the queue does not measure how
far a walk has come. What does is the number of locations that never entered it: each enters once,
and where compilers leave the files as they are there are only as many as the tree and the
extensions allow, whatever the compilers write.

* **`FileTree.stepBound`** — the bound, a number made from a tree and the extensions;
* **`Walk.outcomesAlong`** — the modules and errors that come out of a run;
* **`Walk.Within`** — the invariant: whatever was scheduled is the entry script or can be found;
* **`Walk.Within.exists_drains`** — a walk comes to its end from wherever it is;
* **`Walk.run_terminates`** — what follows for every run. -/

namespace ScriptBundle

/-- **The bound on the steps of a walk**: what a search may return, the manifests above, and the
entry script. -/
def FileTree.stepBound (tree : FileTree) (extensions : List String) : Nat :=
  (tree.reachable extensions).length + 1

namespace Project

variable {P : Project} {w : Workspace} {folder p q : Path} {specifier : String}

/-- **The `parts` of what a walk may meet**. -/
def reachable (P : Project) (w : Workspace) : List (List Part) :=
  P.entry.parts :: w.tree.reachable P.extensions

/-- There are as many parts to reach as `stepBound` counts. -/
theorem length_reachable (P : Project) (w : Workspace) :
    (P.reachable w).length = w.tree.stepBound P.extensions := rfl

/-- **What is found, and the manifest that goes with it**, is what a walk may meet. -/
theorem mem_reachable_of_resolve (h : P.resolve w specifier folder = .ok (.file p))
    (hq : q ∈ P.withManifest w p) : q.parts ∈ P.reachable w := by
  have listed : p.parts ∈ w.tree.locations P.extensions := mem_locations_of_resolve h
  have rooted : p.isAbsolute = true := (isCandidate_of_resolve h).2.isAbsolute
  rcases List.mem_cons.mp hq with rfl | manifest
  · exact List.mem_cons_of_mem _ (mem_reachable_of_mem_locations listed)
  · have above := manifestAbove?_of_manifestOf? (Option.mem_toList.mp manifest)
    exact List.mem_cons_of_mem _ (mem_reachable_of_manifestAbove? rooted listed above)

end Project

namespace Walk

variable {P : Project} {w : Workspace} {walk after : Walk} {gone : List Path}

/-! ## Outcomes -/

/-- What comes out of a command: a module, or the error of a location that failed. -/
def outcomeBy (P : Project) (walk : Walk) : Command → List (Except BundleError ModuleRecord)
  | .next => (walk.next P).1.toList
  | _ => []

/-- **The modules and errors that come out of a run**, in that order. -/
def outcomesAlong (P : Project) : Walk → List Command → List (Except BundleError ModuleRecord)
  | _, [] => []
  | walk, command :: rest =>
    walk.outcomeBy P command ++ outcomesAlong P (walk.perform P command) rest

/-- Whatever comes out of a command had a location leave the queue. -/
theorem length_outcomeBy_le (walk : Walk) (command : Command) :
    (walk.outcomeBy P command).length ≤ (walk.takenBy command).length := by
  cases command with
  | pack specifier => exact Nat.le_refl _
  | keepOut specifier => exact Nat.le_refl _
  | next =>
      rw [outcomeBy, takenBy]
      cases waiting : walk.queue.dropWhile walk.passesOver with
      | nil => simp [next_nil waiting]
      | cons location rest =>
          rw [next_cons waiting, taken_cons waiting]
          simp

/-- **Whatever comes out of a run** had a location leave the queue. -/
theorem length_outcomesAlong_le (walk : Walk) (commands : List Command) :
    (outcomesAlong P walk commands).length ≤ (takenAlong P walk commands).length := by
  induction commands generalizing walk with
  | nil => exact Nat.le_refl _
  | cons command rest ih =>
      have first := length_outcomeBy_le (P := P) walk command
      have later := ih (walk.perform P command)
      rw [outcomesAlong, takenAlong, List.length_append, List.length_append]
      omega

/-! ## What may be met -/

/-- **A walk among what may be met**, over files that stay as they are. -/
def Within (P : Project) (w : Workspace) : Walk → Prop :=
  SchedulesOnly (· = w) (fun p => p.parts ∈ P.reachable w)

namespace Within

/-- A walk that stays `Within` has the files it started with. -/
theorem files_eq (h : Within P w walk) : walk.files = w := h.among

/-- The walk in front of the entry script is `Within` what can be reached. -/
theorem start (P : Project) (w : Workspace) : Within P w (Walk.start P w) :=
  SchedulesOnly.start P rfl List.mem_cons_self

/-- What is found over these files may be met. -/
theorem found (P : Project) (w files : Workspace) (specifier : String) (folder p : Path)
    (same : files = w) (resolved : P.resolve files specifier folder = .ok (.file p)) :
    ∀ q ∈ P.withManifest files p, q.parts ∈ P.reachable w := by
  subst same
  exact fun q hq => Project.mem_reachable_of_resolve resolved hq

variable (leaves : ∀ p, (P.registry.compile w p).2 = w)

include leaves

/-- The files stay as they are. -/
theorem left (files : Workspace) (p : Path) (same : files = w) :
    (P.registry.compile files p).2 = w := by
  subst same
  exact leaves p

/-- **The next module** leads to what may be met. -/
theorem next (h : Within P w walk) : Within P w (walk.next P).2 :=
  SchedulesOnly.next (found P w) (left leaves) h

/-- **A run** leads to what may be met. -/
theorem run (h : Within P w walk) (commands : List Command) : Within P w (walk.run P commands) :=
  SchedulesOnly.run (found P w) (left leaves) h commands

end Within

/-! ## The bound -/

/-- **No more locations leave the queue than may be met.** -/
theorem Within.length_gone_le (h : Within P w walk) (order : Orderly gone walk) :
    gone.length ≤ w.tree.stepBound P.extensions := by
  have once : (gone.map Path.parts).Nodup := by
    have parts := order.nodup
    rw [order.scheduled_eq, List.map_append] at parts
    exact (List.nodup_append.mp parts).1
  have known : gone.map Path.parts ⊆ P.reachable w := by
    intro parts hparts
    obtain ⟨p, hp, rfl⟩ := List.mem_map.mp hparts
    exact h.listed p (order.scheduled_eq ▸ List.mem_append_left _ hp)
  have few := (once.subperm known).length_le
  rwa [List.length_map, Project.length_reachable] at few

/-- **A `walk` comes to its end** from wherever it is, and no later than the bound allows. -/
theorem Within.exists_drains (leaves : ∀ p, (P.registry.compile w p).2 = w) (h : Within P w walk)
    (order : Orderly gone walk) :
    ∃ steps failure final, Drains P walk steps failure final ∧
      gone.length + steps.length ≤ w.tree.stepBound P.extensions := by
  -- on the number of locations that have not left the queue: each step takes one of them
  generalize measure : w.tree.stepBound P.extensions - gone.length = room
  induction room using Nat.strong_induction_on generalizing walk gone with
  | _ room ih =>
    have few := h.length_gone_le order
    have orderly := order.next (P := P)
    have within := h.next leaves
    rcases e : walk.next P with ⟨_ | cause | record, after⟩
    · exact ⟨[], none, after, .done e, few⟩
    · exact ⟨[], some cause, after, .failed e, few⟩
    · have took : 1 ≤ walk.taken.length := by
        have out := length_outcomeBy_le (P := P) walk .next
        rw [outcomeBy, e] at out
        exact out
      rw [e] at orderly within
      have fewer := within.length_gone_le orderly
      rw [List.length_append] at fewer
      have less : w.tree.stepBound P.extensions - (gone ++ walk.taken).length < room := by
        rw [List.length_append]
        omega
      obtain ⟨steps, failure, final, rest, short⟩ := ih _ less within orderly rfl
      rw [List.length_append] at short
      refine ⟨(record, after) :: steps, failure, final, .step e rest, ?_⟩
      rw [List.length_cons]
      omega

/-- Where no location waits there is no next module. -/
theorem next_of_queue_nil (h : walk.queue = []) : walk.next P = (none, walk) := by
  have nothing : walk.queue.dropWhile walk.passesOver = [] := by rw [h, List.dropWhile_nil]
  rw [next_nil nothing, ← h]

/-- **Behind the last module there is none**, however often it is asked for. -/
theorem run_replicate_of_next_none (h : (walk.next P).1 = none) (n : Nat) :
    ((walk.run P (.replicate n .next)).next P).1 = none := by
  induction n generalizing walk with
  | zero => exact h
  | succ n ih =>
      have empty : (walk.next P).2.queue = [] := queue_of_next_none (Prod.ext h rfl)
      have still : ((walk.next P).2.next P).1 = none := by rw [next_of_queue_nil empty]
      exact ih still

/-- Where there still is a next module, one came out each time it was asked for. -/
theorem length_outcomesAlong_replicate {n : Nat}
    (h : ((walk.run P (.replicate n .next)).next P).1 ≠ none) :
    (outcomesAlong P walk (.replicate (n + 1) .next)).length = n + 1 := by
  have one : ∀ {walk : Walk}, (walk.next P).1 ≠ none → (walk.outcomeBy P .next).length = 1 := by
    intro walk some_next
    rw [outcomeBy]
    cases e : (walk.next P).1 with
    | none => exact absurd e some_next
    | some outcome => rfl
  -- on the number of times; had there been none once, there would be none now
  induction n generalizing walk with
  | zero =>
      have first : (walk.next P).1 ≠ none := h
      simpa [outcomesAlong] using one first
  | succ n ih =>
      have first : (walk.next P).1 ≠ none := fun e => h (run_replicate_of_next_none e (n + 1))
      have later : (outcomesAlong P (walk.next P).2 (.replicate (n + 1) .next)).length = n + 1 :=
        ih h
      rw [List.replicate_succ, outcomesAlong, List.length_append, one first]
      have behind : walk.perform P .next = (walk.next P).2 := rfl
      rw [behind, later]
      omega

/-- **Every `walk` terminates.** Where the compilers leave the files as they are, whatever they write,
there is a bound made from the tree and the extensions alone, and for every run of a new walk: no
more modules and errors come out of it; from the walk behind it all modules are made, or one fails,
within every limit above the bound; and when the next module is asked for as often as the bound
says, there is none, and there stays none. -/
theorem run_terminates (P : Project) (w : Workspace)
    (leaves : ∀ p, (P.registry.compile w p).2 = w) (commands : List Command) :
    let walk := (start P w).run P commands
    let bound := w.tree.stepBound P.extensions
    (outcomesAlong P (start P w) commands).length ≤ bound ∧
      (∀ limit, bound < limit → ∃ result final, all P limit walk = some (result, final)) ∧
      ∀ n, bound ≤ n → ((walk.run P (.replicate n .next)).next P).1 = none := by
  intro walk bound
  have within : Within P w walk := (Within.start P w).run leaves commands
  have order : Orderly (takenAlong P (start P w) commands) walk := (orderly_start P w).run commands
  refine ⟨?_, fun limit above => ?_, fun n enough => ?_⟩
  · exact (length_outcomesAlong_le _ commands).trans (within.length_gone_le order)
  · obtain ⟨steps, failure, final, drained, few⟩ := within.exists_drains leaves order
    have short : steps.length < limit := by omega
    exact ⟨_, final, all_eq_some_iff.mpr ⟨steps, failure, drained, short, rfl⟩⟩
  · by_contra further
    -- one more than the bound would have come out
    have many := length_outcomesAlong_replicate further
    have few := (within.run leaves (.replicate (n + 1) .next)).length_gone_le
      (order.run (.replicate (n + 1) .next))
    have out := length_outcomesAlong_le (P := P) walk (.replicate (n + 1) .next)
    rw [List.length_append] at few
    omega

/-- Two scripts that refer to each other. -/
def scriptsInACircle : Workspace :=
  ⟨⟨[(["a.js"], .text "require('./b')"), (["b.js"], .text "require('./a')")], []⟩, []⟩

/-- The project of the first of them. -/
def scriptsInACircleProject : Project :=
  ⟨⟨"/a.js"⟩, .initial, Registry.initial.resolutionExtensions, .fail⟩

/-- The references of two scripts lead in a circle, and the `walk` over them terminates, behind some
overrides and a first module. -/
theorem run_terminates_scriptsInACircle :
    (∀ p, (scriptsInACircleProject.registry.compile scriptsInACircle p).2 = scriptsInACircle) ∧
      scriptsInACircle.tree.stepBound scriptsInACircleProject.extensions = 54 ∧
      let walk := (start scriptsInACircleProject scriptsInACircle).run scriptsInACircleProject
        [.pack "./b", .next, .keepOut "lodash"]
      (∃ result final, all scriptsInACircleProject 55 walk = some (result, final)) ∧
        ((walk.run scriptsInACircleProject (.replicate 54 .next)).next scriptsInACircleProject).1 =
          none := by
  have leaves : ∀ p,
      (scriptsInACircleProject.registry.compile scriptsInACircle p).2 = scriptsInACircle :=
    Registry.files_compile Registry.leavesFiles_initial scriptsInACircle
  have bound : scriptsInACircle.tree.stepBound scriptsInACircleProject.extensions = 54 := by
    decide +kernel
  obtain ⟨-, all_made, none_left⟩ := run_terminates scriptsInACircleProject scriptsInACircle leaves
    [.pack "./b", .next, .keepOut "lodash"]
  rw [bound] at all_made none_left
  exact ⟨leaves, bound, all_made 55 (by omega), none_left 54 (Nat.le_refl 54)⟩

end Walk

end ScriptBundle
