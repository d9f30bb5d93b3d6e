import ScriptBundle.Proofs.Walk.Drain
import ScriptBundle.Proofs.Walk.Exclusion
import ScriptBundle.Proofs.Walk.Views

/-! # Walks that keep out the same

What is kept out of an artifact is kept in two lists, which are only ever asked for what is in them.
So their order does not matter, nor how often they name a thing: two walks whose lists have the same
members give the same modules and the same errors, step after step.

* **`Exclusions.Alike`** — lists with the same members;
* **`Project.treatment_alike`** — a reference is treated in the same way;
* **`Walk.keepingOut`** — a walk with other lists, and `Walk.next_keepingOut`, a step of it;
* **`ChunkStream.all_keepingOut`** — all chunks of a stream, and what was packed. -/

namespace ScriptBundle

/-- **Exclusions that keep out the same**, in any order and however often. -/
structure Exclusions.Alike (x y : Exclusions) : Prop where
  /-- The same names. -/
  names : ∀ name, name ∈ x.names ↔ name ∈ y.names
  /-- The same files. -/
  files : ∀ parts, parts ∈ x.files ↔ parts ∈ y.files

variable {P : Project} {w : Workspace} {x y : Exclusions} {walk : Walk} {referrer location p : Path}
  {specifier : String}

namespace Exclusions

/-- Exclusions that are `Alike` keep out the same names. -/
theorem Alike.holdsName_eq (h : x.Alike y) (specifier : String) :
    y.holdsName specifier = x.holdsName specifier := by
  rw [Bool.eq_iff_iff, holdsName_iff, holdsName_iff]
  exact exists_congr fun name => and_congr_left' (h.names name).symm

/-- Exclusions that are `Alike` keep out the same files. -/
theorem Alike.holdsFile_eq (h : x.Alike y) (p : Path) : y.holdsFile p = x.holdsFile p := by
  rw [Bool.eq_iff_iff, holdsFile, holdsFile, List.contains_iff_mem, List.contains_iff_mem]
  exact (h.files p.parts).symm

end Exclusions

/-- **A reference is treated in the same way** where the same is kept out. -/
theorem Project.treatment_alike (h : x.Alike y) :
    P.treatment w y referrer specifier = P.treatment w x referrer specifier := by
  simp only [treatment, h.holdsName_eq, h.holdsFile_eq]

namespace Walk

/-- **The `walk` with other exclusions.** -/
def keepingOut (walk : Walk) (y : Exclusions) : Walk := { walk with exclusions := y }

/-- **The references of a script** where the same is kept out. -/
theorem linkAll_keepingOut (h : walk.exclusions.Alike y) (segments : List Segment) :
    linkAll P referrer (walk.keepingOut y) segments =
      ((linkAll P referrer walk segments).1, (linkAll P referrer walk segments).2.keepingOut y) := by
  have kept := (linkAll_frame P referrer walk segments).1
  have linked : linkAll P referrer (walk.among walk.files y) segments = _ :=
    linkAll_among (fun _ _ => Project.treatment_alike h) fun _ _ => rfl
  refine linked.trans (congrArg (Prod.mk _) ?_)
  rw [keepingOut, among, ← kept]

/-- **A `location`** where the same is kept out. -/
theorem process_keepingOut (h : walk.exclusions.Alike y) (location : Path) :
    process P (walk.keepingOut y) location =
      ((process P walk location).1, (process P walk location).2.keepingOut y) := by
  cases compiled : P.registry.compile walk.files location with
  | mk result files =>
      have compiled' : P.registry.compile (walk.keepingOut y).files location = (result, files) :=
        compiled
      cases result with
      | error cause =>
          rw [process_of_compile_error compiled, process_of_compile_error compiled']
          rfl
      | ok source =>
          have kept : (walk.known P files location).exclusions.Alike y := h
          have known : (walk.keepingOut y).known P files location =
              (walk.known P files location).keepingOut y := rfl
          rw [process_of_compile_ok compiled, process_of_compile_ok compiled', known,
            linkAll_keepingOut kept]
          rcases linkAll P location (walk.known P files location) (P.segmentsOf location source)
            with ⟨e | text, after⟩ <;> rfl

/-- **A step** where the same is kept out. -/
theorem next_keepingOut (h : walk.exclusions.Alike y) :
    next P (walk.keepingOut y) = ((next P walk).1, (next P walk).2.keepingOut y) := by
  have passes : (walk.keepingOut y).passesOver = walk.passesOver :=
    funext fun p => congrArg (walk.hasEmitted p || ·) (h.holdsFile_eq p)
  cases waiting : walk.queue.dropWhile walk.passesOver with
  | nil =>
      have waiting' : (walk.keepingOut y).queue.dropWhile (walk.keepingOut y).passesOver = [] := by
        rw [passes]
        exact waiting
      rw [next_nil waiting, next_nil waiting']
      rfl
  | cons location rest =>
      have waiting' : (walk.keepingOut y).queue.dropWhile (walk.keepingOut y).passesOver =
          location :: rest := by
        rw [passes]
        exact waiting
      let left : Walk := { walk with queue := rest }
      have kept : left.exclusions.Alike y := h
      rw [next_cons waiting, next_cons waiting']
      exact congrArg (fun made => (some made.1, made.2)) (process_keepingOut (P := P) kept location)

end Walk

namespace ChunkStream

variable {s : ChunkStream}

/-- **The stream with other exclusions.** -/
def keepingOut (s : ChunkStream) (y : Exclusions) : ChunkStream :=
  { s with walk := s.walk.keepingOut y }

/-- A pull keeps out nothing more. -/
theorem exclusions_next (P : Project) (s : ChunkStream) :
    (s.next P).2.walk.exclusions = s.walk.exclusions := by
  cases phase : s.phase with
  | header => rw [next_header phase]
  | modules =>
      have kept := Walk.exclusions_next (P := P) s.walk
      cases e : s.walk.next P with
      | mk made behind =>
          rw [e] at kept
          rcases made with _ | cause | record
          · rwa [next_footer phase e]
          · rwa [next_failure phase e]
          · rwa [next_module phase e]
  | done => rw [next_done phase]

/-- **A pull** where the same is kept out. -/
theorem next_keepingOut (h : s.walk.exclusions.Alike y) :
    (s.keepingOut y).next P = ((s.next P).1, (s.next P).2.keepingOut y) :=
  next_mapWalk (f := (Walk.keepingOut · y)) fun _ => Walk.next_keepingOut h

/-- **All chunks of a stream** where the same is kept out. -/
theorem all_keepingOut (limit : Nat) (h : s.walk.exclusions.Alike y) :
    (s.keepingOut y).all P limit =
      (s.all P limit).map fun made => (made.1, made.2.keepingOut y) := by
  induction limit generalizing s with
  | zero => rfl
  | succ limit ih =>
      have kept := exclusions_next P s
      rw [all, all, next_keepingOut h]
      generalize s.next P = pulled at kept ⊢
      obtain ⟨e | _ | chunk, after⟩ := pulled
      · rfl
      · rfl
      · dsimp only at kept ⊢
        rw [ih (kept.symm ▸ h), Option.map_map, Option.map_map]
        rfl

end ChunkStream

end ScriptBundle
