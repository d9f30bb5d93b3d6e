import ScriptBundle.Bundle
import ScriptBundle.Proofs.Resolution.Found
import ScriptBundle.Proofs.Walk.Entries

/-! # Setups

The walk in front of the first module of a bundle. No module has been made, nothing is in the graph,
and what waits is the entry script and, behind it, what the options add:

* **`Bundle.setup_ok`** — the stages of a setup that succeeds;
* **`Walk.Fresh`** — a walk in front of its first module;
* **`Project.addedBy`, `Bundle.setup_spec`** — what an included specifier adds, and the walk a bundle
  starts from. -/

namespace ScriptBundle

/-- **What an included `specifier` adds**: the file it means, if that is not kept out, and the manifest
that goes with it. -/
def Project.addedBy (P : Project) (w : Workspace) (x : Exclusions) (specifier : String) :
    List Path :=
  match P.resolve w specifier P.base with
  | .ok (.file location) =>
    if x.holdsFile location then [] else P.withManifest w location
  | _ => []

/-- A `specifier` adds what goes with the file it means. -/
theorem Project.mem_addedBy_iff {P : Project} {w : Workspace} {x : Exclusions} {specifier : String}
    {p : Path} : p ∈ P.addedBy w x specifier ↔ ∃ location,
      P.resolve w specifier P.base = .ok (.file location) ∧ x.holdsFile location = false ∧
        p ∈ P.withManifest w location := by
  unfold Project.addedBy
  split
  · rename_i location resolved
    cases excluded : x.holdsFile location with
    | true => simp [resolved, excluded]
    | false => simp [resolved, excluded]
  · rename_i nothing
    refine iff_of_false List.not_mem_nil ?_
    rintro ⟨location, resolved, -⟩
    exact nothing location resolved

namespace Walk

variable {P : Project} {w : Workspace} {walk after : Walk} {specifier : String}
  {specifiers : List String} {p : Path}

/-- **A `walk` in front of its first module.** -/
structure Fresh (w : Workspace) (walk : Walk) : Prop where
  /-- The files are those it started with. -/
  files_eq : walk.files = w
  /-- No location has left the queue. -/
  orderly : Orderly [] walk
  /-- Nothing is in the graph. -/
  graph_eq : walk.graph = .empty
  /-- Nothing is noted. -/
  unresolved_eq : walk.unresolved = []

/-- The walk in front of an entry script is `Fresh`. -/
theorem fresh_start (P : Project) (w : Workspace) : Fresh w (start P w) :=
  ⟨rfl, orderly_start P w, rfl, rfl⟩

/-- A `Fresh` walk has made no module. -/
theorem Fresh.emitted_eq (h : Fresh w walk) : walk.emitted = [] :=
  List.sublist_nil.mp h.orderly.emitted_sublist

/-- In a `Fresh` walk all that was scheduled still waits. -/
theorem Fresh.queue_eq (h : Fresh w walk) : walk.queue = walk.scheduled :=
  h.orderly.scheduled_eq.symm

/-- Keeping a `specifier` out leaves a fresh walk fresh, and its schedule as it is. -/
theorem Fresh.exclude? (h : Fresh w walk) (done : walk.exclude? P specifier = .ok after) :
    Fresh w after ∧ after.scheduled = walk.scheduled := by
  obtain ⟨exclusions, rfl⟩ := exclude?_frame done
  exact ⟨⟨h.1, ⟨h.2.1, h.2.2, h.2.3⟩, h.3, h.4⟩, rfl⟩

/-- Packing a `specifier` schedules what the specifier adds. -/
theorem Fresh.include? (h : Fresh w walk) {notice : Option Notice}
    (done : walk.include? P specifier = .ok (notice, after)) :
    Fresh w after ∧ after.exclusions = walk.exclusions ∧
      after.scheduled =
        (P.addedBy w walk.exclusions specifier).foldl Path.addNew walk.scheduled := by
  have orderly := h.orderly.include? done
  rcases include?_cases done with
    ⟨_, resolved, -, rfl⟩ | ⟨location, resolved, ⟨excluded, -, rfl⟩ | ⟨packed, -, rfl⟩⟩ <;>
    rw [h.files_eq] at resolved
  · exact ⟨h, rfl, by simp [Project.addedBy, resolved]⟩
  · exact ⟨h, rfl, by simp [Project.addedBy, resolved, excluded]⟩
  · refine ⟨⟨?_, orderly, ?_, ?_⟩, ?_, ?_⟩
    · simp [h.files_eq]
    · simp [h.graph_eq]
    · simp [h.unresolved_eq]
    · simp
    · rw [h.orderly.scheduled_enqueueWithManifest, h.files_eq]
      simp [Project.addedBy, resolved, packed]

end Walk

namespace Bundle

open Walk (Fresh)

variable {P : Project} {w : Workspace} {walk after : Walk} {specifiers : List String}
  {notices : List Notice} {entry : Path} {options : Options}

/-- To keep files out leaves a walk `Fresh`, and schedules nothing. -/
theorem fresh_excludeAll (h : Fresh w walk) (done : excludeAll P walk specifiers = .ok after) :
    Fresh w after ∧ after.scheduled = walk.scheduled := by
  induction specifiers generalizing walk with
  | nil =>
      obtain rfl := Except.ok.inj done
      exact ⟨h, rfl⟩
  | cons specifier rest ih =>
      rw [excludeAll] at done
      split at done
      · rename_i kept
        obtain ⟨fresh, same⟩ := h.exclude? kept
        obtain ⟨fresh, later⟩ := ih fresh done
        exact ⟨fresh, later.trans same⟩
      · simp at done

/-- **The schedule behind some included `specifiers`.** -/
theorem fresh_includeAll (h : Fresh w walk)
    (done : includeAll P walk specifiers = (notices, .ok after)) :
    Fresh w after ∧ after.exclusions = walk.exclusions ∧
      after.scheduled =
        (specifiers.flatMap (P.addedBy w walk.exclusions)).foldl Path.addNew walk.scheduled := by
  -- on the specifiers; exclusions are fixed by now, so each adds what it would add at the start
  induction specifiers generalizing walk notices with
  | nil =>
      obtain ⟨-, made⟩ := Prod.mk.inj done
      obtain rfl := Except.ok.inj made
      exact ⟨h, rfl, rfl⟩
  | cons specifier rest ih =>
      rw [includeAll] at done
      split at done
      · simp at done
      · rename_i notice between included
        obtain ⟨fresh, kept, first⟩ := h.include? included
        obtain ⟨-, later⟩ := Prod.mk.inj done
        obtain ⟨fresh, same, scheduled⟩ := ih fresh (Prod.ext rfl later)
        refine ⟨fresh, same.trans kept, ?_⟩
        rw [scheduled, kept, first, List.flatMap_cons, List.foldl_append]

/-- **The stages of a `setup` that succeeds.** -/
theorem setup_ok (h : (setup w entry options).2 = .ok (P, walk)) :
    ∃ registry between notices, entryOf w entry = .ok P.entry ∧
      registerAll .initial options.compilers = .ok registry ∧
      P = ⟨P.entry, registry, registry.resolutionExtensions, options.policy⟩ ∧
      excludeAll P (.start P w) options.excluded = .ok between ∧
      includeAll P between options.included = (notices, .ok walk) := by
  -- a setup fails with the first of its stages that fails
  unfold setup at h
  split at h
  · simp at h
  · rename_i path rooted
    split at h
    · simp at h
    · rename_i registry registered
      dsimp only at h
      split at h
      · simp at h
      · rename_i between excluded
        generalize included : includeAll _ between options.included = result at h
        obtain ⟨notices, _ | packed⟩ := result
        · simp [Except.map] at h
        · obtain ⟨rfl, rfl⟩ := Prod.mk.inj (Except.ok.inj h)
          exact ⟨registry, between, notices, rooted, registered, rfl, excluded, included⟩

/-- **A `setup` that excludes some specifiers** and includes none. -/
theorem setup_of_excludeAll {registry : Registry} {path : Path} {compilers : List Compiler}
    {policy : Policy} (rooted : entryOf w entry = .ok path)
    (registered : registerAll .initial compilers = .ok registry)
    (excluded : excludeAll ⟨path, registry, registry.resolutionExtensions, policy⟩
      (.start ⟨path, registry, registry.resolutionExtensions, policy⟩ w) specifiers = .ok walk) :
    (setup w entry ⟨[], specifiers, compilers, policy⟩).2 =
      .ok (⟨path, registry, registry.resolutionExtensions, policy⟩, walk) := by
  rw [setup, rooted]
  dsimp only
  rw [registered]
  dsimp only
  rw [excluded]
  rfl

/-- **A setup without overrides** starts from the `entry` script alone. -/
theorem setup_of_registerAll {registry : Registry} {path : Path} {compilers : List Compiler}
    {policy : Policy} (rooted : entryOf w entry = .ok path)
    (registered : registerAll .initial compilers = .ok registry) :
    let P : Project := ⟨path, registry, registry.resolutionExtensions, policy⟩
    (setup w entry ⟨[], [], compilers, policy⟩).2 = .ok (P, .start P w) :=
  setup_of_excludeAll rooted registered rfl

/-- The `entry` script of a setup that succeeds is a regular file under a normal path. -/
theorem isFile_entry (h : (setup w entry options).2 = .ok (P, walk)) :
    P.entry.IsNormal ∧ w.isFile P.entry = true := by
  obtain ⟨-, -, -, rooted, -⟩ := setup_ok h
  unfold entryOf at rooted
  split at rooted
  · simp at rooted
  · rename_i path absolute
    split at rooted
    · rename_i file
      rw [← Except.ok.inj rooted]
      exact ⟨isNormal_of_absolute absolute, file⟩
    · simp at rooted

/-- **The `walk` a bundle starts from**: fresh, and scheduled are the entry script and what the included
specifiers add. -/
theorem setup_spec (h : (setup w entry options).2 = .ok (P, walk)) :
    Fresh w walk ∧ walk.scheduled =
      Path.distinct (P.entry :: options.included.flatMap (P.addedBy w walk.exclusions)) := by
  obtain ⟨-, between, notices, -, -, -, excluded, included⟩ := setup_ok h
  obtain ⟨fresh, same⟩ := fresh_excludeAll (Walk.fresh_start P w) excluded
  obtain ⟨fresh, kept, scheduled⟩ := fresh_includeAll fresh included
  refine ⟨fresh, ?_⟩
  rw [scheduled, same, kept]
  rfl

/-- What a `setup` scheduled is the entry script, or what an included specifier adds. -/
theorem mem_scheduled_of_setup {p : Path} (made : (setup w entry options).2 = .ok (P, walk))
    (hp : p ∈ walk.scheduled) :
    p = P.entry ∨ ∃ specifier ∈ options.included, p ∈ P.addedBy w walk.exclusions specifier := by
  rw [(setup_spec made).2] at hp
  have listed := (Path.mem_of_mem_foldl_addNew hp).resolve_left List.not_mem_nil
  exact (List.mem_cons.mp listed).imp_right List.mem_flatMap.mp

end Bundle

end ScriptBundle
