import ScriptBundle.Proofs.Bundle.Integrity
import ScriptBundle.Proofs.Walk.Policies
import ScriptBundle.Proofs.Walk.Termination

/-! # What a walk gathers

The locations a walk schedules are told without the order in which it meets them: they are in every
set that holds what waits at first and, with each location, what that location brings. A file that
is a module already brings no manifest when it is met again. For every file but the entry script the
manifest came when the file was met first; the entry script comes first of all and without one, so
what a location brings has to be said past the entry script.

* **`Project.broughtPast`** — what a location brings where the entry script came first;
* **`Project.Packable`, `Project.recordOf?`** — a location that can be made a module, and the
  module;
* **`Walk.Steady`** — a walk over files that stay, with its entry script in front;
* **`Walk.Steady.exists_drains`** — a walk stays in every closed set, and ends without a failure if
  all of the set can be made modules;
* **`Walk.Gathers`, `Walk.Gathers.drains`** — what a walk scheduled at its end is a closed set. -/

namespace ScriptBundle

namespace Project

variable (P : Project) (w : Workspace) (x : Exclusions)

/-- **What a `location` brings past the entry script**: the files it refers to, each with the manifest
that goes with it. The entry script brings no manifest to any other location, as it is a module by
then. -/
def broughtPast (location : Path) : List Path :=
  if x.holdsFile location then []
  else match (P.registry.compile w location).1 with
    | .error _ => []
    | .ok compiled => (P.targetsOf w x location compiled).flatMap fun target =>
        if target.parts = P.entry.parts ∧ location.parts ≠ P.entry.parts then []
        else P.withManifest w target

/-- **A `location` that can be made a module**: its compiler gives a text, and unless missing targets
are noted, none of its references is without a target. -/
def Packable (location : Path) : Prop :=
  ∃ compiled, (P.registry.compile w location).1 = .ok compiled ∧
    (P.policy = .fail → ∀ specifier ∈ P.specifiersOf location compiled,
      P.unresolvedBy? w x location specifier = none)

/-- **The module made of a `location`** that compiles. -/
def recordOf? (location : Path) : Option ModuleRecord :=
  match (P.registry.compile w location).1 with
  | .error _ => none
  | .ok compiled => some ⟨location, P.identityOf location, compiled,
      .ofList ((P.segmentsOf location compiled).flatMap (P.linkedText w x location))⟩

/-- **A module made over given files**, with the walk behind it. -/
structure IsMade (step : ModuleRecord × Walk) : Prop where
  /-- The files are those that were given. -/
  files_eq : step.2.files = w
  /-- Kept out is what was given. -/
  exclusions_eq : step.2.exclusions = x
  /-- Its location is not kept out. -/
  kept : x.holdsFile step.1.location = false
  /-- Its compiler gave the text. -/
  compiled_eq : (P.registry.compile w step.1.location).1 = .ok step.1.compiled
  /-- The module is made of its location. -/
  record_eq : P.recordOf? w x step.1.location = some step.1

variable {P w x} {location p q : Path} {compiled : String}

/-- What a `location` brings, once its compiler gave a text: its targets, each with its manifest, but for
the entry script. -/
theorem broughtPast_of_compiled (kept : x.holdsFile location = false)
    (gave : (P.registry.compile w location).1 = .ok compiled) :
    P.broughtPast w x location = (P.targetsOf w x location compiled).flatMap fun target =>
      if target.parts = P.entry.parts ∧ location.parts ≠ P.entry.parts then []
      else P.withManifest w target := by
  rw [broughtPast, if_neg (by simp [kept]), gave]

/-- The record of a `location`, once its compiler gave a text. -/
theorem recordOf?_of_compiled (gave : (P.registry.compile w location).1 = .ok compiled) :
    P.recordOf? w x location = some ⟨location, P.identityOf location, compiled,
      .ofList ((P.segmentsOf location compiled).flatMap (P.linkedText w x location))⟩ := by
  rw [recordOf?, gave]

end Project

namespace Walk

open Project (Complete IsMade)

variable {P : Project} {w : Workspace} {x : Exclusions} {gone : List Path}
  {walk after final : Walk} {record : ModuleRecord} {done steps : List (ModuleRecord × Walk)}
  {failure : Option BundleError} {p q : Path}

/-- What `targets` put into the queue, by those that are no modules. -/
theorem flatMap_entries (walk : Walk) (targets : List Path) :
    targets.flatMap (walk.entries P) =
      (targets.filter fun p => !walk.hasEmitted p).flatMap (P.withManifest walk.files) := by
  induction targets with
  | nil => rfl
  | cons target rest ih =>
      rw [List.flatMap_cons, ih, entries, List.filter_cons]
      cases emitted : walk.hasEmitted target with
      | true => simp
      | false => simp

/-- **What was `scheduled` stays scheduled.** -/
theorem Drains.scheduled_subset (order : Orderly gone walk)
    (drained : Drains P walk steps none final) : walk.scheduled ⊆ final.scheduled := by
  generalize e : (none : Option BundleError) = failure at drained
  induction drained generalizing gone with
  | done last =>
      obtain rfl := eq_of_next_none last
      exact List.Subset.refl _
  | failed => cases e
  | @step walk after _ _ _ _ first rest ih =>
      have makes := makes_of_next order first
      have ordered := order.next (P := P)
      rw [first] at ordered
      have grown : walk.scheduled ⊆ after.scheduled := by
        rw [makes.scheduled_eq]
        exact (Path.prefix_foldl_addNew ..).subset
      exact List.Subset.trans grown (ih ordered e)

/-! ## Closed sets -/

/-- **A `walk` over files that stay as they are**, with its entry script in front or done with. -/
structure Steady (P : Project) (w : Workspace) (x : Exclusions) (gone : List Path) (walk : Walk) :
    Prop where
  /-- The walk is among what can be found. -/
  within : Within P w walk
  /-- Nothing more is kept out. -/
  exclusions_eq : walk.exclusions = x
  /-- The queue is in order. -/
  orderly : Orderly gone walk
  /-- The entry script comes first, or would be passed over. -/
  entry_first : walk.queue.head? = some P.entry ∨ walk.passesOver P.entry = true

namespace Steady

/-- **A `location` that is made a module is the entry script** as long as that would not be passed
over. -/
theorem location_eq_entry (h : Steady P w x gone walk) (makes : Makes P walk record after)
    (waits : walk.passesOver P.entry = false) : record.location = P.entry := by
  have first := h.entry_first.resolve_right (by simp [waits])
  obtain ⟨rest, queue⟩ := List.head?_eq_some_iff.mp first
  have front : walk.queue.takeWhile walk.passesOver = [] := by
    rw [queue, List.takeWhile_cons_of_neg (by simp [waits])]
  have back : walk.queue.dropWhile walk.passesOver = P.entry :: rest := by
    rw [queue, List.dropWhile_cons_of_neg (by simp [waits])]
  have taken := makes.taken_eq
  rw [taken_cons back, front] at taken
  simpa using taken.symm

/-- **What a step schedules** was `scheduled` before, or is brought by the location it makes a module
of. -/
theorem mem_scheduled (h : Steady P w x gone walk) (makes : Makes P walk record after)
    (files : after.files = w) (hp : p ∈ after.scheduled) :
    p ∈ walk.scheduled ∨ p ∈ P.broughtPast w x record.location := by
  have exclusions : after.exclusions = x := makes.exclusions_eq.trans h.exclusions_eq
  rw [makes.scheduled_eq, files, exclusions] at hp
  refine (Path.mem_of_mem_foldl_addNew hp).imp_right fun new => ?_
  obtain ⟨target, called, entered⟩ := List.mem_flatMap.mp new
  have both := (Bool.or_eq_false_iff ..).mp makes.passesOver_eq
  have kept : x.holdsFile record.location = false := h.exclusions_eq ▸ both.2
  have gave : (P.registry.compile w record.location).1 = .ok record.compiled := by
    rw [← h.within.files_eq, makes.compiled_eq]
  rw [Project.broughtPast_of_compiled kept gave]
  refine List.mem_flatMap.mpr ⟨target, called, ?_⟩
  have fresh : walk.hasEmitted target = false := (mem_entries_iff.mp entered).1
  -- the entry script is not met as a file that is no module, but by itself
  have counts : ¬(target.parts = P.entry.parts ∧ record.location.parts ≠ P.entry.parts) := by
    rintro ⟨same, other⟩
    have unexcluded := (Project.resolve_of_mem_targetsOf P w x called).2
    have waits : walk.passesOver P.entry = false := by
      rw [passesOver, hasEmitted, Path.isAmong, Exclusions.holdsFile, ← same, h.exclusions_eq]
      rw [hasEmitted, Path.isAmong] at fresh
      rw [Exclusions.holdsFile] at unexcluded
      rw [fresh, unexcluded]
      rfl
    exact other (congrArg Path.parts (h.location_eq_entry makes waits))
  rw [if_neg counts]
  exact (mem_entries_iff.mp entered).2

variable (leaves : ∀ p, (P.registry.compile w p).2 = w)

include leaves

/-- The files behind a module are those in front of it. -/
theorem files_of_makes (h : Steady P w x gone walk) (makes : Makes P walk record after) :
    after.files = w := by
  have left := leaves record.location
  have compiled := makes.compiled_eq
  rw [h.within.files_eq] at compiled
  rw [compiled] at left
  exact left

/-- **A step that makes a module** leaves a `walk` steady. -/
theorem next (h : Steady P w x gone walk) (e : walk.next P = (some (.ok record), after)) :
    Steady P w x (gone ++ walk.taken) after ∧ IsMade P w x (record, after) := by
  have makes := makes_of_next h.orderly e
  have files := h.files_of_makes leaves makes
  have exclusions : after.exclusions = x := makes.exclusions_eq.trans h.exclusions_eq
  have orderly := h.orderly.next (P := P)
  have within := h.within.next leaves
  rw [e] at orderly within
  have gave : (P.registry.compile w record.location).1 = .ok record.compiled := by
    rw [← h.within.files_eq, makes.compiled_eq]
  have done_with : after.passesOver P.entry = true := by
    cases passed : walk.passesOver P.entry with
    | true =>
        rw [passesOver, makes.exclusions_eq]
        refine (Bool.or_eq_true ..).mpr (((Bool.or_eq_true ..).mp passed).imp_left fun emitted => ?_)
        rw [hasEmitted, makes.emitted_eq]
        exact Path.isAmong_mono (List.subset_append_left ..) emitted
    | false =>
        refine (Bool.or_eq_true ..).mpr (.inl ?_)
        rw [hasEmitted, makes.emitted_eq, ← h.location_eq_entry makes passed]
        exact Path.isAmong_of_mem (List.mem_append_right _ (List.mem_singleton_self _))
  have kept : x.holdsFile record.location = false :=
    h.exclusions_eq ▸ ((Bool.or_eq_false_iff ..).mp makes.passesOver_eq).2
  refine ⟨⟨within, exclusions, orderly, .inr done_with⟩, files, exclusions, kept, gave, ?_⟩
  have linked := makes.linked_eq
  rw [files, exclusions] at linked
  rw [Project.recordOf?_of_compiled gave, ← linked, ← makes.identity_eq]

/-- **A step stays in every closed set** that holds what was `scheduled`. -/
theorem inside_next (h : Steady P w x gone walk) (e : walk.next P = (some (.ok record), after))
    {S : Path → Prop} (listed : ∀ p ∈ walk.scheduled, S p)
    (closed : ∀ p, S p → ∀ q ∈ P.broughtPast w x p, S q) : ∀ p ∈ after.scheduled, S p := by
  intro p hp
  have makes := makes_of_next h.orderly e
  rcases h.mem_scheduled makes (h.files_of_makes leaves makes) hp with old | new
  · exact listed p old
  · exact closed _ (listed _ (makes.location_mem h.orderly)) p new

/-- **Each module of a `walk`** is made of its location, over the same files. -/
theorem isMade (h : Steady P w x gone walk) (drained : Drains P walk steps failure final) :
    ∀ step ∈ steps, IsMade P w x step := by
  induction drained generalizing gone with
  | done => simp
  | failed => simp
  | step first rest ih =>
      obtain ⟨steady, made⟩ := h.next leaves first
      exact List.forall_mem_cons.mpr ⟨made, ih steady⟩

/-- **A `walk` that comes to its end** is steady there. -/
theorem drains (h : Steady P w x gone walk) (drained : Drains P walk steps none final) :
    ∃ gone, Steady P w x gone final := by
  generalize e : (none : Option BundleError) = failure at drained
  induction drained generalizing gone with
  | @done walk after last =>
      have empty := dropWhile_of_next_none last
      have within := h.within.next leaves
      have orderly := h.orderly.next (P := P)
      -- whatever waits is passed over, the entry script too if it waits
      have passed : walk.passesOver P.entry = true := by
        refine h.entry_first.elim (fun first => ?_) id
        exact List.dropWhile_eq_nil_iff.mp empty _ (List.mem_of_head? first)
      rw [last] at within orderly
      obtain rfl := eq_of_next_none last
      exact ⟨_, within, h.exclusions_eq, orderly, .inr passed⟩
  | failed => cases e
  | step first rest ih => exact ih (h.next leaves first).1 e

/-- **A step does not fail** where every location that was `scheduled` can be made a module, unless it
is kept out. -/
theorem next_ne_error (h : Steady P w x gone walk)
    (packable : ∀ p ∈ walk.scheduled, x.holdsFile p = false → P.Packable w x p)
    (e : BundleError) : (walk.next P).1 ≠ some (.error e) := by
  intro failed
  cases waiting : walk.queue.dropWhile walk.passesOver with
  | nil => simp [next_nil waiting] at failed
  | cons location rest =>
      have waits : location ∈ walk.queue :=
        (List.dropWhile_suffix walk.passesOver).subset (waiting ▸ List.mem_cons_self)
      have scheduled : location ∈ walk.scheduled :=
        h.orderly.scheduled_eq ▸ List.mem_append_right _ waits
      have fresh : walk.passesOver location = false := by
        have head : walk.queue.dropWhile walk.passesOver ≠ [] := by simp [waiting]
        simpa [waiting] using List.head_dropWhile_not walk.passesOver head
      have kept : x.holdsFile location = false :=
        h.exclusions_eq ▸ ((Bool.or_eq_false_iff ..).mp fresh).2
      obtain ⟨compiled, gave, found⟩ := packable location scheduled kept
      let left : Walk := { walk with queue := rest }
      have whole : P.registry.compile left.files location = (.ok compiled, w) := by
        rw [show left.files = w from h.within.files_eq]
        exact Prod.ext gave (leaves location)
      have silent : P.policy = .fail → ∀ segment ∈ P.segmentsOf location compiled,
          P.note? w left.exclusions location segment = none := by
        intro strict segment hs
        rw [P.note?_eq, show left.exclusions = x from h.exclusions_eq]
        cases named : segment.specifier? with
        | none => rfl
        | some specifier =>
            exact found strict specifier (List.mem_filterMap.mpr ⟨segment, hs, named⟩)
      obtain ⟨record, after, processed, -⟩ := exists_process_ok_of_found whole silent
      rw [next_cons waiting, processed] at failed
      simp at failed

/-- **A `walk` stays in every closed set** that holds what was scheduled, and if every location of the
set can be made a module, unless it is kept out, it ends without a failure. -/
theorem exists_drains (h : Steady P w x gone walk) {S : Path → Prop}
    (listed : ∀ p ∈ walk.scheduled, S p)
    (packable : ∀ p, S p → x.holdsFile p = false → P.Packable w x p)
    (closed : ∀ p, S p → ∀ q ∈ P.broughtPast w x p, S q) :
    ∃ steps final, Drains P walk steps none final ∧ ∀ p ∈ final.scheduled, S p := by
  obtain ⟨steps, failure, final, drained, -⟩ := h.within.exists_drains leaves h.orderly
  suffices failure = none ∧ ∀ p ∈ final.scheduled, S p by
    obtain ⟨rfl, inside⟩ := this
    exact ⟨steps, final, drained, inside⟩
  -- on the steps: each stays in the set, and none of them fails
  induction drained generalizing gone with
  | done last =>
      obtain rfl := eq_of_next_none last
      exact ⟨rfl, listed⟩
  | failed last =>
      have goes_on := h.next_ne_error leaves fun p hp => packable p (listed p hp)
      exact absurd (congrArg Prod.fst last) (goes_on _)
  | step first rest ih =>
      exact ih (h.next leaves first).1 (h.inside_next leaves first listed closed)

end Steady

/-! ## What was gathered -/

/-- **A `walk` behind some modules** that has scheduled what they bring. -/
structure Gathers (P : Project) (w : Workspace) (x : Exclusions) (done : List (ModuleRecord × Walk))
    (walk : Walk) : Prop where
  /-- No manifest is missing, but that of the entry script may be. -/
  complete : Complete P w [P.entry] walk.scheduled
  /-- What the modules bring was scheduled. -/
  brought : ∀ step ∈ done, ∀ q ∈ P.broughtPast w x step.1.location, q ∈ walk.scheduled

namespace Gathers

variable (leaves : ∀ p, (P.registry.compile w p).2 = w) (spelled : ∀ e ∈ P.extensions, IsTightExtension e)

include leaves spelled

/-- **A step that makes a module** schedules what the module brings. -/
theorem next (h : Gathers P w x done walk) (steady : Steady P w x gone walk)
    (e : walk.next P = (some (.ok record), after)) :
    Gathers P w x (done ++ [(record, after)]) after := by
  have makes := makes_of_next steady.orderly e
  have files := steady.files_of_makes leaves makes
  have exclusions : after.exclusions = x := makes.exclusions_eq.trans steady.exclusions_eq
  obtain ⟨unmade, unexcluded⟩ := (Bool.or_eq_false_iff ..).mp makes.passesOver_eq
  let targets := P.targetsOf w x record.location record.compiled
  have tight : ∀ p ∈ targets, p.IsTight := fun p hp => by
    obtain ⟨⟨specifier, resolved⟩, -⟩ := Project.resolve_of_mem_targetsOf P w x hp
    exact isTight_of_resolve spelled resolved
  have scheduled : after.scheduled =
      ((targets.filter fun p => !walk.hasEmitted p).flatMap (P.withManifest w)).foldl Path.addNew
        walk.scheduled := by
    rw [makes.scheduled_eq, flatMap_entries, files, exclusions]
    rfl
  have complete : Complete P w [P.entry] after.scheduled := by
    rw [scheduled]
    exact h.complete.flatMap fun p hp => tight p (List.mem_filter.mp hp).1
  have grown : walk.scheduled ⊆ after.scheduled := by
    rw [scheduled]
    exact (Path.prefix_foldl_addNew ..).subset
  refine ⟨complete, List.forall_mem_append.mpr ⟨fun step old q hq => ?_, ?_⟩⟩
  · exact grown (h.brought step old q hq)
  rw [List.forall_mem_singleton]
  intro q hq
  have gave : (P.registry.compile w record.location).1 = .ok record.compiled := by
    rw [← steady.within.files_eq, makes.compiled_eq]
  rw [Project.broughtPast_of_compiled (steady.exclusions_eq ▸ unexcluded) gave] at hq
  obtain ⟨target, called, goes⟩ := List.mem_flatMap.mp hq
  split at goes
  · exact absurd goes List.not_mem_nil
  · rename_i counts
    have beside : q.IsTight := Project.isTight_of_mem_withManifest (tight target called) goes
    refine complete.mem_of_isAmong beside ?_
    cases emitted : walk.hasEmitted target with
    | false =>
        rw [scheduled]
        refine Path.isAmong_foldl_addNew (List.mem_flatMap.mpr ⟨target, ?_, goes⟩)
        exact List.mem_filter.mpr ⟨called, by simp [emitted]⟩
    | true =>
        -- a module other than the entry script had its manifest scheduled with it
        have other : target ∉ [P.entry] := by
          intro same
          rw [List.mem_singleton] at same
          have own : record.location.parts = P.entry.parts := by
            by_contra differs
            exact counts ⟨congrArg Path.parts same, differs⟩
          rw [hasEmitted, Path.isAmong, same, ← own] at emitted
          rw [hasEmitted, Path.isAmong] at unmade
          rw [unmade] at emitted
          simp at emitted
        exact Path.isAmong_mono grown (h.complete.isAmong_withManifest (tight target called) other
          (steady.orderly.hasScheduled emitted) goes)

/-- **A `walk` that comes to its end** has scheduled what its modules bring. -/
theorem drains (h : Gathers P w x done walk) (steady : Steady P w x gone walk)
    (drained : Drains P walk steps none final) : Gathers P w x (done ++ steps) final := by
  generalize e : (none : Option BundleError) = failure at drained
  induction drained generalizing done gone with
  | done last =>
      obtain rfl := eq_of_next_none last
      rw [List.append_nil]
      exact ⟨h.complete, h.brought⟩
  | failed => cases e
  | step first rest ih =>
      have later := ih (h.next leaves spelled steady first) (steady.next leaves first).1 e
      rwa [List.append_assoc] at later

end Gathers

/-- **The modules of a `walk` that ends without a failure** could be made modules. -/
theorem Drains.packable (order : Orderly gone walk) (made : ∀ step ∈ steps, IsMade P w x step)
    (drained : Drains P walk steps none final) {step : ModuleRecord × Walk} (hstep : step ∈ steps) :
    P.Packable w x step.1.location := by
  have is_made := made step hstep
  refine ⟨step.1.compiled, is_made.compiled_eq, fun strict specifier named => ?_⟩
  -- under the strict policy a walk without a failure has nothing to note
  have whole : P.under .fail = P := by rw [Project.under, ← strict]
  obtain ⟨lenient, silent⟩ := drains_fail_iff.mp (whole.symm ▸ drained)
  obtain ⟨-, noted⟩ := drained.leaves order
  rw [silent, List.self_eq_append_right, List.flatMap_eq_nil_iff] at noted
  have nothing := noted step hstep
  rw [Project.unresolvedIn, List.filterMap_eq_nil_iff, is_made.files_eq, is_made.exclusions_eq]
    at nothing
  exact nothing specifier named

end Walk

end ScriptBundle
