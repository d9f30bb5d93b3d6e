import ScriptBundle.Proofs.Bundle.Order
import ScriptBundle.Proofs.Walk.Closure

/-! # What a bundle gathers

A bundle starts from its entry script and what the options add, so the closed sets that hold these
hold all that it schedules.

* **`Bundle.exists_setup_of_resolve`** — a setup with other included specifiers, which succeeds if
  all of them mean something;
* **`Bundle.steady_of_setup`, `Bundle.gathers_of_setup`** — the walk a bundle starts from;
* **`Bundle.Ends`, `Bundle.ends_of_drains`** — what holds where the walk of a bundle comes to its
  end without a failure. -/

namespace ScriptBundle

open Project (Complete IsMade)
open Walk (Consistent Drains Fresh Gathers Steady Within)

variable {P : Project} {w : Workspace} {x : Exclusions} {walk final : Walk} {entry : Path}
  {options : Options} {specifiers included : List String} {steps : List (ModuleRecord × Walk)}
  {p q : Path} {specifier : String}

/-! ## Included specifiers -/

/-- A `specifier` can be packed exactly if it means something. -/
theorem Walk.include?_isOk_iff :
    (∃ notice after, walk.include? P specifier = .ok (notice, after)) ↔
      ∃ location, P.resolve walk.files specifier P.base = .ok location := by
  unfold Walk.include?
  cases resolved : P.resolve walk.files specifier P.base with
  | error cause => simp
  | ok location =>
      cases location with
      | host name => simp
      | file path =>
          cases excluded : walk.exclusions.holdsFile path with
          | true => simp [excluded]
          | false => simp [excluded]

namespace Bundle

/-- **Specifiers can be packed** exactly if each of them means something. -/
theorem includeAll_isOk_iff :
    (∃ notices after, includeAll P walk specifiers = (notices, .ok after)) ↔
      ∀ specifier ∈ specifiers, ∃ location, P.resolve walk.files specifier P.base = .ok location := by
  -- on the specifiers; each is resolved over the files of the first walk
  induction specifiers generalizing walk with
  | nil => simp [includeAll]
  | cons first rest ih =>
      rw [List.forall_mem_cons, ← Walk.include?_isOk_iff, includeAll]
      cases done : walk.include? P first with
      | error cause => simp
      | ok packed =>
          obtain ⟨notice, between⟩ := packed
          obtain ⟨files, -⟩ := Walk.include?_frame done
          have later : (∃ notices after, includeAll P between rest = (notices, .ok after)) ↔ _ := ih
          rw [files] at later
          rw [← later]
          constructor
          · rintro ⟨notices, after, made⟩
            obtain ⟨-, made⟩ := Prod.mk.inj made
            exact ⟨⟨notice, between, rfl⟩, _, after, Prod.ext rfl made⟩
          · rintro ⟨-, notices, after, made⟩
            exact ⟨notice.toList ++ notices, after, by simp [made]⟩

/-- What the included specifiers of a `setup` mean is decided. -/
theorem resolve_of_setup (made : (setup w entry options).2 = .ok (P, walk)) :
    ∀ specifier ∈ options.included, ∃ location, P.resolve w specifier P.base = .ok location := by
  obtain ⟨-, between, notices, -, -, -, excluded, packed⟩ := setup_ok made
  obtain ⟨fresh, -⟩ := fresh_excludeAll (Walk.fresh_start P w) excluded
  have all := includeAll_isOk_iff.mp ⟨notices, walk, packed⟩
  rwa [fresh.files_eq] at all

/-- **A `setup` with other included specifiers** gives the same project, with the same kept out, if
all of them mean something. -/
theorem exists_setup_of_resolve (made : (setup w entry options).2 = .ok (P, walk))
    (all : ∀ specifier ∈ included, ∃ location, P.resolve w specifier P.base = .ok location) :
    ∃ other, (setup w entry { options with included }).2 = .ok (P, other) ∧
      other.exclusions = walk.exclusions := by
  obtain ⟨registry, between, notices, rooted, registered, whole, excluded, packed⟩ := setup_ok made
  obtain ⟨fresh, -⟩ := fresh_excludeAll (Walk.fresh_start P w) excluded
  obtain ⟨-, kept, -⟩ := fresh_includeAll fresh packed
  obtain ⟨later, other, repacked⟩ :
      ∃ notices after, includeAll P between included = (notices, .ok after) := by
    refine includeAll_isOk_iff.mpr ?_
    rw [fresh.files_eq]
    exact all
  obtain ⟨-, kept_other, -⟩ := fresh_includeAll fresh repacked
  refine ⟨other, ?_, kept_other.trans kept.symm⟩
  have same : (⟨P.entry, registry, registry.resolutionExtensions, options.policy⟩ : Project) = P :=
    whole.symm
  rw [setup, rooted]
  dsimp only
  rw [registered]
  dsimp only
  rw [same, excluded]
  dsimp only
  rw [repacked]
  rfl

/-! ## In front of the first module -/

/-- **The `walk` a bundle starts from** is steady. -/
theorem steady_of_setup (made : (setup w entry options).2 = .ok (P, walk)) :
    Steady P w walk.exclusions [] walk := by
  obtain ⟨fresh, scheduled⟩ := setup_spec made
  have within : Within P w walk := by
    refine ⟨fresh.files_eq, fun p hp => ?_⟩
    rcases mem_scheduled_of_setup made hp with rfl | ⟨specifier, -, added⟩
    · exact List.mem_cons_self
    · obtain ⟨location, found, -, beside⟩ := Project.mem_addedBy_iff.mp added
      exact Project.mem_reachable_of_resolve found beside
  -- the entry script is put into an empty queue, and the others behind it
  have first : walk.queue.head? = some P.entry := by
    obtain ⟨rest, whole⟩ : [P.entry] <+: walk.scheduled := by
      rw [scheduled]
      exact Path.prefix_foldl_addNew ..
    rw [fresh.queue_eq, ← whole]
    rfl
  exact ⟨within, rfl, fresh.orderly, .inl first⟩

/-- **The `walk` a bundle starts from** misses no manifest but that of its entry script. -/
theorem gathers_of_setup (made : (setup w entry options).2 = .ok (P, walk))
    (spelled : ∀ e ∈ P.extensions, IsTightExtension e) : Gathers P w walk.exclusions [] walk := by
  have own : Complete P w [P.entry] [P.entry] := by
    refine ⟨List.forall_mem_singleton.mpr (isFile_entry made).1.isTight, fun p hp counts => ?_⟩
    exact absurd hp counts
  refine ⟨?_, by simp⟩
  rw [(setup_spec made).2]
  exact Complete.flatMap_addedBy spelled own

/-- **The `entry` script and what the included specifiers add** is scheduled by a setup. -/
theorem scheduled_of_mem_addedBy (made : (setup w entry options).2 = .ok (P, walk))
    (spelled : ∀ e ∈ P.extensions, IsTightExtension e)
    (seed : p = P.entry ∨ ∃ specifier ∈ options.included, p ∈ P.addedBy w walk.exclusions specifier) :
    p ∈ walk.scheduled := by
  have complete := (gathers_of_setup made spelled).complete
  have listed : p ∈ P.entry :: options.included.flatMap (P.addedBy w walk.exclusions) :=
    List.mem_cons.mpr (seed.imp_right List.mem_flatMap.mpr)
  have known : p.isAmong walk.scheduled = true := by
    rw [(setup_spec made).2]
    exact Path.isAmong_foldl_addNew listed
  refine complete.mem_of_isAmong ?_ known
  -- what a search returns is tight, and so is its manifest
  rcases seed with rfl | ⟨specifier, -, added⟩
  · exact (isFile_entry made).1.isTight
  · obtain ⟨location, found, -, beside⟩ := Project.mem_addedBy_iff.mp added
    exact Project.isTight_of_mem_withManifest (isTight_of_resolve spelled found) beside

/-- The `compilers` of a bundle leave the files as they are, if those of its options do. -/
theorem leavesFiles_of_setup (made : (setup w entry options).2 = .ok (P, walk))
    (leaves : ∀ compiler ∈ options.compilers, compiler.LeavesFiles) :
    P.registry.Holds fun _ compiler => compiler.LeavesFiles :=
  (holds_of_setup made Compiler.leavesFiles_document fun compiler h _ _ => leaves compiler h).1

/-- Where the `compilers` of the options leave the files, so does a location that is compiled. -/
theorem files_compile_of_setup (made : (setup w entry options).2 = .ok (P, walk))
    (leaves : ∀ compiler ∈ options.compilers, compiler.LeavesFiles) :
    ∀ p, (P.registry.compile w p).2 = w :=
  Registry.files_compile (leavesFiles_of_setup made leaves) w

/-! ## At the end -/

/-- **The end of a bundle without a failure**: what was `scheduled` is a closed set of locations that
can be made modules, and the modules are those of them that are not kept out. -/
structure Ends (P : Project) (w : Workspace) (x : Exclusions) (steps : List (ModuleRecord × Walk))
    (final : Walk) : Prop where
  /-- Each module is made of its location. -/
  made : ∀ step ∈ steps, IsMade P w x step
  /-- The modules are those of the steps, and the graph has what they call. -/
  consistent : Consistent P steps final
  /-- What was scheduled and is not kept out is a module. -/
  mem_emitted : ∀ p ∈ final.scheduled, x.holdsFile p = false → p ∈ final.emitted
  /-- What is a module was scheduled, and is not kept out. -/
  scheduled : ∀ p ∈ final.emitted, p ∈ final.scheduled ∧ x.holdsFile p = false
  /-- No module is made twice. -/
  nodup : final.emitted.Nodup
  /-- What was scheduled and is not kept out can be made a module. -/
  packable : ∀ p ∈ final.scheduled, x.holdsFile p = false → P.Packable w x p
  /-- What was scheduled is closed. -/
  closed : ∀ p ∈ final.scheduled, ∀ q ∈ P.broughtPast w x p, q ∈ final.scheduled
  /-- What is noted are the references without a target, module by module. -/
  unresolved_eq : final.unresolved = steps.flatMap P.unresolvedIn

/-- **A bundle whose `walk` comes to its end without a failure** has gathered a closed set. -/
theorem ends_of_drains (made : (setup w entry options).2 = .ok (P, walk))
    (leaves : ∀ p, (P.registry.compile w p).2 = w) (spelled : ∀ e ∈ P.extensions, IsTightExtension e)
    (drained : Drains P walk steps none final) : Ends P w walk.exclusions steps final := by
  have steady := steady_of_setup made
  have is_made := steady.isMade leaves drained
  have gathers := (gathers_of_setup made spelled).drains leaves spelled steady drained
  obtain ⟨gone, last⟩ := steady.drains leaves drained
  obtain ⟨consistent, all⟩ :=
    ((setup_spec made).1.consistent (P := P) (isAbsolute_of_setup made)).drains drained
  rw [List.nil_append] at gathers consistent
  have tight := gathers.complete.tight
  have gone_scheduled : gone ⊆ final.scheduled := by
    rw [last.orderly.scheduled_eq]
    exact List.subset_append_left ..
  have mem_emitted : ∀ p ∈ final.scheduled, walk.exclusions.holdsFile p = false →
      p ∈ final.emitted := by
    intro p hp kept
    have emitted : p.isAmong final.emitted = true := by
      refine (all p hp).resolve_right ?_
      rw [last.exclusions_eq, kept]
      exact Bool.false_ne_true
    obtain ⟨q, hq, same⟩ := List.mem_map.mp (Path.isAmong_iff.mp emitted)
    have scheduled := gone_scheduled (last.orderly.emitted_sublist.subset hq)
    exact (tight q scheduled).eq_of_parts_eq (tight p hp) same ▸ hq
  have stepped : ∀ p ∈ final.emitted, ∃ step ∈ steps, step.1.location = p := by
    intro p hp
    rw [consistent.emitted_eq] at hp
    exact List.mem_map.mp hp
  refine ⟨is_made, consistent, mem_emitted, fun p hp => ?_, ?_, fun p hp kept => ?_,
    fun p hp q hq => ?_, ?_⟩
  · obtain ⟨step, hstep, rfl⟩ := stepped p hp
    exact ⟨gone_scheduled (last.orderly.emitted_sublist.subset hp), (is_made step hstep).kept⟩
  · have parts := last.orderly.nodup
    rw [last.orderly.scheduled_eq, List.map_append] at parts
    exact last.orderly.emitted_sublist.nodup (List.nodup_append.mp parts).1.of_map
  · obtain ⟨step, hstep, rfl⟩ := stepped p (mem_emitted p hp kept)
    exact drained.packable steady.orderly is_made hstep
  · cases excluded : walk.exclusions.holdsFile p with
    | true =>
        rw [Project.broughtPast, if_pos excluded] at hq
        exact absurd hq List.not_mem_nil
    | false =>
        obtain ⟨step, hstep, rfl⟩ := stepped p (mem_emitted p hp excluded)
        exact gathers.brought step hstep q hq
  · rw [(drained.leaves steady.orderly).2, (setup_spec made).1.unresolved_eq, List.nil_append]

end Bundle

end ScriptBundle
