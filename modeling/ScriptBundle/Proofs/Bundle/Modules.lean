import ScriptBundle.Proofs.Bundle.Closure
import ScriptBundle.Proofs.Bundle.Exclusion
import ScriptBundle.Proofs.Bundle.Integrity
import ScriptBundle.Proofs.Path.Identity

/-! # The modules of a bundle

What is known of the modules of a bundle once its walk has come to its end: each is made of another
file, under the identity of that file, and whatever a module was made to call is among them. Where no
extension spells a step up the files are spelled as reduced paths, and then the identities are
different as well:

* **`Bundle.consistent_of_drains`** — the invariant of the walk at its end;
* **`Bundle.identity_of_mem`, `Bundle.isReduced_of_mem`** — the file of a module;
* **`Bundle.nodup_locations`, `Bundle.nodup_identities`** — no file becomes a module twice, and no
  identity is used twice;
* **`Bundle.exists_made_of_target`** — the module a reference is replaced by. -/

namespace ScriptBundle

open Walk (Consistent Drains Fresh SchedulesOnly)

namespace Bundle

variable {P : Project} {w : Workspace} {walk final : Walk} {steps : List (ModuleRecord × Walk)}
  {step : ModuleRecord × Walk} {entry : Path} {options : Options}

/-- **The `walk` of a bundle at its end**: it is consistent with its steps, and whatever was scheduled is
a module or is kept out. -/
theorem consistent_of_drains (made : (setup w entry options).2 = .ok (P, walk))
    (drained : Drains P walk steps none final) :
    Consistent P steps final ∧ ∀ p ∈ final.scheduled,
      p.isAmong final.emitted = true ∨ final.exclusions.holdsFile p = true := by
  have start := (setup_spec made).1.consistent (P := P) (isAbsolute_of_setup made)
  exact start.drains drained

/-- A module is made of a `location` that was scheduled. -/
theorem location_mem_scheduled (made : (setup w entry options).2 = .ok (P, walk))
    (drained : Drains P walk steps none final) (h : step ∈ steps) :
    step.1.location ∈ final.scheduled := by
  obtain ⟨consistent, -⟩ := consistent_of_drains made drained
  obtain ⟨gone, order, -⟩ := consistent.accounted
  have emitted : step.1.location ∈ final.emitted := by
    rw [consistent.emitted_eq]
    exact List.mem_map_of_mem h
  exact order.scheduled_eq ▸ List.mem_append_left _ (order.emitted_sublist.subset emitted)

/-- **A module has an absolute path**, and the `identity` of that path. -/
theorem identity_of_mem (made : (setup w entry options).2 = .ok (P, walk))
    (drained : Drains P walk steps none final) (h : step ∈ steps) :
    step.1.location.isAbsolute = true ∧ step.1.identity = P.identityOf step.1.location := by
  obtain ⟨consistent, -⟩ := consistent_of_drains made drained
  exact ⟨consistent.absolute _ (location_mem_scheduled made drained h), consistent.identity_eq step h⟩

/-- **No file becomes a module twice.** -/
theorem nodup_locations (made : (setup w entry options).2 = .ok (P, walk))
    (drained : Drains P walk steps none final) : (steps.map (·.1.location.parts)).Nodup := by
  obtain ⟨consistent, -⟩ := consistent_of_drains made drained
  obtain ⟨gone, order, -⟩ := consistent.accounted
  have sub : (final.emitted.map Path.parts).Sublist (final.scheduled.map Path.parts) := by
    refine List.Sublist.map _ (order.emitted_sublist.trans ?_)
    rw [order.scheduled_eq]
    exact List.sublist_append_left ..
  have once := sub.nodup order.nodup
  rw [consistent.emitted_eq, List.map_map] at once
  exact once

/-- What waits in front of the first module is reduced, unless an extension spells a step up. -/
theorem isReduced_of_setup (made : (setup w entry options).2 = .ok (P, walk))
    (level : ∀ e ∈ P.extensions, IsLevelExtension e) : ∀ p ∈ walk.scheduled, p.IsReduced := by
  intro p hp
  rcases mem_scheduled_of_setup made hp with rfl | ⟨specifier, -, added⟩
  · exact (isFile_entry made).1.isReduced
  · obtain ⟨location, resolved, -, beside⟩ := Project.mem_addedBy_iff.mp added
    exact Project.isReduced_of_mem_withManifest (isReduced_of_resolve level resolved) beside

/-- **A module is made of a reduced path**, unless an extension spells a step up. -/
theorem isReduced_of_mem (made : (setup w entry options).2 = .ok (P, walk))
    (level : ∀ e ∈ P.extensions, IsLevelExtension e) (drained : Drains P walk steps none final)
    (h : step ∈ steps) : step.1.location.IsReduced := by
  have next : ∀ before, SchedulesOnly (fun _ => True) Path.IsReduced before →
      SchedulesOnly (fun _ => True) Path.IsReduced (before.next P).2 := by
    intro before such
    refine such.next ?_ fun _ _ _ => trivial
    intro files specifier folder p _ resolved q hq
    exact Project.isReduced_of_mem_withManifest (isReduced_of_resolve level resolved) hq
  obtain ⟨last, -⟩ := drained.keeps next ⟨trivial, isReduced_of_setup made level⟩
  exact last.listed _ (location_mem_scheduled made drained h)

/-- **No `identity` is used twice**, unless an extension spells a step up. -/
theorem nodup_identities (made : (setup w entry options).2 = .ok (P, walk))
    (level : ∀ e ∈ P.extensions, IsLevelExtension e) (drained : Drains P walk steps none final) :
    (steps.map (·.1.identity)).Nodup := by
  have normal := (isFile_entry made).1
  -- files with the same identity are the same, and no file becomes a module twice
  refine List.Nodup.map_on ?_ (nodup_locations made drained).of_map
  intro step hstep other hother same
  obtain ⟨rooted, identity⟩ := identity_of_mem made drained hstep
  obtain ⟨rooted', identity'⟩ := identity_of_mem made drained hother
  rw [identity, identity'] at same
  have flat := (isReduced_of_mem made level drained hstep).up_notMem_parts
  have flat' := (isReduced_of_mem made level drained hother).up_notMem_parts
  have parts := Project.parts_eq_of_identityOf_eq normal rooted rooted' flat flat' same
  exact List.inj_on_of_nodup_map (nodup_locations made drained) hstep hother parts

/-- **What a reference is replaced by is a module**: one made of the very file the reference means. -/
theorem exists_made_of_target (made : (setup w entry options).2 = .ok (P, walk))
    (drained : Drains P walk steps none final) (h : step ∈ steps) {p : Path}
    (called : p ∈ P.targetsIn step) :
    ∃ other ∈ steps, other.1.location.parts = p.parts ∧ other.1.identity = P.identityOf p := by
  obtain ⟨consistent, all⟩ := consistent_of_drains made drained
  obtain ⟨rooted, scheduled, kept⟩ := consistent.called step h p called
  obtain ⟨other, hother, same⟩ := consistent.exists_made all scheduled kept
  refine ⟨other, hother, same, ?_⟩
  rw [consistent.identity_eq other hother]
  exact (Project.identityOf_eq_of_parts_eq (isFile_entry made).1 rooted same.symm).symm

end Bundle

end ScriptBundle
