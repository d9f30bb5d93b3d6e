import ScriptBundle.Proofs.Bundle.Setup
import ScriptBundle.Proofs.Walk.Drain
import ScriptBundle.Proofs.Walk.Exclusion

/-! # What a bundle keeps out

A bundle keeps out what its options exclude before it looks at anything else, and nothing more from
then on. So what is kept out is the same in front of every module, and is told by the options:

* **`Options.LeavesOut`, `Options.LeavesOutName`** — the files and the specifiers some options
  exclude;
* **`Bundle.holdsFile_of_setup`, `Bundle.holdsName_of_setup`** — a bundle keeps out just these;
* **`Walk.Drains.exists_next`** — a module of a walk is made behind some of its steps;
  `Drains.holdsFile_location` says that it is not kept out. -/

namespace ScriptBundle

variable {P : Project} {w : Workspace} {walk after final : Walk} {entry p : Path} {options : Options}

/-- **A file is left out by some options**: they exclude a `specifier` that means it, asked from the
folder of the entry script. -/
def Options.LeavesOut (options : Options) (P : Project) (w : Workspace) (p : Path) : Prop :=
  ∃ specifier ∈ options.excluded, ∃ found,
    P.resolve w specifier P.base = .ok (.file found) ∧ found.parts = p.parts

/-- **A `specifier` is left out by name**: it falls under the name of a package that is excluded. -/
def Options.LeavesOutName (options : Options) (specifier : String) : Prop :=
  ∃ name ∈ options.excluded, isHostModule name = false ∧ Specifier.kind name = .bare ∧
    Specifier.IsUnder name specifier

namespace Bundle

/-- Specifiers that are excluded one after the other are kept out by commands. -/
theorem run_of_excludeAll {specifiers : List String}
    (done : excludeAll P walk specifiers = .ok after) :
    walk.run P (specifiers.map .keepOut) = after := by
  induction specifiers generalizing walk with
  | nil => exact Except.ok.inj done
  | cons specifier rest ih =>
      rw [excludeAll] at done
      split at done
      · rename_i between kept
        have first : walk.perform P (.keepOut specifier) = between := by rw [Walk.perform, kept]
        have whole : walk.run P ((specifier :: rest).map .keepOut) =
            (walk.perform P (.keepOut specifier)).run P (rest.map .keepOut) := rfl
        rw [whole, first]
        exact ih done
      · simp at done

/-- Commands that keep out some `specifiers` keep out just these. -/
theorem keepOut_mem_map {specifier : String} {specifiers : List String} :
    .keepOut specifier ∈ specifiers.map Walk.Command.keepOut ↔ specifier ∈ specifiers := by
  simp

/-- **What a bundle keeps out** is what its options exclude. -/
theorem exclusions_of_setup (made : (setup w entry options).2 = .ok (P, walk)) :
    walk.exclusions = P.exclusionsOf w (Walk.keptOut (options.excluded.map .keepOut)) := by
  obtain ⟨-, between, notices, -, -, -, excluded, included⟩ := setup_ok made
  have fresh := (fresh_excludeAll (Walk.fresh_start P w) excluded).1
  have silent : Walk.Command.next ∉ options.excluded.map .keepOut := by simp
  -- what is included keeps out nothing more
  rw [(fresh_includeAll fresh included).2.1, ← run_of_excludeAll excluded,
    (Walk.run_of_next_notMem silent _).2]
  rfl

/-- **The files a bundle keeps out.** -/
theorem holdsFile_of_setup (made : (setup w entry options).2 = .ok (P, walk)) (p : Path) :
    walk.exclusions.holdsFile p = true ↔ options.LeavesOut P w p := by
  rw [exclusions_of_setup made, Walk.holdsFile_exclusionsOf]
  constructor
  · rintro ⟨specifier, found, listed, resolved, same⟩
    exact ⟨specifier, keepOut_mem_map.mp listed, found, resolved, same⟩
  · rintro ⟨specifier, listed, found, resolved, same⟩
    exact ⟨specifier, found, keepOut_mem_map.mpr listed, resolved, same⟩

/-- **The specifiers a bundle keeps out by name.** -/
theorem holdsName_of_setup (made : (setup w entry options).2 = .ok (P, walk)) (specifier : String) :
    walk.exclusions.holdsName specifier = true ↔ options.LeavesOutName specifier := by
  rw [exclusions_of_setup made, Walk.holdsName_exclusionsOf]
  constructor
  · rintro ⟨name, listed, package⟩
    exact ⟨name, keepOut_mem_map.mp listed, package⟩
  · rintro ⟨name, listed, package⟩
    exact ⟨name, keepOut_mem_map.mpr listed, package⟩

end Bundle

/-! ## Along a walk -/

namespace Walk

variable {steps : List (ModuleRecord × Walk)} {failure : Option BundleError} {gone : List Path}
  {step : ModuleRecord × Walk}

/-- **A name that means nothing is kept out** all the same. -/
theorem exclude?_of_nothing {specifier : String} {cause : ResolveError}
    (foreign : isHostModule specifier = false) (bare : Specifier.kind specifier = .bare)
    (nothing : P.resolve walk.files specifier P.base = .error cause) :
    walk.exclude? P specifier = .ok { walk with
      exclusions := ⟨walk.exclusions.names ++ [specifier], walk.exclusions.files⟩ } := by
  simp [exclude?, foreign, bare, nothing]

/-- **A module of a `walk` is made behind some of its steps**, with the same kept out. -/
theorem Drains.exists_next (order : Orderly gone walk) (drained : Drains P walk steps failure final)
    (h : step ∈ steps) :
    ∃ earlier before, Orderly earlier before ∧ before.exclusions = walk.exclusions ∧
      before.next P = (some (.ok step.1), step.2) := by
  -- on the steps, with the queue in order in front of each of them
  induction drained generalizing gone with
  | done => exact absurd h List.not_mem_nil
  | failed => exact absurd h List.not_mem_nil
  | @step walk after _ record _ _ first rest ih =>
      have ordered := order.next (P := P)
      have kept := exclusions_next (P := P) walk
      rw [first] at ordered kept
      rcases List.mem_cons.mp h with rfl | later
      · exact ⟨gone, walk, order, rfl, first⟩
      · obtain ⟨earlier, before, order, same, e⟩ := ih ordered later
        exact ⟨earlier, before, order, same.trans kept, e⟩

/-- A `walk` keeps out the same behind every module. -/
theorem Drains.exclusions_eq (drained : Drains P walk steps failure final) :
    final.exclusions = walk.exclusions ∧ ∀ step ∈ steps, step.2.exclusions = walk.exclusions := by
  have next : ∀ before : Walk, before.exclusions = walk.exclusions →
      (before.next P).2.exclusions = walk.exclusions := fun before same =>
    (exclusions_next before).trans same
  exact drained.keeps next rfl

/-- **No module is made of a file that is kept out.** -/
theorem Drains.holdsFile_location (order : Orderly gone walk)
    (drained : Drains P walk steps failure final) (h : step ∈ steps) :
    walk.exclusions.holdsFile step.1.location = false := by
  obtain ⟨earlier, before, order, same, e⟩ := drained.exists_next order h
  have passed := (makes_of_next order e).passesOver_eq
  exact same ▸ ((Bool.or_eq_false_iff ..).mp passed).2

end Walk

end ScriptBundle
