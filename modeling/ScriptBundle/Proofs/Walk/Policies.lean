import ScriptBundle.Proofs.Walk.Exploration

/-! # Walks under both policies

What is done about a reference without a target is asked for at such a reference alone. So two walks
that differ in nothing but their policy go the same way up to the first reference without a target:
there the strict one fails, and the lenient one notes it and goes on.

* **`Project.under`** — a project under another policy;
* **`Project.unresolvedBy?`, `Project.unresolvedIn`** — what is to be noted about a specifier, and
  about a module;
* **`Walk.stepsAlike`** — one step under both policies;
* **`Walk.Drains.leaves`** — what is made and noted at the end of a walk;
* **`Walk.drains_fail_iff`** — a walk that comes to its end under both policies. -/

namespace ScriptBundle

namespace Project

variable (P : Project) (w : Workspace) (x : Exclusions)

/-- **The project under a `policy`.** -/
def under (policy : Policy) : Project := { P with policy }

/-- The folder of the entry script does not depend on the `policy`. -/
@[simp] theorem base_under (policy : Policy) : (P.under policy).base = P.base := rfl

/-- The identity of a file does not depend on the `policy`. -/
@[simp] theorem identityOf_under (policy : Policy) (location : Path) :
    (P.under policy).identityOf location = P.identityOf location := rfl

/-- What a `specifier` means does not depend on the policy. -/
@[simp] theorem resolve_under (policy : Policy) (specifier : String) (folder : Path) :
    (P.under policy).resolve w specifier folder = P.resolve w specifier folder := rfl

/-- The manifest that goes with a file does not depend on the `policy`. -/
@[simp] theorem manifestOf?_under (policy : Policy) (location : Path) :
    (P.under policy).manifestOf? w location = P.manifestOf? w location := by
  rw [manifestOf?, manifestOf?, identityOf_under]

/-- **What is to be noted about a `specifier`** in a file: it names neither a module of the host nor
what is kept out by name, and the search for it fails. -/
def unresolvedBy? (referrer : Path) (specifier : String) : Option UnresolvedReference :=
  if isHostModule specifier || x.holdsName specifier then none
  else match P.resolve w specifier referrer.folder with
    | .error cause => some ⟨specifier, referrer, cause.message⟩
    | .ok _ => none

/-- **What is to be noted about a module**: one note for each of its references, in the order they
stand in it, that has no target. -/
def unresolvedIn (step : ModuleRecord × Walk) : List UnresolvedReference :=
  (P.specifiersOf step.1.location step.1.compiled).filterMap
    (P.unresolvedBy? step.2.files step.2.exclusions step.1.location)

/-- What is noted for a segment is what `unresolvedBy?` says of its specifier, if it has one. -/
theorem note?_eq (referrer : Path) (segment : Segment) :
    P.note? w x referrer segment = segment.specifier?.bind (P.unresolvedBy? w x referrer) := by
  cases segment with
  | char c => rfl
  | reference text specifier =>
      rw [Segment.specifier?, Option.bind_some, note?, unresolvedBy?, treatment]
      -- both sides ask the same questions; only the failed search is noted
      cases excluded : isHostModule (.ofList specifier) || x.holdsName (.ofList specifier) with
      | true => rfl
      | false =>
          cases resolved : P.resolve w (.ofList specifier) referrer.folder with
          | error cause => rfl
          | ok found =>
              cases found with
              | host name => rfl
              | file target =>
                  cases kept : x.holdsFile target with
                  | true => by_cases rooted : Specifier.kind (.ofList specifier) = .absolute <;>
                      simp [kept, rooted]
                  | false => simp [kept]

/-- The notes about a module, by its specifiers. -/
theorem filterMap_note? (location : Path) (compiled : String) :
    (P.segmentsOf location compiled).filterMap (P.note? w x location) =
      (P.specifiersOf location compiled).filterMap (P.unresolvedBy? w x location) := by
  rw [specifiersOf, List.filterMap_filterMap]
  exact List.filterMap_congr fun segment _ => P.note?_eq w x location segment

end Project

namespace Walk

variable {P : Project} {walk after final : Walk} {gone : List Path} {record : ModuleRecord}
  {steps : List (ModuleRecord × Walk)} {failure : Option BundleError} {location referrer : Path}

/-! ## One step -/

/-- What is scheduled for a location does not depend on the `policy`. -/
theorem enqueueWithManifest_under (P : Project) (policy : Policy) (walk : Walk) (p : Path) :
    walk.enqueueWithManifest (P.under policy) p = walk.enqueueWithManifest P p := by
  rw [enqueueWithManifest, enqueueWithManifest, Project.manifestOf?_under]

/-- What is kept out does not depend on the `policy`. -/
theorem exclude?_under (P : Project) (policy : Policy) (walk : Walk) (specifier : String) :
    walk.exclude? (P.under policy) specifier = walk.exclude? P specifier := by
  rw [exclude?, exclude?, Project.resolve_under, Project.base_under]

/-- What is added does not depend on the `policy`. -/
theorem include?_under (P : Project) (policy : Policy) (walk : Walk) (specifier : String) :
    walk.include? (P.under policy) specifier = walk.include? P specifier := by
  rw [include?, include?, Project.resolve_under, Project.base_under]
  simp only [enqueueWithManifest_under]

/-- The `walk` behind a file that is packed does not depend on the policy. -/
theorem meet_under (policy : Policy) : meet (P.under policy) referrer walk location =
    meet P referrer walk location := by
  rw [meet, meet, Project.identityOf_under, Project.identityOf_under]
  simp only [enqueueWithManifest_under]

/-- **The references of a script under both policies**, from one `walk`. -/
inductive LinksAlike (P : Project) (referrer : Path) (walk : Walk) (segments : List Segment) : Prop
  /-- Nothing is to be noted, and the outcome is the same. -/
  | same (silent : segments.filterMap (P.note? walk.files walk.exclusions referrer) = [])
      (linked : linkAll (P.under .fail) referrer walk segments =
        linkAll (P.under .collect) referrer walk segments)
  /-- The first reference that is to be noted is the one that fails under the strict policy. -/
  | apart (specifier : String) (cause : ResolveError) (after : Walk)
      (later : List UnresolvedReference)
      (noted : segments.filterMap (P.note? walk.files walk.exclusions referrer) =
        ⟨specifier, referrer, cause.message⟩ :: later)
      (fails : linkAll (P.under .fail) referrer walk segments =
        (.error (.unresolvedReference specifier referrer cause), after))

/-- A reference that is not to be noted is followed in the same way under both policies. -/
theorem LinksAlike.reference {between : Walk} {rest : List Segment}
    {text specifier replacement : List Char} (later : LinksAlike P referrer between rest)
    (followed : ∀ policy, follow (P.under policy) referrer walk text specifier =
      (.ok replacement, between))
    (files : between.files = walk.files) (exclusions : between.exclusions = walk.exclusions)
    (silent : P.note? walk.files walk.exclusions referrer (.reference text specifier) = none) :
    LinksAlike P referrer walk (.reference text specifier :: rest) := by
  cases later with
  | same none linked =>
      rw [files, exclusions] at none
      refine .same (by rw [List.filterMap_cons_none silent, none]) ?_
      rw [linkAll, linkAll, followed, followed]
      simp only [linked]
  | apart name cause after later noted fails =>
      rw [files, exclusions] at noted
      refine .apart name cause after later (by rw [List.filterMap_cons_none silent, noted]) ?_
      rw [linkAll, followed]
      simp only [fails]

/-- **References are followed in the same way under both policies**, up to the first without a
target. -/
theorem linksAlike (P : Project) (referrer : Path) (walk : Walk) (segments : List Segment) :
    LinksAlike P referrer walk segments := by
  -- on the segments, for the walk behind each of them
  induction segments generalizing walk with
  | nil => exact .same rfl rfl
  | cons segment rest ih =>
      cases segment with
      | char c =>
          cases ih walk with
          | same none linked => exact .same none (by rw [linkAll, linkAll, linked])
          | apart specifier cause after later noted fails =>
              exact .apart specifier cause after later noted (by rw [linkAll, fails])
      | reference text specifier =>
          cases treated : P.treatment walk.files walk.exclusions referrer (.ofList specifier) with
          | literal =>
              exact (ih walk).reference (fun policy => follow_literal treated) rfl rfl
                (by rw [Project.note?, treated])
          | outside path =>
              exact (ih walk).reference (fun policy => follow_outside treated) rfl rfl
                (by rw [Project.note?, treated])
          | target location =>
              have followed (policy : Policy) :
                  follow (P.under policy) referrer walk text specifier =
                    (.ok (Call.write (P.identityOf location).text).toList,
                      meet P referrer walk location) := by
                rw [follow_target (P := P.under policy) treated, meet_under]
                rfl
              exact (ih (meet P referrer walk location)).reference followed (files_meet ..)
                (exclusions_meet ..) (by rw [Project.note?, treated])
          | missing cause =>
              have note : P.note? walk.files walk.exclusions referrer (.reference text specifier) =
                  some ⟨.ofList specifier, referrer, cause.message⟩ := by
                rw [Project.note?, treated]
              refine .apart (.ofList specifier) cause walk _ (List.filterMap_cons_some note) ?_
              rw [linkAll, follow_missing_fail (P := P.under .fail) treated rfl]

/-- A `location` that compiles, under a policy: only the references ask for it. -/
theorem process_under (policy : Policy) {source : String} {files : Workspace}
    (compiled : P.registry.compile walk.files location = (.ok source, files)) :
    process (P.under policy) walk location =
      match linkAll (P.under policy) location (walk.known P files location)
        (P.segmentsOf location source) with
      | (.error e, after) => (.error e, after)
      | (.ok text, after) =>
        (.ok ⟨location, P.identityOf location, source, String.ofList text⟩,
          { after with emitted := after.emitted ++ [location] }) :=
  process_of_compile_ok (P := P.under policy) compiled

/-- **A `location` that compiles, under both policies.** The lenient policy makes a module of it and
notes what is to be noted; the strict one does the same if that is nothing, and else fails at the
first. -/
theorem process_policies (walk : Walk) {source : String} {files : Workspace}
    (compiled : P.registry.compile walk.files location = (.ok source, files)) :
    ∃ record after, process (P.under .collect) walk location = (.ok record, after) ∧
      (process (P.under .fail) walk location = (.ok record, after) ∧
        after.unresolved = walk.unresolved ∨
      ∃ specifier cause failed later,
        process (P.under .fail) walk location =
          (.error (.unresolvedReference specifier location cause), failed) ∧
        after.unresolved = walk.unresolved ++ ⟨specifier, location, cause.message⟩ :: later) := by
  obtain ⟨record, after, processed, -⟩ := exists_process_ok (P := P.under .collect) rfl compiled
  obtain ⟨source', files', again, -, behind⟩ := process_ok processed
  obtain ⟨rfl, rfl⟩ : source = source' ∧ files = files' := by
    simpa using Prod.mk.inj (compiled.symm.trans again)
  have noted : after.unresolved = walk.unresolved ++
      (P.segmentsOf location source).filterMap (P.note? files walk.exclusions location) := by
    rw [behind]
    rfl
  refine ⟨record, after, processed, ?_⟩
  -- both policies link the same segments, from the same walk
  cases linksAlike P location (walk.known P files location) (P.segmentsOf location source) with
  | same silent linked =>
      have nothing : (P.segmentsOf location source).filterMap
          (P.note? files walk.exclusions location) = [] := silent
      refine .inl ⟨?_, by rw [noted, nothing, List.append_nil]⟩
      rw [← processed, process_under .fail compiled, process_under .collect compiled, linked]
  | apart specifier cause failed later first fails =>
      have first : (P.segmentsOf location source).filterMap
          (P.note? files walk.exclusions location) =
            ⟨specifier, location, cause.message⟩ :: later := first
      refine .inr ⟨specifier, cause, failed, later, ?_, by rw [noted, first]⟩
      rw [process_under .fail compiled, fails]

/-- A step to a `location` that does not compile has nothing to do with references. -/
theorem next_under_of_compile_error (policy : Policy) {rest : List Path} {files : Workspace}
    {cause : CompileError} (waiting : walk.queue.dropWhile walk.passesOver = location :: rest)
    (compiled : P.registry.compile walk.files location = (.error cause, files)) :
    walk.next (P.under policy) =
      (some (.error (.compilation location cause)), { walk with queue := rest, files }) := by
  have failed : process (P.under policy) { walk with queue := rest } location =
      (.error (.compilation location cause), { walk with queue := rest, files }) :=
    process_of_compile_error compiled
  rw [next_cons waiting, failed]

/-- **A step under both policies**, from one `walk`. -/
inductive StepsAlike (P : Project) (walk : Walk) : Prop
  /-- Nothing is noted, and the outcome is the same. -/
  | same (stepped : walk.next (P.under .fail) = walk.next (P.under .collect))
      (silent : (walk.next (P.under .collect)).2.unresolved = walk.unresolved)
  /-- The reference that fails under the strict policy is the first that is noted under the lenient
  one, which makes a module. -/
  | apart (specifier : String) (referrer : Path) (cause : ResolveError) (failed after : Walk)
      (record : ModuleRecord) (later : List UnresolvedReference)
      (fails : walk.next (P.under .fail) =
        (some (.error (.unresolvedReference specifier referrer cause)), failed))
      (goes_on : walk.next (P.under .collect) = (some (.ok record), after))
      (noted : after.unresolved = walk.unresolved ++ ⟨specifier, referrer, cause.message⟩ :: later)

/-- **A step goes the same way under both policies**, unless it comes to a reference without a
target. -/
theorem stepsAlike (P : Project) (walk : Walk) : StepsAlike P walk := by
  cases waiting : walk.queue.dropWhile walk.passesOver with
  | nil => exact .same (by rw [next_nil waiting, next_nil waiting]) (by rw [next_nil waiting])
  | cons location rest =>
      cases compiled : P.registry.compile walk.files location with
      | mk result files =>
          cases result with
          | error cause =>
              have failed (policy : Policy) := next_under_of_compile_error policy waiting compiled
              exact .same (by rw [failed, failed]) (by rw [failed])
          | ok source =>
              obtain ⟨record, after, goes_on, ⟨same, silent⟩ | ⟨specifier, cause, failed, later,
                fails, noted⟩⟩ := process_policies { walk with queue := rest } compiled
              · exact .same (by rw [next_cons waiting, next_cons waiting, same, goes_on])
                  (by rw [next_cons waiting, goes_on, silent])
              · exact .apart specifier location cause failed after record later
                  (by rw [next_cons waiting, fails]) (by rw [next_cons waiting, goes_on]) noted

/-- **Where missing targets are noted, only a compiler lets a step fail.** -/
theorem exists_compilation_of_next {e : BundleError}
    (failed : walk.next (P.under .collect) = (some (.error e), after)) :
    ∃ path cause, e = .compilation path cause := by
  cases waiting : walk.queue.dropWhile walk.passesOver with
  | nil => simp [next_nil waiting] at failed
  | cons location rest =>
      cases compiled : P.registry.compile walk.files location with
      | mk result files =>
          cases result with
          | error cause =>
              rw [next_under_of_compile_error .collect waiting compiled] at failed
              cases failed
              exact ⟨location, cause, rfl⟩
          | ok source =>
              obtain ⟨record, left, goes_on, -⟩ :=
                process_policies { walk with queue := rest } compiled
              rw [next_cons waiting, goes_on] at failed
              simp at failed

/-- **Where missing targets are noted, only a compiler ends a `walk` with a failure.** -/
theorem Drains.exists_compilation {e : BundleError}
    (drained : Drains (P.under .collect) walk steps (some e) final) :
    ∃ path cause, e = .compilation path cause := by
  generalize ended : some e = failure at drained
  induction drained with
  | done => cases ended
  | failed last =>
      cases ended
      exact exists_compilation_of_next last
  | step _ _ ih => exact ih ended

/-! ## Notes -/

/-- What was noted stays, where missing targets are noted. -/
theorem unresolved_prefix_next (P : Project) (walk : Walk) :
    walk.unresolved <+: (walk.next (P.under .collect)).2.unresolved := by
  cases stepsAlike P walk with
  | same _ silent => exact silent ▸ List.prefix_rfl
  | apart _ _ _ _ _ _ _ _ goes_on noted =>
      rw [goes_on, noted]
      exact List.prefix_append ..

/-- **What is there at the end of a `walk`**: made are the modules that were there before and those of
the steps, and noted is what was noted before and, module by module, what is to be noted about
it. -/
theorem Drains.leaves (orderly : Orderly gone walk) (drained : Drains P walk steps none final) :
    final.emitted = walk.emitted ++ steps.map (·.1.location) ∧
      final.unresolved = walk.unresolved ++ steps.flatMap P.unresolvedIn := by
  -- on the steps, with the queue in order in front of each of them
  generalize e : (none : Option BundleError) = failure at drained
  induction drained generalizing gone with
  | done last =>
      obtain rfl := eq_of_next_none last
      simp
  | failed => cases e
  | @step walk after final record steps failure first rest ih =>
      have makes := makes_of_next orderly first
      have ordered := orderly.next (P := P)
      rw [first] at ordered
      obtain ⟨emitted, noted⟩ := ih ordered e
      constructor
      · rw [emitted, makes.emitted_eq, List.map_cons, List.append_assoc]
        rfl
      · rw [noted, makes.unresolved_eq, P.filterMap_note?, List.flatMap_cons, List.append_assoc]
        rfl

/-- **A `walk` comes to its end under the strict policy** exactly if it does under the lenient one
with nothing noted, and then by the same steps. -/
theorem drains_fail_iff :
    Drains (P.under .fail) walk steps none final ↔
      Drains (P.under .collect) walk steps none final ∧ final.unresolved = walk.unresolved := by
  constructor
  · intro drained
    generalize e : (none : Option BundleError) = failure at drained
    induction drained with
    | @done walk after last =>
        cases stepsAlike P walk with
        | same stepped silent =>
            rw [stepped] at last
            rw [last] at silent
            exact ⟨.done last, silent⟩
        | apart _ _ _ _ _ _ _ fails => simp [fails] at last
    | failed => cases e
    | @step walk after _ record _ _ first _ ih =>
        obtain ⟨rest, same⟩ := ih e
        cases stepsAlike P walk with
        | same stepped silent =>
            rw [stepped] at first
            rw [first] at silent
            exact ⟨.step first rest, same.trans silent⟩
        | apart _ _ _ _ _ _ _ fails => simp [fails] at first
  · rintro ⟨drained, same⟩
    generalize e : (none : Option BundleError) = failure at drained
    induction drained with
    | @done walk after last =>
        cases stepsAlike P walk with
        | same stepped => exact .done (stepped.trans last)
        | apart _ _ _ _ _ _ _ _ goes_on => simp [goes_on] at last
    | failed => cases e
    | @step walk after final record _ _ first rest ih =>
        -- a note made now would still be there at the end
        have kept : walk.unresolved <+: after.unresolved := by
          simpa [first] using unresolved_prefix_next P walk
        have later : after.unresolved <+: final.unresolved :=
          have grows (left : Walk) (h : after.unresolved <+: left.unresolved) :
              after.unresolved <+: (left.next (P.under .collect)).2.unresolved :=
            h.trans (unresolved_prefix_next P left)
          (rest.keeps grows List.prefix_rfl).1
        have whole : after.unresolved = walk.unresolved :=
          (later.trans (same ▸ List.prefix_rfl)).eq_of_length_le kept.length_le
        cases stepsAlike P walk with
        | same stepped => exact .step (stepped.trans first) (ih (same.trans whole.symm) e)
        | apart _ _ _ _ _ _ _ _ goes_on noted =>
            obtain ⟨-, rfl⟩ := Prod.mk.inj (goes_on.symm.trans first)
            simp [whole] at noted

end Walk

end ScriptBundle
