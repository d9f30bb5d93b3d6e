import ScriptBundle.Proofs.Bundle.Setup
import ScriptBundle.Proofs.Stream.Pulls

/-! # Streams and drains

The modules of a walk are made in one go, or one by one as the chunks of a stream are asked for.
Both ways make the same modules in the same order, fail with the same error at the same place, and
leave the same walk behind:

* **`ChunkStream.item`, `Artifact.items`** — what a pull gives, and all that the pulls of a stream
  give, by the modules and the failure of its walk;
* **`ChunkStream.items_start`** — the pulls of a stream whose walk comes to an end;
* **`ChunkStream.NamesModules`** — the invariant of all pulls: the modules of a stream are those of
  its walk;
* **`ChunkStream.stream_agrees_with_drain`** — what follows for every bundle. -/

namespace ScriptBundle

open Walk (Drains)

/-- A step that makes a module gives it the `identity` of its location. -/
theorem Walk.identity_of_next {P : Project} {walk after : Walk} {record : ModuleRecord}
    (e : walk.next P = (some (.ok record), after)) :
    record.identity = P.identityOf record.location := by
  cases waiting : walk.queue.dropWhile walk.passesOver with
  | nil =>
      rw [next_nil waiting] at e
      simp at e
  | cons location rest =>
      rw [next_cons waiting] at e
      obtain ⟨made, -⟩ := Prod.mk.inj e
      have processed : process P { walk with queue := rest } location =
          (.ok record, (process P { walk with queue := rest } location).2) :=
        Prod.ext (Option.some.inj made) rfl
      obtain ⟨source, files, -, rfl, -⟩ := process_ok processed
      rfl

/-- **The last that comes out of a stream**: the end of the artifact, or a failure in its place. -/
def Artifact.ending : Option BundleError → Except BundleError String
  | none => .ok footer
  | some e => .error e

/-- **What the pulls of a stream give**: the head, a block for each module, and the end. -/
def Artifact.items (artifact : Artifact) (records : List ModuleRecord)
    (failure : Option BundleError) : List (Except BundleError String) :=
  .ok artifact.header :: (records.map (.ok <| ChunkStream.blockOf ·) ++ [ending failure])

/-- **The `output` of a walk that was drained**: the artifact of its modules, and what the walk that
is left tells about them. -/
def Walk.output (P : Project) (final : Walk) (records : List ModuleRecord) : Output :=
  ⟨String.join (P.artifact.header :: (records.map ChunkStream.blockOf ++ [Artifact.footer])),
    ⟨records.map (·.identity), final.unresolved, final.graph.circularGroups,
      final.graph.dependencyCount⟩⟩

namespace ChunkStream

variable {P : Project} {s : ChunkStream} {walk final : Walk} {artifact : Artifact}
  {steps : List (ModuleRecord × Walk)} {failure : Option BundleError} {w : Workspace} {entry : Path}
  {options : Options}

/-- **What a pull gives**: a chunk, an error, or nothing any more. -/
def item : Except BundleError (Option String) → Option (Except BundleError String)
  | .ok none => none
  | .ok (some chunk) => some (.ok chunk)
  | .error e => some (.error e)

/-! ## The pulls of a walk that comes to an end -/

/-- A finished stream gives nothing any more, and keeps its walk. -/
theorem item_pull_of_done (h : s.phase = .done) (k : Nat) :
    item (s.pull P k) = none ∧ s.after P k = s := by
  have same : s.after P k = s := (bytesTo_of_done (j := 0) h (Nat.zero_le k)).1
  refine ⟨?_, same⟩
  rw [pull_of_done (same.symm ▸ h)]
  rfl

/-- The items of a stream are that of its first `pull` and those of the stream behind it. -/
theorem item_pull_cons {result : Except BundleError (Option String)} {after : ChunkStream}
    {first : Except BundleError String} {later : List (Except BundleError String)}
    (e : s.next P = (result, after)) (head : item result = some first)
    (rest : ∀ k, item (after.pull P k) = later[k]?) (k : Nat) :
    item (s.pull P k) = (first :: later)[k]? := by
  cases k with
  | zero =>
      rw [pull, ChunkStream.after, e, head]
      rfl
  | succ k =>
      rw [pull_succ_next, e]
      exact rest k

/-- **The pulls of a stream among its `modules`** give a block for each step of its walk and then its
end, and leave the walk behind the steps. -/
theorem items_modules (h : s.phase = .modules) (drained : Drains P s.walk steps failure final) :
    (∀ k, item (s.pull P k) =
      ((steps.map fun step => .ok (blockOf step.1)) ++ [Artifact.ending failure])[k]?) ∧
      (s.after P (steps.length + 1)).walk = final := by
  -- on the steps of the walk, for the stream at each of them
  generalize e : s.walk = walk at drained
  induction drained generalizing s with
  | done last =>
      have first := next_footer h (e ▸ last)
      refine ⟨item_pull_cons first rfl fun k => (item_pull_of_done rfl k).1, ?_⟩
      rw [List.length_nil, after_succ, after, first]
  | failed last =>
      have first := next_failure h (e ▸ last)
      refine ⟨item_pull_cons first rfl fun k => (item_pull_of_done rfl k).1, ?_⟩
      rw [List.length_nil, after_succ, after, first]
  | @step _ behind _ record _ _ made rest ih =>
      have first := next_module h (e ▸ made)
      obtain ⟨items, left⟩ :=
        ih (s := { s with walk := behind, modules := s.modules ++ [record.identity] }) h rfl
      refine ⟨item_pull_cons first rfl items, ?_⟩
      rw [List.length_cons, after_succ_next, first]
      exact left

/-- **The pulls of a stream whose `walk` comes to an end.** -/
theorem items_start (artifact : Artifact) (drained : Drains P walk steps failure final) :
    (∀ k, item ((start walk artifact).pull P k) =
      (artifact.items (steps.map Prod.fst) failure)[k]?) ∧
      ((start walk artifact).after P (steps.length + 2)).walk = final := by
  -- the head comes first and leaves a stream among its modules
  have head : (start walk artifact).next P =
      (.ok (some artifact.header), { start walk artifact with phase := .modules }) :=
    next_header rfl
  obtain ⟨items, left⟩ := items_modules (s := { start walk artifact with phase := .modules }) rfl
    drained
  refine ⟨fun k => ?_, ?_⟩
  · rw [item_pull_cons head rfl items k, Artifact.items, List.map_map]
    rfl
  · rw [after_succ_next, head]
    exact left

/-- **The outcome of a `bundle` whose walk comes to an end** is the output of its modules, or the
failure that ended it. -/
theorem bundle_outcome (made : (Bundle.setup w entry options).2 = .ok (P, walk))
    (drained : Drains P walk steps failure final) (outcome : Except BundleError Output) :
    (∃ limit, bundle limit w entry options = some outcome) ↔
      outcome = (orFailure (steps.map Prod.fst) failure).map (final.output P) := by
  -- the stream that is left reports the modules of the steps and the walk behind them
  have reported : (orFailure (P.artifact.header ::
      (steps.map (blockOf ·.1) ++ [Artifact.footer])) failure).map (fun chunks =>
        (⟨String.join chunks,
          report ⟨final, P.artifact, .done, steps.map (·.1.identity), []⟩⟩ : Output)) =
      (orFailure (steps.map Prod.fst) failure).map (final.output P) := by
    cases failure <;> simp [orFailure, Except.map, Walk.output, report, Function.comp_def]
  constructor
  · rintro ⟨limit, ended⟩
    rw [bundle, made] at ended
    obtain ⟨⟨chunks, s⟩, whole, rfl⟩ := Option.map_eq_some_iff.mp ended
    obtain ⟨steps, failure, final, again, rfl, rfl⟩ := all_start_eq_some_iff.mp ⟨limit, whole⟩
    obtain ⟨rfl, rfl, rfl⟩ := again.unique drained
    exact reported
  · rintro rfl
    obtain ⟨limit, whole⟩ :=
      all_start_eq_some_iff.mpr ⟨steps, failure, final, drained, rfl, rfl⟩
    refine ⟨limit, ?_⟩
    rw [bundle, made]
    dsimp only
    rw [whole, Option.map_some, reported]

/-! ## The modules of every pull -/

/-- **A stream whose `modules` are those of its walk**, by their identities. -/
def NamesModules (P : Project) (s : ChunkStream) : Prop :=
  s.modules = s.walk.emitted.map P.identityOf

/-- **A pull keeps the modules of a stream those of its walk.** -/
theorem NamesModules.next (h : NamesModules P s) : NamesModules P (s.next P).2 := by
  cases phase : s.phase with
  | header =>
      rw [next_header phase]
      exact h
  | modules =>
      -- the walk has one module more exactly if the pull gives a block
      have grown := Walk.emitted_perform (P := P) s.walk .next
      cases e : s.walk.next P with
      | mk made behind =>
          rw [Walk.perform, Walk.recordBy, e] at grown
          rcases made with _ | cause | record
          · have same : behind.emitted = s.walk.emitted := by simpa using grown
            rw [next_footer phase e, NamesModules, same]
            exact h
          · have same : behind.emitted = s.walk.emitted := by simpa using grown
            rw [next_failure phase e, NamesModules, same]
            exact h
          · have longer : behind.emitted = s.walk.emitted ++ [record.location] := by
              simpa using grown
            rw [next_module phase e, NamesModules, longer, List.map_append,
              ← show s.modules = s.walk.emitted.map P.identityOf from h, Walk.identity_of_next e]
            rfl
  | done =>
      rw [next_done phase]
      exact h

/-- **Behind any pulls the modules of a stream are those of its walk.** -/
theorem NamesModules.after (h : NamesModules P s) (k : Nat) : NamesModules P (s.after P k) := by
  induction k with
  | zero => exact h
  | succ k ih => exact ih.next

/-! ## Every bundle -/

/-- **A stream agrees with the plain drain of its `walk`.** Where the drain of a bundle's walk has a
result, the pulls of its stream give the head, a block for each module that was drained, in that
order, and then the end of the artifact or the error of the drain, and nothing behind it; they leave
the walk that the drain leaves, and the bundle has the output of these modules, or that error, and
no other outcome. Behind every pull, whether or not the walk comes to an end, the modules of the
stream are those of its walk. -/
theorem stream_agrees_with_drain (made : (Bundle.setup w entry options).2 = .ok (P, walk)) :
    (∀ limit result final, walk.all P limit = some (result, final) →
      (∃ steps failure, Drains P walk steps failure final ∧
        result = orFailure (steps.map Prod.fst) failure ∧
        (∀ k, item ((start walk P.artifact).pull P k) =
          (P.artifact.items (steps.map Prod.fst) failure)[k]?) ∧
        ((start walk P.artifact).after P (steps.length + 2)).walk = final) ∧
      ∀ outcome, (∃ limit, bundle limit w entry options = some outcome) ↔
        outcome = result.map (final.output P)) ∧
    ∀ k, ((start walk P.artifact).after P k).modules =
      ((start walk P.artifact).after P k).walk.emitted.map P.identityOf := by
  constructor
  · intro limit result final drained
    obtain ⟨steps, failure, drains, -, rfl⟩ := Walk.all_eq_some_iff.mp drained
    obtain ⟨items, left⟩ := items_start P.artifact drains
    exact ⟨⟨steps, failure, drains, rfl, items, left⟩, bundle_outcome made drains⟩
  · -- no module was made in front of the first pull
    have fresh : NamesModules P (start walk P.artifact) := by
      rw [NamesModules]
      simp [start, (Bundle.setup_spec made).1.emitted_eq]
    exact fresh.after

/-- Two scripts, the second of which refers to a file that does not exist. -/
def brokenScripts : Workspace :=
  ⟨⟨[(["a.js"], .text "require('./b')"), (["b.js"], .text "require('./c')")], []⟩, []⟩

/-- The project of these scripts. -/
def brokenProject : Project :=
  ⟨⟨"/a.js"⟩, .initial, Registry.initial.resolutionExtensions, .fail⟩

/-- The module of the first of them. -/
def brokenRecord : ModuleRecord :=
  ⟨⟨"/a.js"⟩, ⟨"/a.js"⟩, "require('./b')", "require('/b.js')"⟩

/-- The reference that fails in the second. -/
def brokenReference : BundleError :=
  .unresolvedReference "./c" ⟨"/b.js"⟩ (.notFound "./c" ⟨"/"⟩)

/-- A bundle of `brokenScripts` is set up as `brokenProject`. -/
theorem setup_brokenScripts :
    (Bundle.setup brokenScripts ⟨"a.js"⟩ ⟨[], [], [], .fail⟩).2 =
      .ok (brokenProject, .start brokenProject brokenScripts) :=
  Bundle.setup_of_registerAll (by decide +kernel) rfl

/-- The drain of these scripts fails behind its first module. -/
theorem drains_brokenScripts : ∃ steps final,
    Drains brokenProject (.start brokenProject brokenScripts) steps (some brokenReference) final ∧
      steps.map Prod.fst = [brokenRecord] := by
  have first : ((Walk.start brokenProject brokenScripts).next brokenProject).1 =
      some (.ok brokenRecord) := by decide +kernel
  have second : (((Walk.start brokenProject brokenScripts).next brokenProject).2.next
      brokenProject).1 = some (.error brokenReference) := by decide +kernel
  exact ⟨_, _, .step (Prod.ext first rfl) (.failed (Prod.ext second rfl)), rfl⟩

/-- The stream of these scripts gives the head, one block and the error, as the drain does. -/
theorem stream_agrees_with_drain_brokenScripts :
    ∃ walk limit final,
      (Bundle.setup brokenScripts ⟨"a.js"⟩ ⟨[], [], [], .fail⟩).2 = .ok (brokenProject, walk) ∧
      walk.all brokenProject limit = some (.error brokenReference, final) ∧
      (∀ k, item ((start walk brokenProject.artifact).pull brokenProject k) =
        [.ok brokenProject.artifact.header, .ok (blockOf brokenRecord),
          .error brokenReference][k]?) ∧
      (∀ outcome,
        (∃ limit, bundle limit brokenScripts ⟨"a.js"⟩ ⟨[], [], [], .fail⟩ = some outcome) ↔
          outcome = .error brokenReference) ∧
      ∀ k, ((start walk brokenProject.artifact).after brokenProject k).modules =
        ((start walk brokenProject.artifact).after brokenProject k).walk.emitted.map
          brokenProject.identityOf := by
  obtain ⟨steps, final, drains, listed⟩ := drains_brokenScripts
  have drained := Walk.all_eq_some_iff.mpr
    ⟨steps, some brokenReference, drains, Nat.lt_succ_self _, rfl⟩
  obtain ⟨agrees, named⟩ := stream_agrees_with_drain setup_brokenScripts
  obtain ⟨⟨again, failure, redrains, -, items, -⟩, outcomes⟩ := agrees _ _ _ drained
  obtain ⟨rfl, rfl, -⟩ := redrains.unique drains
  rw [listed] at items
  exact ⟨_, _, final, setup_brokenScripts, drained, items, outcomes, named⟩

end ChunkStream

end ScriptBundle
