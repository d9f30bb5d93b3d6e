import ScriptBundle.Bundle
import ScriptBundle.Proofs.Walk.Step

/-! # Drains

A walk that comes to an end does so in finitely many steps, and the modules, the chunks and the walk
behind them are told by these steps alone. What a step keeps is kept by the whole drain.

* **`Walk.Drains`** — the steps of a walk to its end, with the walk behind each of them;
* **`Walk.all_eq_some_iff`** — the modules of a walk and its steps;
* **`ChunkStream.all_start_eq_some_iff`** — the chunks of a stream and the steps of its walk;
* **`bundle_eq_ok_iff`** — a bundle that succeeds and the steps of its walk. -/

namespace ScriptBundle

/-- What is made of some values, or the error that came behind them. -/
def orFailure {α : Type} (values : List α) : Option BundleError → Except BundleError (List α)
  | none => .ok values
  | some e => .error e

/-- One value more in front, and the same failure behind. -/
@[simp] theorem map_cons_orFailure {α : Type} (value : α) (values : List α)
    (failure : Option BundleError) :
    (orFailure values failure).map (value :: ·) = orFailure (value :: values) failure := by
  cases failure <;> rfl

/-- Values are the result exactly where there is no failure. -/
theorem orFailure_eq_ok {α : Type} {values result : List α} {failure : Option BundleError} :
    orFailure values failure = .ok result ↔ failure = none ∧ values = result := by
  cases failure <;> simp [orFailure]

namespace Walk

variable {P : Project} {walk final : Walk} {steps : List (ModuleRecord × Walk)}
  {failure : Option BundleError}

/-- **A `walk` to its end**: the modules with the walk behind each, the failure that ended it, if one
did, and the walk that is left. -/
inductive Drains (P : Project) :
    Walk → List (ModuleRecord × Walk) → Option BundleError → Walk → Prop
  /-- No location waits. -/
  | done {walk after : Walk} (h : walk.next P = (none, after)) : Drains P walk [] none after
  /-- A location fails. -/
  | failed {walk after : Walk} {e : BundleError} (h : walk.next P = (some (.error e), after)) :
      Drains P walk [] (some e) after
  /-- A location becomes a module. -/
  | step {walk after final : Walk} {record : ModuleRecord} {steps : List (ModuleRecord × Walk)}
      {failure : Option BundleError} (h : walk.next P = (some (.ok record), after))
      (rest : Drains P after steps failure final) :
      Drains P walk ((record, after) :: steps) failure final

/-- **What the steps of a `walk` keep, a whole drain keeps**, and it held behind each of them. -/
theorem Drains.keeps {keeps : Walk → Prop}
    (next : ∀ walk, keeps walk → keeps (walk.next P).2) (h : Drains P walk steps failure final)
    (start : keeps walk) : keeps final ∧ ∀ step ∈ steps, keeps step.2 := by
  -- on the steps, each of which starts where the one before it ended
  induction h with
  | done e => exact ⟨by simpa [e] using next _ start, by simp⟩
  | failed e => exact ⟨by simpa [e] using next _ start, by simp⟩
  | step e rest ih =>
      have behind := next _ start
      rw [e] at behind
      obtain ⟨last, between⟩ := ih behind
      exact ⟨last, List.forall_mem_cons.mpr ⟨behind, between⟩⟩

/-- **A `walk` comes to its end in one way only.** -/
theorem Drains.unique {later : List (ModuleRecord × Walk)} {other : Option BundleError} {left : Walk}
    (h : Drains P walk steps failure final) (h' : Drains P walk later other left) :
    later = steps ∧ other = failure ∧ left = final := by
  -- a walk has one next step, so both drains begin with the same
  induction h generalizing later with
  | done e =>
      cases h' with
      | done e' =>
          obtain ⟨-, rfl⟩ := Prod.mk.inj (e.symm.trans e')
          exact ⟨rfl, rfl, rfl⟩
      | failed e' => simp [e] at e'
      | step e' => simp [e] at e'
  | failed e =>
      cases h' with
      | done e' => simp [e] at e'
      | failed e' =>
          obtain ⟨made, rfl⟩ := Prod.mk.inj (e.symm.trans e')
          cases made
          exact ⟨rfl, rfl, rfl⟩
      | step e' => simp [e] at e'
  | step e _ ih =>
      cases h' with
      | done e' => simp [e] at e'
      | failed e' => simp [e] at e'
      | step e' rest =>
          obtain ⟨made, rfl⟩ := Prod.mk.inj (e.symm.trans e')
          cases made
          obtain ⟨rfl, rfl, rfl⟩ := ih rest
          exact ⟨rfl, rfl, rfl⟩

/-- **The modules of a `walk` are those of its steps**, and there are modules, or an error, exactly if
the walk comes to an end in front of the limit. -/
theorem all_eq_some_iff {limit : Nat} {result : Except BundleError (List ModuleRecord)} :
    all P limit walk = some (result, final) ↔
      ∃ steps failure, Drains P walk steps failure final ∧ steps.length < limit ∧
        result = orFailure (steps.map Prod.fst) failure := by
  -- from left to right on the limit, from right to left on the steps
  constructor
  · intro h
    induction limit generalizing walk result with
    | zero => simp [all] at h
    | succ limit ih =>
        rw [all] at h
        split at h
        · rename_i e
          cases h
          exact ⟨[], none, .done e, Nat.succ_pos limit, rfl⟩
        · rename_i cause _ e
          cases h
          exact ⟨[], some cause, .failed e, Nat.succ_pos limit, rfl⟩
        · rename_i record after e
          obtain ⟨⟨records, left⟩, later, made⟩ := Option.map_eq_some_iff.mp h
          cases made
          obtain ⟨steps, failure, rest, few, rfl⟩ := ih later
          exact ⟨(record, after) :: steps, failure, .step e rest, Nat.succ_lt_succ few, by simp⟩
  · rintro ⟨steps, failure, h, few, rfl⟩
    induction h generalizing limit with
    | done e =>
        obtain ⟨limit, rfl⟩ := Nat.exists_eq_succ_of_ne_zero (Nat.ne_of_gt few)
        simp [all, e, orFailure]
    | failed e =>
        obtain ⟨limit, rfl⟩ := Nat.exists_eq_succ_of_ne_zero (Nat.ne_of_gt few)
        simp [all, e, orFailure]
    | step e _ ih =>
        obtain ⟨limit, rfl⟩ := Nat.exists_eq_succ_of_ne_zero (Nat.ne_of_gt (Nat.zero_lt_of_lt few))
        simp [all, e, ih (Nat.lt_of_succ_lt_succ few)]

/-- **The steps of a `walk` without a failure**, by the locations of its modules. -/
theorem exists_drains_of_all (limit : Nat) {locations : List Path}
    (h : ((all P limit walk).bind fun outcome => outcome.1.toOption).map (·.map (·.location)) =
      some locations) :
    ∃ steps final, Drains P walk steps none final ∧ steps.map (·.1.location) = locations := by
  obtain ⟨records, fine, located⟩ := Option.map_eq_some_iff.mp h
  obtain ⟨⟨result, final⟩, whole, made⟩ := Option.bind_eq_some_iff.mp fine
  obtain ⟨steps, failure, drained, -, rfl⟩ := all_eq_some_iff.mp whole
  cases failure with
  | some e => exact absurd made (by simp [orFailure, Except.toOption])
  | none =>
      obtain rfl : steps.map Prod.fst = records := Option.some.inj made
      exact ⟨steps, final, drained, by rw [← located, List.map_map]; rfl⟩

end Walk

namespace ChunkStream

open Walk (Drains)

variable {P : Project} {s after : ChunkStream} {final : Walk}
  {steps : List (ModuleRecord × Walk)} {failure : Option BundleError}

/-- **The `block` of a module.** -/
def blockOf (record : ModuleRecord) : String := Artifact.block record.identity record.linked

/-- **The stream behind some `modules`**, where a walk is left. -/
def behind (s : ChunkStream) (records : List ModuleRecord) (final : Walk) : ChunkStream :=
  { s with walk := final, phase := .done, modules := s.modules ++ records.map (·.identity) }

/-- In the phase `header` the first chunk is the header of the artifact. -/
theorem next_header (h : s.phase = .header) :
    s.next P = (.ok (some s.artifact.header), { s with phase := .modules }) := by
  simp [next, h]

/-- In the phase `modules` a module gives its block. -/
theorem next_module {record : ModuleRecord} {walk : Walk} (h : s.phase = .modules)
    (e : s.walk.next P = (some (.ok record), walk)) :
    s.next P = (.ok (some (blockOf record)),
      { s with walk, modules := s.modules ++ [record.identity] }) := by
  simp [next, h, e, blockOf]

/-- In the phase `modules` a module that fails ends the stream with its error. -/
theorem next_failure {cause : BundleError} {walk : Walk} (h : s.phase = .modules)
    (e : s.walk.next P = (some (.error cause), walk)) :
    s.next P = (.error cause, { s with walk, phase := .done }) := by
  simp [next, h, e]

/-- In the phase `modules` the footer comes once there is no module left, and ends the stream. -/
theorem next_footer {walk : Walk} (h : s.phase = .modules) (e : s.walk.next P = (none, walk)) :
    s.next P = (.ok (some Artifact.footer), { s with walk, phase := .done }) := by
  simp [next, h, e]

/-- A stream in the phase `done` gives no chunk and stays as it is. -/
theorem next_done (h : s.phase = .done) : s.next P = (.ok none, s) := by
  simp [next, h]

/-- **The stream whose `walk` is changed.** -/
def mapWalk (s : ChunkStream) (f : Walk → Walk) : ChunkStream := { s with walk := f s.walk }

/-- **A pull of a stream whose `walk` is changed**: where the step of the walk comes to the same and
leaves behind the changed walk, so does the pull. -/
theorem next_mapWalk {f : Walk → Walk} (stepped : s.phase = .modules →
      (f s.walk).next P = ((s.walk.next P).1, f (s.walk.next P).2)) :
    (s.mapWalk f).next P = ((s.next P).1, (s.next P).2.mapWalk f) := by
  cases phase : s.phase with
  | header =>
      rw [next_header phase, next_header (s := s.mapWalk f) phase]
      rfl
  | modules =>
      have stepped := stepped phase
      cases e : s.walk.next P with
      | mk made behind =>
          rw [e] at stepped
          rcases made with _ | cause | record
          · rw [next_footer phase e, next_footer (s := s.mapWalk f) phase stepped]
            rfl
          · rw [next_failure phase e, next_failure (s := s.mapWalk f) phase stepped]
            rfl
          · rw [next_module phase e, next_module (s := s.mapWalk f) phase stepped]
            rfl
  | done => rw [next_done phase, next_done (s := s.mapWalk f) phase]

/-- Behind its end a stream has no chunks. -/
theorem all_done (h : s.phase = .done) (limit : Nat) : s.all P (limit + 1) = some (.ok [], s) := by
  rw [all, next_done h]

/-- **The chunks of a stream among its `modules`**: the blocks of what its walk comes to, and the
end. -/
theorem all_modules (h : s.phase = .modules) (drained : Drains P s.walk steps failure final) :
    s.all P (steps.length + 2) =
      some (orFailure (steps.map (blockOf ·.1) ++ [Artifact.footer]) failure,
        s.behind (steps.map Prod.fst) final) := by
  -- on the steps, for the stream at each of them
  generalize e : s.walk = walk at drained
  induction drained generalizing s with
  | done last =>
      rw [all, next_footer h (e ▸ last)]
      simp [all_done, orFailure, behind, Except.map]
  | failed last =>
      rw [all, next_failure h (e ▸ last)]
      simp [orFailure, behind]
  | @step _ walk _ record _ _ first rest ih =>
      have later := ih (s := { s with walk, modules := s.modules ++ [record.identity] }) h rfl
      rw [List.length_cons, all, next_module h (e ▸ first)]
      simp [later, behind]

/-- **A stream among its `modules` that comes to an end** is one whose walk does. -/
theorem drains_of_all {limit : Nat} {result : Except BundleError (List String)}
    (h : s.all P limit = some (result, after)) (phase : s.phase = .modules) :
    ∃ steps failure final, Drains P s.walk steps failure final ∧
      result = orFailure (steps.map (blockOf ·.1) ++ [Artifact.footer]) failure ∧
      after = s.behind (steps.map Prod.fst) final := by
  -- on the limit, with one case for each answer of the walk
  induction limit generalizing s after result with
  | zero => simp [all] at h
  | succ limit ih =>
      rw [all] at h
      cases e : s.walk.next P with
      | mk made walk =>
          rcases made with _ | cause | record
          · rw [next_footer phase e] at h
            obtain ⟨⟨chunks, left⟩, later, made⟩ := Option.map_eq_some_iff.mp h
            cases limit with
            | zero => simp [all] at later
            | succ limit =>
                rw [all_done rfl] at later
                cases later
                cases made
                exact ⟨[], none, walk, .done e, rfl, by simp [behind]⟩
          · rw [next_failure phase e] at h
            cases h
            exact ⟨[], some cause, walk, .failed e, rfl, by simp [behind]⟩
          · rw [next_module phase e] at h
            obtain ⟨⟨chunks, left⟩, later, made⟩ := Option.map_eq_some_iff.mp h
            obtain ⟨steps, failure, final, rest, rfl, rfl⟩ := ih later phase
            cases made
            exact ⟨(record, walk) :: steps, failure, final, .step e rest, by simp, by simp [behind]⟩

/-- **The chunks of a `walk` are its head, a block for each of its steps, and its end**, and there are
chunks, or an error, exactly if the walk comes to an end. -/
theorem all_start_eq_some_iff {walk : Walk} {artifact : Artifact}
    {result : Except BundleError (List String)} :
    (∃ limit, (start walk artifact).all P limit = some (result, after)) ↔
      ∃ steps failure final, Drains P walk steps failure final ∧
        result = orFailure
          (artifact.header :: (steps.map (blockOf ·.1) ++ [Artifact.footer])) failure ∧
        after = ⟨final, artifact, .done, steps.map (·.1.identity), []⟩ := by
  -- the header comes first and leaves a stream among its modules
  have head : (start walk artifact).next P =
      (.ok (some artifact.header), ⟨walk, artifact, .modules, [], []⟩) :=
    next_header rfl
  constructor
  · rintro ⟨limit, h⟩
    cases limit with
    | zero => simp [all] at h
    | succ limit =>
        rw [all, head] at h
        obtain ⟨⟨chunks, left⟩, later, made⟩ := Option.map_eq_some_iff.mp h
        obtain ⟨steps, failure, final, drained, rfl, rfl⟩ := drains_of_all later rfl
        cases made
        exact ⟨steps, failure, final, drained, by simp, by simp [behind]⟩
  · rintro ⟨steps, failure, final, drained, rfl, rfl⟩
    have later := all_modules (s := ⟨walk, artifact, .modules, [], []⟩) rfl drained
    refine ⟨steps.length + 3, ?_⟩
    rw [all, head]
    simp [later, behind]

end ChunkStream

/-- **A `bundle` that succeeds**, by the steps of its walk. -/
theorem bundle_eq_ok_iff {w : Workspace} {entry : Path} {options : Options} {output : Output} :
    (∃ limit, bundle limit w entry options = some (.ok output)) ↔
      ∃ P walk steps final, (Bundle.setup w entry options).2 = .ok (P, walk) ∧
        Walk.Drains P walk steps none final ∧
        output = ⟨String.join (P.artifact.header ::
            (steps.map (ChunkStream.blockOf ·.1) ++ [Artifact.footer])),
          ⟨steps.map (·.1.identity), final.unresolved, final.graph.circularGroups,
            final.graph.dependencyCount⟩⟩ := by
  constructor
  · rintro ⟨limit, h⟩
    unfold bundle at h
    split at h
    · simp at h
    · rename_i P walk made
      obtain ⟨⟨result, s⟩, whole, ended⟩ := Option.map_eq_some_iff.mp h
      obtain ⟨steps, failure, final, drained, rfl, rfl⟩ :=
        ChunkStream.all_start_eq_some_iff.mp ⟨limit, whole⟩
      cases failure with
      | none => exact ⟨P, walk, steps, final, made, drained, (Except.ok.inj ended).symm⟩
      | some e => simp [orFailure, Except.map] at ended
  · rintro ⟨P, walk, steps, final, made, drained, rfl⟩
    obtain ⟨limit, whole⟩ := ChunkStream.all_start_eq_some_iff.mpr
      ⟨steps, none, final, drained, rfl, rfl⟩
    refine ⟨limit, ?_⟩
    rw [bundle, made]
    dsimp only
    rw [whole]
    rfl

/-- A bundle that succeeds, by what is left of its outcome. -/
theorem eq_some_ok_of_toOption {outcome : Option (Except BundleError Output)}
    (h : outcome.bind Except.toOption = some output) : outcome = some (.ok output) := by
  obtain ⟨result, rfl, fine⟩ := Option.bind_eq_some_iff.mp h
  cases result with
  | error cause => exact absurd fine (by simp [Except.toOption])
  | ok made => rw [Option.some.inj fine]

end ScriptBundle
