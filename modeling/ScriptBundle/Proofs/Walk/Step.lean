import ScriptBundle.Walk.Basic

/-! # Steps of a walk

What one reference, one script, one location and one override can do to a walk, said once for
everything that is proved about walks:

* **`follow_literal`, `follow_outside`, `follow_missing_fail`, `follow_missing_collect`,
  `follow_target`** — one reference, by its treatment;
* **`linkAll_keeps_of_met`, `linkAll_keeps`** — what the targets that are met and every noted
  reference keep, the references of a script keep;
* **`process_cases`** — one location;
* **`include?_cases`, `include?_frame`, `exclude?_frame`** — one override;
* **`next_nil`, `next_cons`, `eq_of_next_none`** — the next module. -/

namespace ScriptBundle

/-- **What is searched for references** in a module: its script without its interpreter line, or
nothing but characters where its compiler writes no references. -/
def Project.segmentsOf (P : Project) (location : Path) (compiled : String) : List Segment :=
  let source := Script.withoutDirective compiled.toList
  if (P.registry.compilerFor location.extension).emitsReferences then Script.segments source
  else source.map .char

namespace Walk

variable {P : Project} {walk : Walk} {referrer location p : Path} {text specifier : List Char}

/-! ## References -/

/-- **The `walk` behind a reference to a file that is packed.** -/
def meet (P : Project) (referrer : Path) (walk : Walk) (location : Path) : Walk :=
  let linked := { walk with
    graph := walk.graph.addDependency (P.identityOf referrer) (P.identityOf location) }
  if walk.hasEmitted location then linked else linked.enqueueWithManifest P location

/-- A reference whose treatment is `literal` stays, and the walk with it. -/
theorem follow_literal
    (h : P.treatment walk.files walk.exclusions referrer (.ofList specifier) = .literal) :
    follow P referrer walk text specifier = (.ok text, walk) := by
  simp [follow, h]

/-- A reference to a file that is kept out becomes the way to it, and nothing else changes. -/
theorem follow_outside {path : String}
    (h : P.treatment walk.files walk.exclusions referrer (.ofList specifier) = .outside path) :
    follow P referrer walk text specifier = (.ok (Call.write path).toList, walk) := by
  simp [follow, h]

/-- Under the strict policy, `fail`, a reference without a target is an error. -/
theorem follow_missing_fail {cause : ResolveError}
    (h : P.treatment walk.files walk.exclusions referrer (.ofList specifier) = .missing cause)
    (policy : P.policy = .fail) :
    follow P referrer walk text specifier =
      (.error (.unresolvedReference (.ofList specifier) referrer cause), walk) := by
  simp [follow, h, policy]

/-- Where references without a target are collected, one stays as it is and is noted. -/
theorem follow_missing_collect {cause : ResolveError}
    (h : P.treatment walk.files walk.exclusions referrer (.ofList specifier) = .missing cause)
    (policy : P.policy = .collect) :
    follow P referrer walk text specifier = (.ok text, { walk with
      unresolved := walk.unresolved ++ [⟨.ofList specifier, referrer, cause.message⟩] }) := by
  simp [follow, h, policy]

/-- **A reference with a `target`** becomes a call of its identity, and the walk has met the target. -/
theorem follow_target
    (h : P.treatment walk.files walk.exclusions referrer (.ofList specifier) = .target location) :
    follow P referrer walk text specifier =
      (.ok (Call.write (P.identityOf location).text).toList, meet P referrer walk location) := by
  simp [follow, h, meet]

/-! ## What references keep -/

section Met

variable {keeps : Walk → Prop}
  (noted : ∀ walk unresolved, keeps walk → keeps { walk with unresolved })
  (met : ∀ walk location specifier, keeps walk →
    P.treatment walk.files walk.exclusions referrer specifier = .target location →
    keeps (meet P referrer walk location))

include noted met

/-- **What one reference keeps**, if a target that is met does. -/
theorem follow_keeps_of_met (h : keeps walk) :
    keeps (follow P referrer walk text specifier).2 := by
  -- by the treatment of the reference; only a target touches the queue
  cases treated : P.treatment walk.files walk.exclusions referrer (.ofList specifier) with
  | literal =>
      rw [follow_literal treated]
      exact h
  | outside path =>
      rw [follow_outside treated]
      exact h
  | missing cause =>
      cases policy : P.policy with
      | fail =>
          rw [follow_missing_fail treated policy]
          exact h
      | collect =>
          rw [follow_missing_collect treated policy]
          exact noted _ _ h
  | target location =>
      rw [follow_target treated]
      exact met _ _ _ h treated

/-- **What the references of a script keep**, if the targets that are met do. -/
theorem linkAll_keeps_of_met (segments : List Segment) (h : keeps walk) :
    keeps (linkAll P referrer walk segments).2 := by
  -- on the segments: `linkAll` hands the walk on from one to the next, also in front of an error
  induction segments generalizing walk with
  | nil => exact h
  | cons segment rest ih =>
      cases segment with
      | char c =>
          have later := ih h
          rw [linkAll]
          split <;> rename_i e <;> rw [e] at later <;> exact later
      | reference text specifier =>
          have first : keeps (follow P referrer walk text specifier).2 :=
            follow_keeps_of_met noted met h
          rw [linkAll]
          split
          · rename_i e
            rw [e] at first
            exact first
          · rename_i e
            rw [e] at first
            have later := ih first
            split <;> rename_i e <;> rw [e] at later <;> exact later

end Met

section Keeps

variable {keeps : Walk → Prop}
  (noted : ∀ walk unresolved, keeps walk → keeps { walk with unresolved })
  (linked : ∀ walk graph, keeps walk → keeps { walk with graph })
  (queued : ∀ walk location, keeps walk → keeps (walk.enqueue location))

include queued

/-- What every entry into the queue keeps, a `location` and its manifest keep. -/
theorem enqueueWithManifest_keeps (location : Path) (h : keeps walk) :
    keeps (walk.enqueueWithManifest P location) := by
  unfold enqueueWithManifest
  split
  · exact queued _ _ (queued _ _ h)
  · exact queued _ _ h

include linked

/-- What a reference to a file that is packed keeps. -/
theorem meet_keeps (h : keeps walk) : keeps (meet P referrer walk location) := by
  have drawn := linked walk
    (walk.graph.addDependency (P.identityOf referrer) (P.identityOf location)) h
  unfold meet
  split
  · exact drawn
  · exact enqueueWithManifest_keeps queued location drawn

include noted

/-- **What the references of a script keep.** -/
theorem linkAll_keeps (segments : List Segment) (h : keeps walk) :
    keeps (linkAll P referrer walk segments).2 :=
  linkAll_keeps_of_met noted (fun _ _ _ h _ => meet_keeps linked queued h) segments h

end Keeps

/-- To `enqueue` a location leaves all files as they are. -/
@[simp] theorem files_enqueue (walk : Walk) (p : Path) : (walk.enqueue p).files = walk.files := by
  unfold enqueue
  split <;> rfl

/-- To `enqueue` a location keeps nothing out. -/
@[simp] theorem exclusions_enqueue (walk : Walk) (p : Path) :
    (walk.enqueue p).exclusions = walk.exclusions := by
  unfold enqueue
  split <;> rfl

/-- To `enqueue` a location makes no module. -/
@[simp] theorem emitted_enqueue (walk : Walk) (p : Path) :
    (walk.enqueue p).emitted = walk.emitted := by
  unfold enqueue
  split <;> rfl

/-- To `enqueue` a location records no reference. -/
@[simp] theorem graph_enqueue (walk : Walk) (p : Path) : (walk.enqueue p).graph = walk.graph := by
  unfold enqueue
  split <;> rfl

/-- To `enqueue` a location notes nothing. -/
@[simp] theorem unresolved_enqueue (walk : Walk) (p : Path) :
    (walk.enqueue p).unresolved = walk.unresolved := by
  unfold enqueue
  split <;> rfl

/-- To schedule a location and its manifest leaves all files as they are. -/
@[simp] theorem files_enqueueWithManifest (walk : Walk) (p : Path) :
    (walk.enqueueWithManifest P p).files = walk.files := by
  unfold enqueueWithManifest
  split <;> simp

/-- To schedule a location and its manifest keeps nothing out. -/
@[simp] theorem exclusions_enqueueWithManifest (walk : Walk) (p : Path) :
    (walk.enqueueWithManifest P p).exclusions = walk.exclusions := by
  unfold enqueueWithManifest
  split <;> simp

/-- To schedule a location and its manifest makes no module. -/
@[simp] theorem emitted_enqueueWithManifest (walk : Walk) (p : Path) :
    (walk.enqueueWithManifest P p).emitted = walk.emitted := by
  unfold enqueueWithManifest
  split <;> simp

/-- To schedule a location and its manifest records no reference. -/
@[simp] theorem graph_enqueueWithManifest (walk : Walk) (p : Path) :
    (walk.enqueueWithManifest P p).graph = walk.graph := by
  unfold enqueueWithManifest
  split <;> simp

/-- To schedule a location and its manifest notes nothing. -/
@[simp] theorem unresolved_enqueueWithManifest (walk : Walk) (p : Path) :
    (walk.enqueueWithManifest P p).unresolved = walk.unresolved := by
  unfold enqueueWithManifest
  split <;> simp

/-- **The files, what is kept out and the modules so far are not changed by references.** -/
theorem linkAll_frame (P : Project) (referrer : Path) (walk : Walk) (segments : List Segment) :
    (linkAll P referrer walk segments).2.files = walk.files ∧
      (linkAll P referrer walk segments).2.exclusions = walk.exclusions ∧
      (linkAll P referrer walk segments).2.emitted = walk.emitted := by
  let keeps (after : Walk) : Prop := after.files = walk.files ∧
    after.exclusions = walk.exclusions ∧ after.emitted = walk.emitted
  have queued : ∀ after location, keeps after → keeps (after.enqueue location) :=
    fun _ _ h => by simpa [keeps] using h
  exact linkAll_keeps (fun _ _ h => h) (fun _ _ h => h) queued segments (⟨rfl, rfl, rfl⟩ : keeps walk)

/-- Characters alone do nothing to a `walk`. -/
theorem linkAll_map_char (cs : List Char) :
    linkAll P referrer walk (cs.map .char) = (.ok cs, walk) := by
  induction cs with
  | nil => rfl
  | cons c cs ih => simp [linkAll, ih]

/-! ## Locations -/

/-- The `walk` in front of the references of a location. -/
def known (P : Project) (walk : Walk) (files : Workspace) (location : Path) : Walk :=
  { walk with files, graph := (walk.graph.addModule (P.identityOf location)).1 }

/-- A `location` whose compiler fails is no module, and the compiler may have changed the files. -/
theorem process_of_compile_error {cause : CompileError} {files : Workspace}
    (compiled : P.registry.compile walk.files location = (.error cause, files)) :
    process P walk location = (.error (.compilation location cause), { walk with files }) := by
  rw [Registry.compile] at compiled
  simp [process, processBy, compiled]

/-- **A `location` made a module**, once its compiler gave a text. -/
theorem process_of_compile_ok {source : String} {files : Workspace}
    (compiled : P.registry.compile walk.files location = (.ok source, files)) :
    process P walk location =
      match linkAll P location (walk.known P files location) (P.segmentsOf location source) with
      | (.error e, after) => (.error e, after)
      | (.ok text, after) =>
        (.ok ⟨location, P.identityOf location, source, String.ofList text⟩,
          { after with emitted := after.emitted ++ [location] }) := by
  rw [Registry.compile] at compiled
  -- a compiler that writes no references leaves its text unsearched, which is a search of
  -- characters
  by_cases emits : (P.registry.compilerFor location.extension).emitsReferences = true
  · have searched : P.segmentsOf location source =
        Script.segments (Script.withoutDirective source.toList) := by
      simp [Project.segmentsOf, emits]
    simp only [process, processBy, compiled, emits, if_true, searched, known]
    rcases linkAll P location _ _ with ⟨e | text, after⟩ <;> rfl
  · have searched : P.segmentsOf location source =
        (Script.withoutDirective source.toList).map .char := by
      simp [Project.segmentsOf, emits]
    rw [searched, linkAll_map_char]
    simp [process, processBy, compiled, emits, known]

/-- **The ways a `location` can go**: its compiler fails, one of its references fails, or it becomes a
module. -/
theorem process_cases (P : Project) (walk : Walk) (location : Path) :
    (∃ cause files, P.registry.compile walk.files location = (.error cause, files) ∧
      process P walk location = (.error (.compilation location cause), { walk with files })) ∨
    ∃ source files, P.registry.compile walk.files location = (.ok source, files) ∧
      ((∃ e after,
        linkAll P location (walk.known P files location) (P.segmentsOf location source) =
          (.error e, after) ∧
        process P walk location = (.error e, after)) ∨
      ∃ text after,
        linkAll P location (walk.known P files location) (P.segmentsOf location source) =
          (.ok text, after) ∧
        process P walk location =
          (.ok ⟨location, P.identityOf location, source, String.ofList text⟩,
            { after with emitted := after.emitted ++ [location] })) := by
  cases compiled : P.registry.compile walk.files location with
  | mk result files =>
      cases result with
      | error cause => exact .inl ⟨cause, files, rfl, process_of_compile_error compiled⟩
      | ok source =>
          refine .inr ⟨source, files, rfl, ?_⟩
          have whole := process_of_compile_ok compiled
          cases linked : linkAll P location (walk.known P files location)
              (P.segmentsOf location source) with
          | mk result after =>
              rw [linked] at whole
              cases result with
              | error e => exact .inl ⟨e, after, rfl, whole⟩
              | ok text => exact .inr ⟨text, after, rfl, whole⟩

/-! ## Overrides -/

/-- **The ways a `specifier` can be packed**: it means a module of the host or a file that is kept
out, and the walk stays as it is, or the file it means is scheduled. -/
theorem include?_cases {specifier : String} {notice : Option Notice} {after : Walk}
    (done : walk.include? P specifier = .ok (notice, after)) :
    (∃ name, P.resolve walk.files specifier P.base = .ok (.host name) ∧
      notice = some (.hostModule name) ∧ after = walk) ∨
    ∃ location, P.resolve walk.files specifier P.base = .ok (.file location) ∧
      (walk.exclusions.holdsFile location = true ∧ notice = some (.excludedModule specifier) ∧
        after = walk ∨
      walk.exclusions.holdsFile location = false ∧ notice = none ∧
        after = walk.enqueueWithManifest P location) := by
  unfold include? at done
  split at done <;> rename_i resolved
  · simp at done
  · obtain ⟨rfl, rfl⟩ := Prod.mk.inj (Except.ok.inj done)
    exact .inl ⟨_, resolved, rfl, rfl⟩
  · split at done <;> rename_i excluded <;>
      obtain ⟨rfl, rfl⟩ := Prod.mk.inj (Except.ok.inj done)
    · exact .inr ⟨_, resolved, .inl ⟨excluded, rfl, rfl⟩⟩
    · exact .inr ⟨_, resolved, .inr ⟨by simpa using excluded, rfl, rfl⟩⟩

/-- A `specifier` that is packed changes neither the files nor what is kept out. -/
theorem include?_frame {specifier : String} {notice : Option Notice} {after : Walk}
    (done : walk.include? P specifier = .ok (notice, after)) :
    after.files = walk.files ∧ after.exclusions = walk.exclusions := by
  rcases include?_cases done with ⟨_, -, -, rfl⟩ | ⟨location, -, ⟨-, -, rfl⟩ | ⟨-, -, rfl⟩⟩
  · exact ⟨rfl, rfl⟩
  · exact ⟨rfl, rfl⟩
  · exact ⟨files_enqueueWithManifest .., exclusions_enqueueWithManifest ..⟩

/-- Keeping a `specifier` out changes nothing but what is kept out. -/
theorem exclude?_frame {specifier : String} {after : Walk}
    (done : walk.exclude? P specifier = .ok after) :
    ∃ exclusions, after = { walk with exclusions } := by
  unfold exclude? at done
  split at done
  · exact ⟨_, (Except.ok.inj done).symm⟩
  · dsimp only at done
    split at done
    · exact ⟨_, (Except.ok.inj done).symm⟩
    · exact ⟨_, (Except.ok.inj done).symm⟩
    · split at done
      · exact ⟨_, (Except.ok.inj done).symm⟩
      · simp at done

/-! ## The next module -/

/-- There is no next module where every waiting location is passed over. -/
theorem next_nil (h : walk.queue.dropWhile walk.passesOver = []) :
    next P walk = (none, { walk with queue := [] }) := by
  simp [next, h]

/-- The next module comes from the first `location` that is not passed over. -/
theorem next_cons {rest : List Path}
    (h : walk.queue.dropWhile walk.passesOver = location :: rest) :
    next P walk = (some (process P { walk with queue := rest } location).1,
      (process P { walk with queue := rest } location).2) := by
  simp [next, h]

/-- Where there is no next module, every waiting location is passed over. -/
theorem dropWhile_of_next_none {after : Walk} (h : next P walk = (none, after)) :
    walk.queue.dropWhile walk.passesOver = [] := by
  cases waiting : walk.queue.dropWhile walk.passesOver with
  | nil => rfl
  | cons location rest => simp [next_cons waiting] at h

/-- Where there is no next module, the `queue` is emptied, and nothing else changes. -/
theorem eq_of_next_none {after : Walk} (h : next P walk = (none, after)) :
    after = { walk with queue := [] } := by
  rw [next_nil (dropWhile_of_next_none h)] at h
  exact (Prod.mk.inj h).2.symm

end Walk

end ScriptBundle
