import ScriptBundle.Proofs.Walk.Step

/-! # Linked scripts

What becomes of a script whose references all go through. It depends on the files and on what is
kept out alone; the walk is left behind as if the targets of the references had been met one after
the other:

* **`Project.target?`, `Project.linkedText`, `Project.note?`** — where a segment leads, what stands in
  its place, and what is noted about it;
* **`foldl_meet_frame`, `foldl_meet_graph`** — what targets that are met leave as it is, and the graph
  behind them;
* **`linkAll_ok`** — the text and the walk behind such a script;
* **`process_ok`** — the module made of a location, and the walk behind it;
* **`exists_process_ok_of_found`, `exists_process_ok`** — where no target is missing, or missing ones
  are noted, whatever compiles becomes a module. -/

namespace ScriptBundle

namespace Project

variable (P : Project) (w : Workspace) (x : Exclusions) (referrer : Path)

/-- **Where a segment leads**: the packed file a reference means. -/
def target? : Segment → Option Path
  | .char _ => none
  | .reference _ specifier =>
    match P.treatment w x referrer (.ofList specifier) with
    | .target location => some location
    | _ => none

/-- **What stands in the place of a segment**: the call of an identity or of a path outside, or what
stood there before. -/
def linkedText : Segment → List Char
  | .char c => [c]
  | .reference text specifier =>
    match P.treatment w x referrer (.ofList specifier) with
    | .target location => (Call.write (P.identityOf location).text).toList
    | .outside path => (Call.write path).toList
    | _ => text

/-- **What is noted about a segment**: a reference without a target. -/
def note? : Segment → Option UnresolvedReference
  | .char _ => none
  | .reference _ specifier =>
    match P.treatment w x referrer (.ofList specifier) with
    | .missing cause => some ⟨.ofList specifier, referrer, cause.message⟩
    | _ => none

/-- **The packed files a module refers to**, in the order of its references. -/
def targetsOf (location : Path) (compiled : String) : List Path :=
  (P.segmentsOf location compiled).filterMap (P.target? w x location)

/-- A `target` is found, and is not kept out. -/
theorem resolve_of_treatment_target {specifier : String} {location : Path}
    (h : P.treatment w x referrer specifier = .target location) :
    P.resolve w specifier referrer.folder = .ok (.file location) ∧ x.holdsFile location = false := by
  unfold treatment at h
  -- of the ways a specifier is treated, one gives a target
  split at h
  · simp at h
  · split at h
    · simp at h
    · simp at h
    · rename_i found resolved
      split at h
      · split at h <;> simp at h
      · rename_i kept
        cases h
        exact ⟨resolved, by simpa using kept⟩

/-- **What a module refers to is found** from its folder, and is not kept out. -/
theorem resolve_of_mem_targetsOf {location target : Path} {compiled : String}
    (h : target ∈ P.targetsOf w x location compiled) :
    (∃ specifier, P.resolve w specifier location.folder = .ok (.file target)) ∧
      x.holdsFile target = false := by
  obtain ⟨segment, -, found⟩ := List.mem_filterMap.mp h
  cases segment with
  | char c => simp [target?] at found
  | reference text specifier =>
      rw [target?] at found
      split at found
      · rename_i treated
        cases found
        obtain ⟨resolved, kept⟩ := resolve_of_treatment_target P w x location treated
        exact ⟨⟨_, resolved⟩, kept⟩
      · simp at found

end Project

namespace Walk

variable {P : Project} {walk after : Walk} {referrer location p : Path}

/-! ## Targets met -/

/-- To `meet` a location leaves all files as they are. -/
@[simp] theorem files_meet (walk : Walk) (p : Path) : (meet P referrer walk p).files = walk.files := by
  unfold meet
  split <;> simp

/-- To `meet` a location keeps nothing out. -/
@[simp] theorem exclusions_meet (walk : Walk) (p : Path) :
    (meet P referrer walk p).exclusions = walk.exclusions := by
  unfold meet
  split <;> simp

/-- To `meet` a location makes no module. -/
@[simp] theorem emitted_meet (walk : Walk) (p : Path) :
    (meet P referrer walk p).emitted = walk.emitted := by
  unfold meet
  split <;> simp

/-- To `meet` a location notes nothing. -/
@[simp] theorem unresolved_meet (walk : Walk) (p : Path) :
    (meet P referrer walk p).unresolved = walk.unresolved := by
  unfold meet
  split <;> simp

/-- What was noted has no part in the targets that are met. -/
theorem meet_with_unresolved (walk : Walk) (p : Path) (unresolved : List UnresolvedReference) :
    meet P referrer { walk with unresolved } p = { meet P referrer walk p with unresolved } := by
  have queued : ∀ (walk : Walk) (p : Path),
      enqueue { walk with unresolved } p = { walk.enqueue p with unresolved } := by
    intro walk p
    by_cases known : (p.isAmong walk.emitted || p.isAmong walk.scheduled) = true <;>
      simp [enqueue, hasEmitted, hasScheduled, known]
  have manifested : ∀ (walk : Walk) (p : Path), enqueueWithManifest P { walk with unresolved } p =
      { walk.enqueueWithManifest P p with unresolved } := by
    intro walk p
    cases found : P.manifestOf? walk.files p with
    | none => simpa only [enqueueWithManifest, found] using queued walk p
    | some manifest => simp only [enqueueWithManifest, found, queued]
  -- neither the test for a module nor an entry into the queue reads the notes
  by_cases known : p.isAmong walk.emitted = true
  · simp [meet, hasEmitted, known]
  · simp only [meet, hasEmitted, known, if_false, Bool.false_eq_true]
    exact manifested { walk with
      graph := walk.graph.addDependency (P.identityOf referrer) (P.identityOf p) } p

/-- What was noted so far has no part in what is met later. -/
theorem foldl_meet_with_unresolved (targets : List Path) (walk : Walk)
    (unresolved : List UnresolvedReference) :
    targets.foldl (meet P referrer) { walk with unresolved } =
      { targets.foldl (meet P referrer) walk with unresolved } := by
  induction targets generalizing walk with
  | nil => rfl
  | cons target rest ih => rw [List.foldl_cons, List.foldl_cons, meet_with_unresolved, ih]

/-- Targets that are met leave the files, what is kept out, the modules and the notes as they are. -/
theorem foldl_meet_frame (P : Project) (referrer : Path) (targets : List Path) (walk : Walk) :
    (targets.foldl (meet P referrer) walk).files = walk.files ∧
      (targets.foldl (meet P referrer) walk).exclusions = walk.exclusions ∧
      (targets.foldl (meet P referrer) walk).emitted = walk.emitted ∧
      (targets.foldl (meet P referrer) walk).unresolved = walk.unresolved := by
  induction targets generalizing walk with
  | nil => exact ⟨rfl, rfl, rfl, rfl⟩
  | cons target rest ih => simpa using ih (meet P referrer walk target)

/-- Targets that are met are added to the `graph` as what the referrer refers to. -/
theorem foldl_meet_graph (targets : List Path) (walk : Walk) :
    (targets.foldl (meet P referrer) walk).graph = (targets.map P.identityOf).foldl
      (·.addDependency (P.identityOf referrer) ·) walk.graph := by
  induction targets generalizing walk with
  | nil => rfl
  | cons target rest ih =>
      have first : (meet P referrer walk target).graph =
          walk.graph.addDependency (P.identityOf referrer) (P.identityOf target) := by
        unfold meet
        split <;> simp
      rw [List.foldl_cons, ih, first, List.map_cons, List.foldl_cons]

/-! ## Scripts that go through -/

/-- **The text and the `walk` behind a script whose references all go through.** -/
theorem linkAll_ok {segments : List Segment} {text : List Char}
    (h : linkAll P referrer walk segments = (.ok text, after)) :
    text = segments.flatMap (P.linkedText walk.files walk.exclusions referrer) ∧
      after = { (segments.filterMap (P.target? walk.files walk.exclusions referrer)).foldl
          (meet P referrer) walk with
        unresolved := walk.unresolved ++
          segments.filterMap (P.note? walk.files walk.exclusions referrer) } := by
  -- on the segments; files and exclusions stay the same, so each segment is treated as at the start
  induction segments generalizing walk text after with
  | nil =>
      obtain ⟨rfl, rfl⟩ : [] = text ∧ walk = after := by simpa [linkAll] using h
      simp
  | cons segment rest ih =>
      cases segment with
      | char c =>
          rw [linkAll] at h
          split at h <;> rename_i linked
          · obtain ⟨rfl, rfl⟩ := by simpa using h
            obtain ⟨rfl, rfl⟩ := ih linked
            simp [List.filterMap_cons, Project.linkedText, Project.target?, Project.note?]
          · simp at h
      | reference shown specifier =>
          rw [linkAll] at h
          split at h <;> rename_i followed
          · simp at h
          · split at h <;> rename_i linked
            · obtain ⟨rfl, rfl⟩ := by simpa using h
              obtain ⟨rfl, rfl⟩ := ih linked
              -- one reference, then the rest behind the walk it left
              cases treated : P.treatment walk.files walk.exclusions referrer (.ofList specifier) with
              | literal =>
                  rw [follow_literal treated] at followed
                  obtain ⟨rfl, rfl⟩ := by simpa using followed
                  simp [Project.linkedText, Project.target?, Project.note?, treated]
              | outside path =>
                  rw [follow_outside treated] at followed
                  obtain ⟨rfl, rfl⟩ := by simpa using followed
                  simp [Project.linkedText, Project.target?, Project.note?, treated]
              | missing cause =>
                  cases policy : P.policy with
                  | fail =>
                      rw [follow_missing_fail treated policy] at followed
                      simp at followed
                  | collect =>
                      rw [follow_missing_collect treated policy] at followed
                      obtain ⟨rfl, rfl⟩ := by simpa using followed
                      simp [Project.linkedText, Project.target?, Project.note?, treated,
                        foldl_meet_with_unresolved]
              | target location =>
                  rw [follow_target treated] at followed
                  obtain ⟨rfl, rfl⟩ := by simpa using followed
                  simp [Project.linkedText, Project.target?, Project.note?, treated]
            · simp at h

/-- **The module made of a `location`**, and the walk behind it. -/
theorem process_ok {record : ModuleRecord} (h : process P walk location = (.ok record, after)) :
    ∃ source files, P.registry.compile walk.files location = (.ok source, files) ∧
      record = ⟨location, P.identityOf location, source, .ofList
        ((P.segmentsOf location source).flatMap (P.linkedText files walk.exclusions location))⟩ ∧
      after = { (P.targetsOf files walk.exclusions location source).foldl (meet P location)
          (walk.known P files location) with
        unresolved := walk.unresolved ++
          (P.segmentsOf location source).filterMap (P.note? files walk.exclusions location)
        emitted := walk.emitted ++ [location] } := by
  rcases process_cases P walk location with
    ⟨cause, files, -, e⟩ | ⟨source, files, compiled, ⟨cause, left, linked, e⟩ | ⟨text, left, linked, e⟩⟩
  · simp [e] at h
  · simp [e] at h
  · obtain ⟨shown, reached⟩ := linkAll_ok linked
    obtain ⟨made, rfl⟩ := Prod.mk.inj (e.symm.trans h)
    obtain rfl := Except.ok.inj made
    obtain ⟨-, -, emitted, -⟩ := foldl_meet_frame P location
      (P.targetsOf files walk.exclusions location source) (walk.known P files location)
    refine ⟨source, files, compiled, by rw [shown]; rfl, ?_⟩
    -- the module is put behind those of the walk in front of the references
    have grown : left.emitted = walk.emitted := by
      rw [reached]
      exact emitted
    rw [grown, reached]
    rfl

/-! ## References that go through -/

/-- **Where no target is missing, or missing ones are noted, no reference fails.** -/
theorem exists_linkAll_ok_of_found (referrer : Path) (walk : Walk) {segments : List Segment}
    (found : P.policy = .fail → ∀ segment ∈ segments,
      P.note? walk.files walk.exclusions referrer segment = none) :
    ∃ text after, linkAll P referrer walk segments = (.ok text, after) := by
  -- on the segments; a reference changes neither the files nor what is kept out
  induction segments generalizing walk with
  | nil => exact ⟨[], walk, rfl⟩
  | cons segment rest ih =>
      have later : P.policy = .fail → ∀ segment ∈ rest,
          P.note? walk.files walk.exclusions referrer segment = none :=
        fun strict segment hs => found strict segment (List.mem_cons_of_mem _ hs)
      cases segment with
      | char c =>
          obtain ⟨text, after, linked⟩ := ih walk later
          exact ⟨c :: text, after, by rw [linkAll, linked]⟩
      | reference shown specifier =>
          have followed : ∃ replacement between,
              follow P referrer walk shown specifier = (.ok replacement, between) ∧
                between.files = walk.files ∧ between.exclusions = walk.exclusions := by
            cases treated : P.treatment walk.files walk.exclusions referrer (.ofList specifier) with
            | literal => exact ⟨_, _, follow_literal treated, rfl, rfl⟩
            | outside path => exact ⟨_, _, follow_outside treated, rfl, rfl⟩
            | missing cause =>
                cases policy : P.policy with
                | collect => exact ⟨_, _, follow_missing_collect treated policy, rfl, rfl⟩
                | fail =>
                    have silent := found policy _ List.mem_cons_self
                    rw [Project.note?, treated] at silent
                    exact absurd silent (by simp)
            | target location =>
                exact ⟨_, _, follow_target treated, files_meet .., exclusions_meet ..⟩
          obtain ⟨replacement, between, first, files, exclusions⟩ := followed
          obtain ⟨text, after, linked⟩ := ih between (by rwa [files, exclusions])
          exact ⟨replacement ++ text, after, by rw [linkAll, first]; simp only [linked]⟩

/-- **A `location` that compiles becomes a module** where no target is missing, or missing ones are
noted. -/
theorem exists_process_ok_of_found {source : String} {files : Workspace}
    (compiled : P.registry.compile walk.files location = (.ok source, files))
    (found : P.policy = .fail → ∀ segment ∈ P.segmentsOf location source,
      P.note? files walk.exclusions location segment = none) :
    ∃ record after, process P walk location = (.ok record, after) ∧ record.location = location ∧
      record.compiled = source := by
  obtain ⟨text, after, linked⟩ :=
    exists_linkAll_ok_of_found location (walk.known P files location) found
  refine ⟨⟨location, P.identityOf location, source, .ofList text⟩,
    { after with emitted := after.emitted ++ [location] }, ?_, rfl, rfl⟩
  rw [process_of_compile_ok compiled, linked]

/-- **Where missing targets are noted, whatever compiles becomes a module.** -/
theorem exists_process_ok (collects : P.policy = .collect) {source : String} {files : Workspace}
    (compiled : P.registry.compile walk.files location = (.ok source, files)) :
    ∃ record after, process P walk location = (.ok record, after) ∧ record.location = location ∧
      record.compiled = source := by
  have lenient : P.policy ≠ .fail := by
    rw [collects]
    decide
  exact exists_process_ok_of_found compiled fun strict => absurd strict lenient

end Walk

end ScriptBundle
