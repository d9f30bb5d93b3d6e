import ScriptBundle.BundleError
import ScriptBundle.DependencyGraph
import ScriptBundle.Walk.Treatment

/-! # Walks

The way from an entry script to the modules of an artifact. Locations wait in a queue in the order
they were met; each is scheduled once, and becomes a module at most once, so that circular
references come to an end. Locations are compared by the parts of their paths. A compiler may make
files, so that a walk need not come to an end: it is followed for a limited number of steps.

* **`Walk.start`** — the walk in front of the entry script;
* **`Walk.include?`, `Walk.exclude?`** — a specifier added to the modules, or kept out; an error
  leaves the walk as it is;
* **`Walk.next`** — the next module, and the walk behind it;
* **`Walk.all`** — the modules until none is left, if that is so within a limit. -/

namespace ScriptBundle

/-- **A module of an `artifact`.** -/
structure ModuleRecord where
  /-- The file. -/
  location : Path
  /-- Its name inside the artifact. -/
  identity : Identity
  /-- What its compiler gave. -/
  compiled : String
  /-- The same without an interpreter line and with its references replaced. -/
  linked : String
deriving DecidableEq, Repr

/-- **A reference without a target**, noted during a walk. -/
structure UnresolvedReference where
  /-- The specifier. -/
  specifier : String
  /-- The file it stands in. -/
  referrer : Path
  /-- The wording of the failed search. -/
  message : String
deriving DecidableEq, Repr

/-- The wording of a noted reference. -/
def UnresolvedReference.text (u : UnresolvedReference) : String :=
  "can't locate '" ++ u.specifier ++ "' (required by '" ++ u.referrer.text ++ "'): " ++ u.message

/-- **What is said about an override that has no effect.** -/
inductive Notice
  /-- A host module cannot be packed. -/
  | hostModule (name : String)
  /-- An excluded module is not packed. -/
  | excludedModule (specifier : String)
deriving DecidableEq, Repr

/-- The wording of a notice. -/
def Notice.message : Notice → String
  | hostModule name => "'" ++ name ++ "' is a host built-in and can't be included"
  | excludedModule specifier => "'" ++ specifier ++ "' is excluded and won't be included"

/-- **A walk.** -/
structure Walk where
  /-- The files as they are now; a compiler may change them. -/
  files : Workspace
  /-- The locations that wait. -/
  queue : List Path
  /-- Every location that was ever put into the queue, in that order. -/
  scheduled : List Path
  /-- The locations that became modules, in that order. -/
  emitted : List Path
  /-- What is kept out. -/
  exclusions : Exclusions
  /-- The references without a target, in the order they were met. -/
  unresolved : List UnresolvedReference
  /-- Which module refers to which. -/
  graph : DependencyGraph
deriving Inhabited

namespace Walk

/-- Whether a `location` became a module. -/
def hasEmitted (walk : Walk) (location : Path) : Bool := location.isAmong walk.emitted

/-- Whether a `location` was ever put into the queue. -/
def hasScheduled (walk : Walk) (location : Path) : Bool := location.isAmong walk.scheduled

/-- **A `location` put into the queue**, unless it was before. -/
def enqueue (walk : Walk) (location : Path) : Walk :=
  if walk.hasEmitted location || walk.hasScheduled location then walk
  else { walk with
    queue := walk.queue ++ [location]
    scheduled := walk.scheduled ++ [location] }

/-- A `location` and the manifest that goes with it put into the queue. -/
def enqueueWithManifest (P : Project) (walk : Walk) (location : Path) : Walk :=
  match P.manifestOf? walk.files location with
  | some manifest => (walk.enqueue location).enqueue manifest
  | none => walk.enqueue location

/-- **The walk in front of the `entry` script.** -/
def start (P : Project) (w : Workspace) : Walk :=
  enqueue ⟨w, [], [], [], .none, [], .empty⟩ P.entry

/-! ## Overrides -/

/-- **A `specifier` added to the modules.** It is resolved from the folder of the entry script. -/
def include? (P : Project) (walk : Walk) (specifier : String) :
    Except BundleError (Option Notice × Walk) :=
  match P.resolve walk.files specifier P.base with
  | .error cause => .error (.setup .included specifier cause)
  | .ok (.host name) => .ok (some (.hostModule name), walk)
  | .ok (.file location) =>
    if walk.exclusions.holdsFile location then .ok (some (.excludedModule specifier), walk)
    else .ok (none, walk.enqueueWithManifest P location)

/-- **A `specifier` kept out.** A bare one is kept out by its name wherever it stands, and need not
have a target; any other is kept out by its file. -/
def exclude? (P : Project) (walk : Walk) (specifier : String) : Except BundleError Walk :=
  if isHostModule specifier then .ok walk
  else
    let byName := Specifier.kind specifier == .bare
    let x := walk.exclusions
    let names := if byName then x.names ++ [specifier] else x.names
    match P.resolve walk.files specifier P.base with
    | .ok (.file location) => .ok { walk with exclusions := ⟨names, x.files ++ [location.parts]⟩ }
    | .ok (.host _) => .ok { walk with exclusions := ⟨names, x.files⟩ }
    | .error cause =>
      if byName then .ok { walk with exclusions := ⟨names, x.files⟩ }
      else .error (.setup .excluded specifier cause)

/-! ## Modules -/

/-- **One reference followed**: the text it is replaced by, and the `walk` behind it. -/
def follow (P : Project) (referrer : Path) (walk : Walk) (text specifier : List Char) :
    Except BundleError (List Char) × Walk :=
  let name := String.ofList specifier
  match P.treatment walk.files walk.exclusions referrer name with
  | .literal => (.ok text, walk)
  | .outside path => (.ok (Call.write path).toList, walk)
  | .missing cause =>
    match P.policy with
    | .fail => (.error (.unresolvedReference name referrer cause), walk)
    | .collect =>
      (.ok text, { walk with unresolved := walk.unresolved ++ [⟨name, referrer, cause.message⟩] })
  | .target location =>
    let identity := P.identityOf location
    let linked := { walk with graph := walk.graph.addDependency (P.identityOf referrer) identity }
    (.ok (Call.write identity.text).toList,
      if walk.hasEmitted location then linked else linked.enqueueWithManifest P location)

/-- **The segments of a script with its references replaced**, and the `walk` behind them. The first
reference that fails ends it. -/
def linkAll (P : Project) (referrer : Path) :
    Walk → List Segment → Except BundleError (List Char) × Walk
  | walk, [] => (.ok [], walk)
  | walk, .char c :: rest =>
    match linkAll P referrer walk rest with
    | (.ok cs, after) => (.ok (c :: cs), after)
    | (.error e, after) => (.error e, after)
  | walk, .reference text specifier :: rest =>
    match follow P referrer walk text specifier with
    | (.error e, after) => (.error e, after)
    | (.ok replacement, between) =>
      match linkAll P referrer between rest with
      | (.ok cs, after) => (.ok (replacement ++ cs), after)
      | (.error e, after) => (.error e, after)

/-- **A `location` made a module** by a given compiler. A compile error leaves all but the files as it
is. -/
def processBy (compiler : Compiler) (P : Project) (walk : Walk) (location : Path) :
    Except BundleError ModuleRecord × Walk :=
  match compiler.compile walk.files location with
  | (.error cause, files) => (.error (.compilation location cause), { walk with files })
  | (.ok compiled, files) =>
    let identity := P.identityOf location
    let known := { walk with files, graph := (walk.graph.addModule identity).1 }
    let source := Script.withoutDirective compiled.toList
    let (result, after) :=
      if compiler.emitsReferences then linkAll P location known (Script.segments source)
      else (.ok source, known)
    match result with
    | .error e => (.error e, after)
    | .ok text =>
      (.ok ⟨location, identity, compiled, String.ofList text⟩,
        { after with emitted := after.emitted ++ [location] })

/-- **A `location` made a module** by the compiler that is registered for its extension. -/
def process (P : Project) (walk : Walk) (location : Path) :
    Except BundleError ModuleRecord × Walk :=
  processBy (P.registry.compilerFor location.extension) P walk location

/-- Whether a waiting `location` is passed over: it became a module before, or is kept out. -/
def passesOver (walk : Walk) (location : Path) : Bool :=
  walk.hasEmitted location || walk.exclusions.holdsFile location

/-- **The next module**, and the `walk` behind it; none once no location waits. A location whose
processing fails is not tried again. -/
def next (P : Project) (walk : Walk) : Option (Except BundleError ModuleRecord) × Walk :=
  match walk.queue.dropWhile walk.passesOver with
  | [] => (none, { walk with queue := [] })
  | location :: rest =>
    let (result, after) := process P { walk with queue := rest } location
    (some result, after)

/-- **The modules until none is left** or one fails, and the `walk` behind them. There is no result
where this takes more steps than the limit. -/
def all (P : Project) (limit : Nat) (walk : Walk) :
    Option (Except BundleError (List ModuleRecord) × Walk) :=
  match limit with
  | 0 => none
  | limit + 1 =>
    match next P walk with
    | (none, after) => some (.ok [], after)
    | (some (.error e), after) => some (.error e, after)
    | (some (.ok record), after) =>
      (all P limit after).map fun (records, final) => (records.map (record :: ·), final)

/-! ## First properties -/

/-- At the `start` of a walk the entry script waits alone. -/
@[simp] theorem queue_start (P : Project) (w : Workspace) : (start P w).queue = [P.entry] := rfl

/-- At the `start` of a walk nothing is a module. -/
@[simp] theorem emitted_start (P : Project) (w : Workspace) : (start P w).emitted = [] := rfl

/-- A `location` that became a module is not put into the queue again. -/
theorem enqueue_of_hasEmitted {walk : Walk} {location : Path}
    (h : walk.hasEmitted location = true) : walk.enqueue location = walk := by
  simp [enqueue, h]

/-- No location waits behind the last module. -/
theorem queue_of_next_none {P : Project} {walk after : Walk} (h : next P walk = (none, after)) :
    after.queue = [] := by
  unfold next at h
  split at h
  · simp only [Prod.mk.injEq, true_and] at h
    exact h ▸ rfl
  · simp at h

end Walk

end ScriptBundle
