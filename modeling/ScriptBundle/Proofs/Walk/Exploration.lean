import Mathlib.Data.List.TakeWhile
import ScriptBundle.Proofs.Compiler.Registered
import ScriptBundle.Proofs.Walk.Drain
import ScriptBundle.Proofs.Walk.Entries

/-! # Explorations

A walk is a search: what it scheduled is found, and what left its queue was followed. Manifests are
scheduled behind the files they go with, but only where the file is no module yet, so it takes an
argument that none is missing: the manifest of whatever was scheduled was scheduled too.

* **`Project.broughtBy`** — what a location brings: the files it refers to, with their manifests;
* **`Project.Complete`** — paths that hold the manifests of all of them but some;
* **`Walk.Explores`** — the invariant of a walk as a search;
* **`Walk.Explores.drains`** — what holds at the end of a walk. -/

namespace ScriptBundle

/-- The `specifier` of a reference. -/
def Segment.specifier? : Segment → Option String
  | .char _ => none
  | .reference _ specifier => some (.ofList specifier)

namespace Project

variable (P : Project) (w : Workspace) (x : Exclusions)

/-- **The specifiers a module refers to**, in the order they stand in it. -/
def specifiersOf (location : Path) (compiled : String) : List String :=
  (P.segmentsOf location compiled).filterMap Segment.specifier?

/-- **The file a `specifier` means** in another file, unless the host has a module of that name or it is
kept out. -/
def meantBy? (referrer : Path) (specifier : String) : Option Path :=
  if isHostModule specifier || x.holdsName specifier then none
  else match P.resolve w specifier referrer.folder with
    | .ok (.file target) => if x.holdsFile target then none else some target
    | _ => none

/-- **What a `location` brings**: the files it refers to, each with the manifest that goes with it. What
is kept out brings nothing. -/
def broughtBy (location : Path) : List Path :=
  if x.holdsFile location then []
  else match (P.registry.compile w location).1 with
    | .error _ => []
    | .ok compiled => ((P.specifiersOf location compiled).filterMap
        (P.meantBy? w x location)).flatMap (P.withManifest w)

/-- The target of a segment is what its specifier means, if it has one. -/
theorem target?_eq (referrer : Path) (segment : Segment) :
    P.target? w x referrer segment = segment.specifier?.bind (P.meantBy? w x referrer) := by
  cases segment with
  | char c => rfl
  | reference text specifier =>
      rw [Segment.specifier?, Option.bind_some, target?, meantBy?, treatment]
      -- both sides ask the same questions, in the same order
      cases excluded : isHostModule (.ofList specifier) || x.holdsName (.ofList specifier) with
      | true => rfl
      | false =>
          cases resolved : P.resolve w (.ofList specifier) referrer.folder with
          | error cause => rfl
          | ok found =>
              cases found with
              | host name => rfl
              | file target =>
                  cases kept : x.holdsFile target with
                  | true => by_cases rooted : Specifier.kind (.ofList specifier) = .absolute <;>
                      simp [kept, rooted]
                  | false => simp [kept]

/-- The files a module refers to, by its specifiers. -/
theorem targetsOf_eq (location : Path) (compiled : String) :
    P.targetsOf w x location compiled =
      (P.specifiersOf location compiled).filterMap (P.meantBy? w x location) := by
  rw [targetsOf, specifiersOf, List.filterMap_filterMap]
  exact List.filterMap_congr fun segment _ => P.target?_eq w x location segment

variable {P w x} {exempt found targets : List Path} {p q : Path}

/-- What a `specifier` means in a file is found from its folder. -/
theorem resolve_of_meantBy? {referrer target : Path} {specifier : String}
    (h : P.meantBy? w x referrer specifier = some target) :
    P.resolve w specifier referrer.folder = .ok (.file target) := by
  unfold meantBy? at h
  split at h
  · simp at h
  · split at h
    · rename_i found resolved
      split at h
      · simp at h
      · cases h
        exact resolved
    · simp at h

/-- **A relative `specifier` that names a file**, with or without one of the extensions. -/
theorem meantBy?_of_asFile? {referrer folder target : Path} {specifier : String}
    (named : isHostModule specifier = false ∧ x.holdsName specifier = false)
    (relative : Specifier.kind specifier = .relative ∧ Specifier.isFolderOnly specifier = false)
    (rooted : w.absolute referrer.folder = .ok folder)
    (file : asFile? w P.extensions (folder.join ⟨specifier⟩).normalize = some target)
    (kept : x.holdsFile target = false) : P.meantBy? w x referrer specifier = some target := by
  have found : lookup? w P.extensions specifier folder = some target := by
    rw [lookup?, relative.1, relative.2]
    simp [asPath?, file]
  rw [meantBy?, named.1, named.2, Project.resolve, ScriptBundle.resolve, named.1, rooted]
  simp [found, kept]

/-! ## Manifests -/

/-- **Tight paths that hold the manifests of all of them** but of those that are exempt. -/
structure Complete (P : Project) (w : Workspace) (exempt found : List Path) : Prop where
  /-- The paths are tight. -/
  tight : ∀ p ∈ found, p.IsTight
  /-- The manifest of each of them that is not exempt is one of them. -/
  manifests : ∀ p ∈ found, p ∉ exempt → ∀ manifest, P.manifestOf? w p = some manifest →
    manifest ∈ found

/-- A tight path that is among tight paths is one of them. -/
theorem Complete.mem_of_isAmong (h : Complete P w exempt found) (tight : p.IsTight)
    (known : p.isAmong found = true) : p ∈ found := by
  obtain ⟨q, hq, same⟩ := List.mem_map.mp (Path.isAmong_iff.mp known)
  exact (h.tight q hq).eq_of_parts_eq tight same ▸ hq

/-- What goes with one of them is among them. -/
theorem Complete.isAmong_withManifest (h : Complete P w exempt found) (tight : p.IsTight)
    (counts : p ∉ exempt) (known : p.isAmong found = true) (hq : q ∈ P.withManifest w p) :
    q.isAmong found = true := by
  have member := h.mem_of_isAmong tight known
  rcases List.mem_cons.mp hq with rfl | manifest
  · exact known
  · exact Path.isAmong_of_mem (h.manifests p member counts q (Option.mem_toList.mp manifest))

/-- **A file and its manifest more.** -/
theorem Complete.withManifest (h : Complete P w exempt found) (tight : p.IsTight) :
    Complete P w exempt ((P.withManifest w p).foldl Path.addNew found) := by
  have grown : found ⊆ (P.withManifest w p).foldl Path.addNew found :=
    (Path.prefix_foldl_addNew ..).subset
  have all : ∀ q ∈ (P.withManifest w p).foldl Path.addNew found, q.IsTight := by
    intro q hq
    rcases Path.mem_of_mem_foldl_addNew hq with old | new
    · exact h.tight q old
    · exact isTight_of_mem_withManifest tight new
  refine ⟨all, fun q hq counts manifest nearest => ?_⟩
  rcases Path.mem_of_mem_foldl_addNew hq with old | new
  · exact grown (h.manifests q old counts manifest nearest)
  -- the manifest of a new path goes with `p` as well, so it was added or is known by its parts
  · have same := mem_withManifest_of_manifestOf? tight.isAbsolute new nearest
    have known : manifest.isAmong ((P.withManifest w p).foldl Path.addNew found) = true :=
      Path.isAmong_foldl_addNew same
    obtain ⟨r, hr, spelled⟩ := List.mem_map.mp (Path.isAmong_iff.mp known)
    exact (all r hr).eq_of_parts_eq (isTight_of_mem_withManifest tight same) spelled ▸ hr

/-- **Some files and their manifests more.** -/
theorem Complete.flatMap (h : Complete P w exempt found) (tight : ∀ p ∈ targets, p.IsTight) :
    Complete P w exempt ((targets.flatMap (P.withManifest w)).foldl Path.addNew found) := by
  induction targets generalizing found with
  | nil => exact h
  | cons target rest ih =>
      rw [List.flatMap_cons, List.foldl_append]
      exact ih (h.withManifest (tight target List.mem_cons_self))
        fun p hp => tight p (List.mem_cons_of_mem _ hp)

end Project

namespace Walk

open Project (Complete)

variable {P : Project} {w : Workspace} {x : Exclusions} {seeds gone : List Path}
  {walk after final : Walk} {record : ModuleRecord} {steps : List (ModuleRecord × Walk)} {p : Path}

/-! ## Walks as searches -/

/-- **A `walk` as a search**, over files that stay as they are. -/
structure Explores (P : Project) (w : Workspace) (x : Exclusions) (seeds gone : List Path)
    (walk : Walk) : Prop where
  /-- The files are those it started with. -/
  files_eq : walk.files = w
  /-- Nothing more is kept out. -/
  exclusions_eq : walk.exclusions = x
  /-- What left the queue comes first in what was scheduled. -/
  orderly : Orderly gone walk
  /-- What was scheduled is what was found once what left the queue was followed. -/
  discovers : Path.Discovers seeds (P.broughtBy w x) gone walk.scheduled
  /-- No manifest is missing. -/
  complete : Complete P w [] walk.scheduled
  /-- The modules are what left the queue and is not kept out. -/
  emitted_eq : walk.emitted = gone.filter fun p => !x.holdsFile p

/-- What waits is no module. -/
theorem Orderly.hasEmitted_of_mem_queue (h : Orderly gone walk) (hp : p ∈ walk.queue) :
    walk.hasEmitted p = false := by
  have apart := h.nodup
  rw [h.scheduled_eq, List.map_append] at apart
  have waits : p.parts ∈ walk.queue.map Path.parts := List.mem_map_of_mem hp
  cases emitted : walk.hasEmitted p with
  | false => rfl
  | true =>
      have left := Path.isAmong_iff.mp (Path.isAmong_mono h.emitted_sublist.subset emitted)
      exact absurd rfl ((List.nodup_append.mp apart).2.2 _ left _ waits)

/-- **What waits is passed over only if it is kept out.** -/
theorem Orderly.passesOver_of_mem_queue (h : Orderly gone walk) (hp : p ∈ walk.queue) :
    walk.passesOver p = walk.exclusions.holdsFile p := by
  rw [passesOver, h.hasEmitted_of_mem_queue hp, Bool.false_or]

namespace Explores

/-- What is passed over is kept out. -/
theorem holdsFile_of_passed (h : Explores P w x seeds gone walk)
    (hp : p ∈ walk.queue.takeWhile walk.passesOver) : x.holdsFile p = true := by
  have waits : p ∈ walk.queue := (List.takeWhile_prefix walk.passesOver).subset hp
  rw [← h.exclusions_eq, ← h.orderly.passesOver_of_mem_queue waits]
  exact List.mem_takeWhile_imp hp

/-- **What is passed over brings nothing**, and is no module. -/
theorem pass (h : Explores P w x seeds gone walk) :
    Path.Discovers seeds (P.broughtBy w x) (gone ++ walk.queue.takeWhile walk.passesOver)
        walk.scheduled ∧
      walk.emitted = (gone ++ walk.queue.takeWhile walk.passesOver).filter
        fun p => !x.holdsFile p := by
  refine ⟨h.discovers.pass ?_ fun p hp => ?_, ?_⟩
  · rw [h.orderly.scheduled_eq]
    exact (List.prefix_append_right_inj gone).mpr (List.takeWhile_prefix _)
  · rw [Project.broughtBy, if_pos (h.holdsFile_of_passed hp)]
  · have none : (walk.queue.takeWhile walk.passesOver).filter (fun p => !x.holdsFile p) = [] :=
      List.filter_eq_nil_iff.mpr fun p hp => by simp [h.holdsFile_of_passed hp]
    rw [List.filter_append, none, List.append_nil]
    exact h.emitted_eq

/-- **A step that makes a module goes on with the search.** -/
theorem next (spelled : ∀ e ∈ P.extensions, IsTightExtension e)
    (leaves : P.registry.Holds fun _ compiler => compiler.LeavesFiles)
    (h : Explores P w x seeds gone walk) (e : walk.next P = (some (.ok record), after)) :
    Explores P w x seeds (gone ++ walk.taken) after := by
  have makes := makes_of_next h.orderly e
  have orderly := h.orderly.next (P := P)
  rw [e] at orderly
  -- the compilers leave the files, so what a location brings is what it would bring at the start
  have files : after.files = w := by
    have same := Registry.files_compile leaves walk.files record.location
    rw [makes.compiled_eq, h.files_eq] at same
    exact same
  have exclusions : after.exclusions = x := makes.exclusions_eq.trans h.exclusions_eq
  have kept : x.holdsFile record.location = false := by
    have both := (Bool.or_eq_false_iff ..).mp makes.passesOver_eq
    rw [← h.exclusions_eq]
    exact both.2
  let targets := P.targetsOf w x record.location record.compiled
  have tight : ∀ p ∈ targets, p.IsTight := fun p hp => by
    obtain ⟨⟨specifier, resolved⟩, -⟩ := Project.resolve_of_mem_targetsOf P w x hp
    exact isTight_of_resolve spelled resolved
  -- what `broughtBy` says of the location is what the step put into the queue
  have brings : P.broughtBy w x record.location = targets.flatMap (P.withManifest w) := by
    have compiled := makes.compiled_eq
    rw [h.files_eq] at compiled
    rw [Project.broughtBy, kept, compiled]
    exact congrArg (List.flatMap _) (Project.targetsOf_eq ..).symm
  -- a target that is a module was scheduled, and its manifest with it
  have scheduled : after.scheduled =
      (P.broughtBy w x record.location).foldl Path.addNew walk.scheduled := by
    rw [makes.scheduled_eq, brings, files, exclusions]
    refine Path.foldl_addNew_flatMap fun target ht => ?_
    by_cases emitted : walk.hasEmitted target = true
    · exact .inr ⟨if_pos emitted, fun q hq =>
        h.complete.isAmong_withManifest (tight target ht) List.not_mem_nil
          (h.orderly.hasScheduled emitted) hq⟩
    · exact .inl (if_neg emitted)
  obtain ⟨passed, modules⟩ := h.pass
  -- the location is the next one behind what was passed over
  have reached : gone ++ walk.queue.takeWhile walk.passesOver ++ [record.location] <+:
      walk.scheduled := by
    have whole := taken_append_drop walk
    rw [makes.taken_eq] at whole
    refine ⟨(walk.queue.dropWhile walk.passesOver).drop 1, ?_⟩
    rw [h.orderly.scheduled_eq, List.append_assoc gone, List.append_assoc gone, whole]
  refine ⟨files, exclusions, orderly, ?_, ?_, ?_⟩
  · rw [scheduled, makes.taken_eq, ← List.append_assoc]
    exact passed.follow reached
  · rw [scheduled, brings]
    exact h.complete.flatMap tight
  · rw [makes.emitted_eq, modules, makes.taken_eq, ← List.append_assoc,
      List.filter_append _ [record.location]]
    simp [kept]

/-- **A `walk` that comes to its end is a whole search**, and the modules are what was found and is not
kept out. -/
theorem drains (spelled : ∀ e ∈ P.extensions, IsTightExtension e)
    (leaves : P.registry.Holds fun _ compiler => compiler.LeavesFiles)
    (h : Explores P w x seeds gone walk) (drained : Drains P walk steps none final) :
    Path.IsDiscovery seeds (P.broughtBy w x) final.scheduled ∧
      final.emitted = final.scheduled.filter fun p => !x.holdsFile p := by
  -- `Explores` holds in front of every step; at the last walk all that waits is passed over
  generalize e : (none : Option BundleError) = failure at drained
  induction drained generalizing gone with
  | @done walk after last =>
      have empty := dropWhile_of_next_none last
      obtain ⟨passed, modules⟩ := h.pass
      have all : walk.queue.takeWhile walk.passesOver = walk.queue := by
        have whole := List.takeWhile_append_dropWhile (p := walk.passesOver) (l := walk.queue)
        rwa [empty, List.append_nil] at whole
      obtain rfl := eq_of_next_none last
      rw [all, ← h.orderly.scheduled_eq] at passed modules
      exact ⟨passed, modules⟩
  | failed => cases e
  | step first rest ih => exact ih (h.next spelled leaves first) e

end Explores

end Walk

end ScriptBundle
