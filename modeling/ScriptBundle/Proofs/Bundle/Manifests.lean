import Mathlib.Data.Option.Basic
import ScriptBundle.Proofs.Bundle.Closure
import ScriptBundle.Proofs.Resolution.Candidates
import ScriptBundle.Proofs.Stream.Drained

/-! # Manifests that are no documents

A search passes over a manifest that cannot be read or has no `main`, and goes on with the index of
the folder. A walk does not: the manifest that goes with a file in a dependency folder waits like
any other location, and has to compile at its turn. So a bundle succeeds if all that it gathers can
be made modules, these manifests included, whatever the others hold.

* **`Path.Gathered`** — what some locations bring, directly or not;
* **`asFolder?_of_main_none`** — a folder whose manifest says nothing is found by its index;
* **`bundle_of_gathered`** — a bundle succeeds where all that it gathers can be made modules;
* **`bundle_ok_iff_gathered`** — and only there, for extensions that spell no idle piece. -/

namespace ScriptBundle

open Walk (Drains)

/-- **What some locations bring**, directly or not, where each `location` brings some others. -/
inductive Path.Gathered (brings : Path → List Path) (start : List Path) : Path → Prop
  /-- A location to start from. -/
  | listed {p : Path} : p ∈ start → Gathered brings start p
  /-- A location that one of them brings. -/
  | brought {p q : Path} : Gathered brings start p → q ∈ brings p → Gathered brings start q

/-- **What is gathered** lies in every closed set that holds the start. -/
theorem Path.Gathered.mem_of_closed {brings : Path → List Path} {start found : List Path}
    (listed : start ⊆ found) (closed : ∀ p ∈ found, brings p ⊆ found) {p : Path}
    (h : Path.Gathered brings start p) : p ∈ found := by
  induction h with
  | listed hp => exact listed hp
  | brought _ hq ih => exact closed _ ih hq

variable {P : Project} {w : Workspace} {x : Exclusions} {walk final : Walk} {entry folder : Path}
  {options : Options} {steps : List (ModuleRecord × Walk)}

/-! ## Searches -/

/-- **The form of a document**: the `tokens` of a text are one JSON value, whatever values they have.
-/
def Json.HasForm (text : String) : Prop :=
  ∃ tokens, Json.tokens? text.toList = some tokens ∧
    tokens.foldlM Json.Position.step .start = some .complete

namespace Manifest

open Json (Token Position)

/-- A manifest is read along the grammar of documents. -/
theorem position_of_step {reading next : Reading} {token : Token}
    (h : reading.step token = some next) : reading.position.step token = some next.position := by
  obtain ⟨position, moves, h⟩ := Option.bind_eq_some_iff.mp h
  rw [moves]
  -- whichever field the token is read for, the position behind it is the same
  split at h
  · exact congrArg (fun r => some r.position) (Option.some.inj h)
  · split at h
    · obtain ⟨_, -, h⟩ := Option.bind_eq_some_iff.mp h
      exact congrArg (fun r => some r.position) (Option.some.inj h)
    · obtain ⟨_, -, h⟩ := Option.bind_eq_some_iff.mp h
      exact congrArg (fun r => some r.position) (Option.some.inj h)
    · split at h
      · exact congrArg (fun r => some r.position) (Option.some.inj h)
      · obtain ⟨_, -, h⟩ := Option.bind_eq_some_iff.mp h
        obtain ⟨_, -, h⟩ := Option.bind_eq_some_iff.mp h
        exact congrArg (fun r => some r.position) (Option.some.inj h)
    · exact congrArg (fun r => some r.position) (Option.some.inj h)

/-- A reader of a manifest, a `Reading`, takes the same steps as the machine that checks its tokens. -/
theorem position_of_foldlM {tokens : List Token} {reading last : Reading}
    (h : tokens.foldlM Reading.step reading = some last) :
    tokens.foldlM Position.step reading.position = some last.position := by
  induction tokens generalizing reading with
  | nil => exact congrArg (fun r => some r.position) (Option.some.inj h)
  | cons token rest ih =>
      obtain ⟨next, first, later⟩ := Option.bind_eq_some_iff.mp h
      rw [List.foldlM_cons, position_of_step first]
      exact ih later

/-- **A manifest with a `main`** has the form of a document. -/
theorem hasForm_of_main? {text main : String} (h : main? text = some main) : Json.HasForm text := by
  obtain ⟨tokens, cut, h⟩ := Option.bind_eq_some_iff.mp h
  obtain ⟨chars, read, -⟩ := Option.bind_eq_some_iff.mp h
  refine ⟨tokens, cut, ?_⟩
  unfold mainOfTokens? at read
  split at read
  · rename_i value
    cases value with
    | text raw => rfl
    | null => rfl
    | _ => simp [mainValue?] at read
  · obtain ⟨last, whole, read⟩ := Option.bind_eq_some_iff.mp read
    obtain ⟨_, ended, -⟩ := Option.bind_eq_some_iff.mp read
    have complete : last.position = .complete := by
      by_contra open_end
      rw [guard, if_neg open_end] at ended
      simp at ended
    rw [← complete]
    exact position_of_foldlM whole
  · simp at read

end Manifest

/-- **A folder whose manifest says nothing** is found by its index: there is none, it cannot be
read, it has not the form of a document, or it is a document without a `main`. -/
theorem asFolder?_of_main_none {extensions : List String}
    (silent : ∀ text, w.readText (folder.join ⟨Package.manifestName⟩) = .ok text →
      Json.HasForm text → Manifest.main? text = none) :
    asFolder? w extensions folder = asIndex? w extensions folder := by
  have none : manifestMain? w folder = none := by
    by_contra found
    obtain ⟨main, has⟩ := Option.ne_none_iff_exists'.mp found
    obtain ⟨-, text, read, named, -⟩ := manifestMain?_eq_some_iff.mp has
    rw [silent text read (Manifest.hasForm_of_main? named)] at named
    simp at named
  rw [asFolder?, none]

/-! ## Bundles -/

namespace Project

variable (P w x)

/-- **The files a `location` refers to.** What is kept out or does not compile refers to none. -/
def referredBy (location : Path) : List Path :=
  if x.holdsFile location then []
  else match (P.registry.compile w location).1 with
    | .error _ => []
    | .ok compiled => P.targetsOf w x location compiled

end Project

namespace Bundle

/-- **What a bundle gathers**: the `entry` script, what the included specifiers add, and whatever
these bring. -/
def IsGathered (P : Project) (w : Workspace) (x : Exclusions) (options : Options) : Path → Prop :=
  Path.Gathered (P.broughtPast w x) (P.entry :: options.included.flatMap (P.addedBy w x))

/-- What a `setup` scheduled is gathered. -/
theorem isGathered_of_scheduled {p : Path} (made : (setup w entry options).2 = .ok (P, walk))
    (hp : p ∈ walk.scheduled) : IsGathered P w walk.exclusions options p :=
  .listed (List.mem_cons.mpr ((mem_scheduled_of_setup made hp).imp_right List.mem_flatMap.mpr))

/-- **A `walk` stays among what its bundle gathers**, and ends there without a failure if all of it
can be made modules. -/
theorem exists_drains_of_isGathered (made : (setup w entry options).2 = .ok (P, walk))
    (leaves : ∀ p, (P.registry.compile w p).2 = w)
    (packable : ∀ p, IsGathered P w walk.exclusions options p → walk.exclusions.holdsFile p = false →
      P.Packable w walk.exclusions p) :
    ∃ steps final, Drains P walk steps none final ∧
      ∀ p ∈ final.scheduled, IsGathered P w walk.exclusions options p := by
  exact (steady_of_setup made).exists_drains leaves (fun p hp => isGathered_of_scheduled made hp)
    packable fun p hp q hq => hp.brought hq

/-- **What a bundle gathers was `scheduled`** where its walk ends without a failure. -/
theorem Ends.scheduled_of_isGathered (made : (setup w entry options).2 = .ok (P, walk))
    (spelled : ∀ e ∈ P.extensions, IsTightExtension e) (order : walk.scheduled ⊆ final.scheduled)
    (h : Ends P w walk.exclusions steps final) {p : Path}
    (gathered : IsGathered P w walk.exclusions options p) : p ∈ final.scheduled := by
  refine gathered.mem_of_closed (fun q hq => order ?_) h.closed
  exact scheduled_of_mem_addedBy made spelled ((List.mem_cons.mp hq).imp_right List.mem_flatMap.mp)

end Bundle

open ScriptBundle.Bundle (IsGathered)

/-- **A `bundle` succeeds where all that it gathers can be made modules**, unless it is kept out. Of
the manifests, that asks only for those that go with an included file or with a file that is
referred to; a search passes over any manifest that says nothing. -/
theorem bundle_of_gathered (made : (Bundle.setup w entry options).2 = .ok (P, walk))
    (leaves : ∀ compiler ∈ options.compilers, compiler.LeavesFiles)
    (packable : ∀ p, IsGathered P w walk.exclusions options p → walk.exclusions.holdsFile p = false →
      P.Packable w walk.exclusions p) :
    (∃ limit output, bundle limit w entry options = some (.ok output)) ∧
      ∀ folder, (∀ text, w.readText (folder.join ⟨Package.manifestName⟩) = .ok text →
        Json.HasForm text → Manifest.main? text = none) →
        asFolder? w P.extensions folder = asIndex? w P.extensions folder := by
  obtain ⟨steps, final, drained, -⟩ :=
    Bundle.exists_drains_of_isGathered made (Bundle.files_compile_of_setup made leaves) packable
  obtain ⟨limit, whole⟩ := bundle_eq_ok_iff.mpr ⟨P, walk, steps, final, made, drained, rfl⟩
  exact ⟨⟨limit, _, whole⟩, fun folder => asFolder?_of_main_none⟩

/-- A script that refers to a folder of three files: an index, a manifest, and nothing else that
counts. The manifest is no document. -/
def brokenManifestTree (specifier : String) (folder : Place) : Workspace :=
  ⟨⟨[(["a.js"], .text ("require('" ++ specifier ++ "')")), (folder ++ ["index.js"], .text ""),
    (folder ++ ["package.json"], .text "\x7b")], []⟩, []⟩

/-- The script and the index of the folder are all that a `bundle` gathers, and they can be made
modules: the manifest is in no dependency folder, and the search passes over it. -/
theorem bundle_of_gathered_brokenManifest :
    ∃ P walk, (Bundle.setup (brokenManifestTree "./lib" ["lib"]) ⟨"a.js"⟩ noteOptions).2 =
        .ok (P, walk) ∧
      (∀ compiler ∈ noteOptions.compilers, compiler.LeavesFiles) ∧
      (∀ p, IsGathered P (brokenManifestTree "./lib" ["lib"]) walk.exclusions noteOptions p →
        walk.exclusions.holdsFile p = false →
        P.Packable (brokenManifestTree "./lib" ["lib"]) walk.exclusions p) ∧
      (∃ limit output,
        bundle limit (brokenManifestTree "./lib" ["lib"]) ⟨"a.js"⟩ noteOptions = some (.ok output)) ∧
      asFolder? (brokenManifestTree "./lib" ["lib"]) P.extensions ⟨"/lib"⟩ =
        asIndex? (brokenManifestTree "./lib" ["lib"]) P.extensions ⟨"/lib"⟩ := by
  have made : (Bundle.setup (brokenManifestTree "./lib" ["lib"]) ⟨"a.js"⟩ noteOptions).2 =
      .ok (noteProject, .start noteProject (brokenManifestTree "./lib" ["lib"])) :=
    Bundle.setup_of_registerAll (by decide +kernel) rfl
  have leaves : ∀ compiler ∈ noteOptions.compilers, compiler.LeavesFiles := by
    intro compiler h w p
    rw [List.mem_singleton.mp h]
    rfl
  have packable : ∀ p, IsGathered noteProject (brokenManifestTree "./lib" ["lib"]) .none noteOptions p →
      Exclusions.none.holdsFile p = false →
      noteProject.Packable (brokenManifestTree "./lib" ["lib"]) .none p := by
    intro p gathered _
    have listed : p ∈ [⟨"/a.js"⟩, ⟨"/lib/index.js"⟩] :=
      gathered.mem_of_closed (by decide +kernel) (by decide +kernel)
    rcases List.mem_pair.mp listed with rfl | rfl
    · exact ⟨"require('./lib')", by decide +kernel, fun _ => by decide +kernel⟩
    · exact ⟨"", by decide +kernel, fun _ => by decide +kernel⟩
  obtain ⟨whole, falls_back⟩ := bundle_of_gathered made leaves packable
  refine ⟨noteProject, _, made, leaves, packable, whole, falls_back ⟨"/lib"⟩ fun text read _ => ?_⟩
  have content : (brokenManifestTree "./lib" ["lib"]).readText
      (Path.join ⟨"/lib"⟩ ⟨Package.manifestName⟩) = .ok "\x7b" := by
    decide +kernel
  rw [← Except.ok.inj (content.symm.trans read)]
  decide +kernel

/-- **A `bundle` succeeds exactly where all that it gathers can be made modules**, unless it is kept
out, for extensions that spell no idle piece. -/
theorem bundle_ok_iff_gathered (made : (Bundle.setup w entry options).2 = .ok (P, walk))
    (leaves : ∀ compiler ∈ options.compilers, compiler.LeavesFiles)
    (tight : ∀ compiler ∈ options.compilers, ∀ e ∈ compiler.extensions, IsTightExtension e) :
    (∃ limit output, bundle limit w entry options = some (.ok output)) ↔
      ∀ p, IsGathered P w walk.exclusions options p → walk.exclusions.holdsFile p = false →
        P.Packable w walk.exclusions p := by
  have leave := Bundle.files_compile_of_setup made leaves
  have spelled := Bundle.isTightExtension_of_setup made tight
  constructor
  · rintro ⟨limit, output, whole⟩ p gathered kept
    obtain ⟨P', walk', steps, final, made', drained, -⟩ := bundle_eq_ok_iff.mp ⟨limit, whole⟩
    obtain ⟨rfl, rfl⟩ := Prod.mk.inj (Except.ok.inj (made.symm.trans made'))
    have ends := Bundle.ends_of_drains made leave spelled drained
    have order := drained.scheduled_subset (Bundle.steady_of_setup made).orderly
    exact ends.packable p (ends.scheduled_of_isGathered made spelled order gathered) kept
  · intro packable
    obtain ⟨steps, final, drained, -⟩ := Bundle.exists_drains_of_isGathered made leave packable
    obtain ⟨limit, whole⟩ := bundle_eq_ok_iff.mpr ⟨P, walk, steps, final, made, drained, rfl⟩
    exact ⟨limit, _, whole⟩

/-! ## Manifests in dependency folders

What the script and the files that are referred to bring by their references alone is less than what
a bundle gathers. A manifest that goes with one of them can spoil the bundle, and so can a compiler
that changes the files that are referred to later. -/

/-- A compiler that takes scripts as they stand, and leaves no files. -/
def forgetfulCompiler : Compiler :=
  ⟨"forgetful", [".js"], true, fun w p => (readSource w p, ⟨⟨[], []⟩, []⟩)⟩

/-- The options with this compiler. -/
def forgetfulOptions : Options := ⟨[], [], [forgetfulCompiler], .fail⟩

/-- The project of these options. -/
def forgetfulProject : Project :=
  ⟨⟨"/a.js"⟩, ⟨[(".json", .document), (".js", forgetfulCompiler)]⟩, [".js", ".json"], .fail⟩

/-- **The script and the files that are referred to** can be made modules, and none of them is the
`manifest`. -/
def RefersSafely (P : Project) (w : Workspace) (manifest : Path) : Prop :=
  ∀ p, Path.Gathered (P.referredBy w .none) [P.entry] p → p ≠ manifest ∧ P.Packable w .none p

/-- A script that refers to an index, which refers to nothing. -/
theorem refersSafely_of_index {manifest : Path} (index : Path) (text : String)
    (apart : P.entry ≠ manifest ∧ index ≠ manifest)
    (refers : P.referredBy w .none P.entry = [index] ∧ P.referredBy w .none index = [])
    (gave : (P.registry.compile w P.entry).1 = .ok text ∧ (P.registry.compile w index).1 = .ok "")
    (found : ∀ specifier ∈ P.specifiersOf P.entry text,
      P.unresolvedBy? w .none P.entry specifier = none) : RefersSafely P w manifest := by
  intro p gathered
  have listed : p ∈ [P.entry, index] := by
    refine gathered.mem_of_closed (List.cons_subset.mpr ⟨List.mem_cons_self, List.nil_subset _⟩) ?_
    intro q hq
    rcases List.mem_pair.mp hq with rfl | rfl
    · rw [refers.1]
      exact List.subset_cons_self ..
    · rw [refers.2]
      exact List.nil_subset _
  rcases List.mem_pair.mp listed with rfl | rfl
  · exact ⟨apart.1, text, gave.1, fun _ => found⟩
  · refine ⟨apart.2, "", gave.2, fun _ specifier named => ?_⟩
    have nothing : P.specifiersOf p "" = [] := by
      rw [Project.specifiersOf, Project.segmentsOf]
      split <;> rfl
    exact absurd (nothing ▸ named) List.not_mem_nil

/-- A `bundle` whose walk ends with a failure does not succeed. -/
theorem bundle_ne_ok_of_drains (made : (Bundle.setup w entry options).2 = .ok (P, walk))
    {e : BundleError} (drained : Drains P walk steps (some e) final) (limit : Nat) (output : Output) :
    bundle limit w entry options ≠ some (.ok output) := by
  intro whole
  have ended := (ChunkStream.bundle_outcome made drained (.ok output)).mp ⟨limit, whole⟩
  simp [orFailure, Except.map] at ended

/-- The manifest of the dependency fails behind the script and the index. -/
theorem drains_brokenManifest : ∃ steps e final,
    Drains noteProject (.start noteProject (brokenManifestTree "x" ["node_modules", "x"])) steps
      (some e) final := by
  let first := Walk.start noteProject (brokenManifestTree "x" ["node_modules", "x"])
  let second := (first.next noteProject).2
  let third := (second.next noteProject).2
  have script : (first.next noteProject).1 = some (.ok ⟨⟨"/a.js"⟩, ⟨"/a.js"⟩, "require('x')",
      "require('/node_modules/x/index.js')"⟩) := by
    decide +kernel
  have index : (second.next noteProject).1 = some (.ok ⟨⟨"/node_modules/x/index.js"⟩,
      ⟨"/node_modules/x/index.js"⟩, "", ""⟩) := by
    decide +kernel
  have manifest : (third.next noteProject).1 = some (.error (.compilation
      ⟨"/node_modules/x/package.json"⟩ (.invalidDocument ⟨"/node_modules/x/package.json"⟩))) := by
    decide +kernel
  exact ⟨_, _, _, .step (Prod.ext script rfl) (.step (Prod.ext index rfl)
    (.failed (Prod.ext manifest rfl)))⟩

/-- The script has no target for its reference behind a compiler that leaves no files. -/
theorem drains_forgetful : ∃ steps e final,
    Drains forgetfulProject (.start forgetfulProject (brokenManifestTree "./lib" ["lib"])) steps
      (some e) final := by
  have script : ((Walk.start forgetfulProject (brokenManifestTree "./lib" ["lib"])).next
      forgetfulProject).1 = some (.error (.unresolvedReference "./lib" ⟨"/a.js"⟩
        (.notFound "./lib" ⟨"/"⟩))) := by
    decide +kernel
  exact ⟨_, _, _, .failed (Prod.ext script rfl)⟩

/-- The options that keep out a file that does not exist. -/
def refusedOptions : Options := { noteOptions with excluded := ["./gone"] }

/-- These options are refused. -/
theorem bundle_refusedOptions (limit : Nat) (output : Output) :
    bundle limit (brokenManifestTree "./lib" ["lib"]) ⟨"a.js"⟩ refusedOptions ≠
      some (.ok output) := by
  have refused : (match (Bundle.setup (brokenManifestTree "./lib" ["lib"]) ⟨"a.js"⟩
      refusedOptions).2 with
      | .error _ => true
      | .ok _ => false) = true := by
    decide +kernel
  split at refused
  · rename_i cause failed
    rw [bundle_of_setup_error limit failed]
    simp
  · simp at refused

/-- **References alone do not decide whether a `bundle` succeeds.** The script and the index it refers
to can be made modules, and neither is a manifest; but the manifest of the dependency is no
document, and the bundle fails. It also fails with a compiler that leaves no files for what is
referred to, and with options that are refused. -/
theorem bundle_fails_by_manifest :
    ((Bundle.setup (brokenManifestTree "x" ["node_modules", "x"]) ⟨"a.js"⟩ noteOptions).2 =
        .ok (noteProject, .start noteProject (brokenManifestTree "x" ["node_modules", "x"])) ∧
      RefersSafely noteProject (brokenManifestTree "x" ["node_modules", "x"])
        ⟨"/node_modules/x/package.json"⟩ ∧
      ∀ limit output, bundle limit (brokenManifestTree "x" ["node_modules", "x"]) ⟨"a.js"⟩
        noteOptions ≠ some (.ok output)) ∧
    ((Bundle.setup (brokenManifestTree "./lib" ["lib"]) ⟨"a.js"⟩ forgetfulOptions).2 =
        .ok (forgetfulProject, .start forgetfulProject (brokenManifestTree "./lib" ["lib"])) ∧
      RefersSafely forgetfulProject (brokenManifestTree "./lib" ["lib"]) ⟨"/lib/package.json"⟩ ∧
      ∀ limit output, bundle limit (brokenManifestTree "./lib" ["lib"]) ⟨"a.js"⟩
        forgetfulOptions ≠ some (.ok output)) ∧
    (RefersSafely noteProject (brokenManifestTree "./lib" ["lib"]) ⟨"/lib/package.json"⟩ ∧
      ∀ limit output, bundle limit (brokenManifestTree "./lib" ["lib"]) ⟨"a.js"⟩
        refusedOptions ≠ some (.ok output)) := by
  have made : (Bundle.setup (brokenManifestTree "x" ["node_modules", "x"]) ⟨"a.js"⟩ noteOptions).2 =
      .ok (noteProject, .start noteProject (brokenManifestTree "x" ["node_modules", "x"])) :=
    Bundle.setup_of_registerAll (by decide +kernel) rfl
  have forgets : (Bundle.setup (brokenManifestTree "./lib" ["lib"]) ⟨"a.js"⟩ forgetfulOptions).2 =
      .ok (forgetfulProject, .start forgetfulProject (brokenManifestTree "./lib" ["lib"])) :=
    Bundle.setup_of_registerAll (by decide +kernel) rfl
  obtain ⟨_, _, _, broken⟩ := drains_brokenManifest
  obtain ⟨_, _, _, forgotten⟩ := drains_forgetful
  refine ⟨⟨made, ?_, bundle_ne_ok_of_drains made broken⟩,
    ⟨forgets, ?_, bundle_ne_ok_of_drains forgets forgotten⟩,
    ⟨?_, bundle_refusedOptions⟩⟩
  · exact refersSafely_of_index ⟨"/node_modules/x/index.js"⟩ "require('x')" (by decide)
      (by decide +kernel) (by decide +kernel) (by decide +kernel)
  · exact refersSafely_of_index ⟨"/lib/index.js"⟩ "require('./lib')" (by decide)
      (by decide +kernel) (by decide +kernel) (by decide +kernel)
  · exact refersSafely_of_index ⟨"/lib/index.js"⟩ "require('./lib')" (by decide)
      (by decide +kernel) (by decide +kernel) (by decide +kernel)

end ScriptBundle
