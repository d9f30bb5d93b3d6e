import ScriptBundle.Proofs.Bundle.Modules
import ScriptBundle.Proofs.Resolution.Candidates

/-! # Literals and identities

Identities start with a slash, and so do the paths a host means by absolute specifiers. In an artifact
the first mean modules of the artifact, so no absolute specifier may be left as it is: one that names
a packed file is replaced by the identity of the file, one that names a file that is kept out by the way
to the file, and one that names no file ends the bundle, unless such references are collected.

* **`Project.LeavesLiteral`, `Project.standing`** — the references that are left as they are, and the
  specifier that stands in the place of a reference;
* **`Project.kind_ne_absolute_of_literal`** — which specifiers are left as they are;
* **`Project.Uncaptured`** — a reference that calls no module but the one it means;
* **`bundle_captures_nothing`** — what holds of every bundle that succeeds. -/

namespace ScriptBundle

open Walk (Drains)

/-! ## Absolute specifiers -/

/-- **A `specifier` is absolute** exactly if it starts with a slash. -/
theorem Specifier.kind_eq_absolute_iff {specifier : String} :
    kind specifier = .absolute ↔ (Path.mk specifier).isAbsolute = true := by
  rw [Path.isAbsolute, Path.chars, beq_iff_eq, List.head?_eq_some_iff, kind]
  split <;> simp_all

/-- No module of the host is named by an absolute `specifier`. -/
theorem isHostModule_of_absolute {specifier : String}
    (absolute : Specifier.kind specifier = .absolute) : isHostModule specifier = false :=
  isHostModule_of_kind_ne_bare (by simp [absolute])

/-- No absolute `specifier` falls under the name of a package. -/
theorem Specifier.not_isUnder_of_absolute {name specifier : String} (some_name : name ≠ "")
    (bare : kind name = .bare) (absolute : kind specifier = .absolute) :
    ¬IsUnder name specifier := by
  rintro (rfl | ⟨rest, rfl⟩)
  · rw [bare] at absolute
    cases absolute
  · -- what goes on behind a name starts as the name does
    obtain ⟨c, cs, spelled⟩ := List.exists_cons_of_ne_nil (l := name.toList) (by simpa using some_name)
    have rooted := kind_eq_absolute_iff.mp absolute
    have first : (Path.mk name).isAbsolute = true := by
      simpa [Path.isAbsolute, Path.chars, spelled] using rooted
    rw [kind_eq_absolute_iff.mpr first] at bare
    cases bare

namespace Project

variable {P : Project} {files : Workspace} {x : Exclusions} {referrer location : Path}
  {specifier path : String}

/-! ## References that are left as they are -/

/-- **An absolute `specifier` is not left as it is**, unless it is kept out by name. -/
theorem kind_ne_absolute_of_literal (unnamed : Specifier.kind specifier = .absolute →
      x.holdsName specifier = false)
    (h : P.treatment files x referrer specifier = .literal) :
    Specifier.kind specifier ≠ .absolute := by
  intro absolute
  have foreign := isHostModule_of_absolute absolute
  unfold treatment at h
  rw [foreign, unnamed absolute] at h
  -- what is left are the outcomes of the search, and a file that is kept out
  cases resolved : P.resolve files specifier referrer.folder with
  | error cause => simp [resolved] at h
  | ok meant =>
      cases meant with
      | host name => exact resolve_ne_host foreign resolved
      | file location =>
          cases kept : x.holdsFile location with
          | true => simp [resolved, kept, absolute] at h
          | false => simp [resolved, kept] at h

/-- The way to a file that is kept out is no absolute `specifier`. -/
theorem kind_ne_absolute_of_outside (h : P.treatment files x referrer specifier = .outside path) :
    Specifier.kind path ≠ .absolute := by
  obtain ⟨location, rfl⟩ : ∃ location, path = Path.specifierFrom referrer.folder location := by
    unfold treatment at h
    split at h
    · simp at h
    · split at h
      · simp at h
      · simp at h
      · split at h
        · split at h
          · exact ⟨_, (Treatment.outside.inj h).symm⟩
          · simp at h
        · simp at h
  rw [Ne, Specifier.kind_eq_absolute_iff, Path.isAbsolute_specifierFrom]
  exact Bool.false_ne_true

/-- **A reference of a module that is left as it is.** -/
def LeavesLiteral (P : Project) (step : ModuleRecord × Walk) (specifier : String) : Prop :=
  P.treatment step.2.files step.2.exclusions step.1.location specifier = .literal ∨
    ∃ cause, P.treatment step.2.files step.2.exclusions step.1.location specifier = .missing cause

/-- **The `specifier` that stands in the place of a reference** of a module. -/
def standing (P : Project) (step : ModuleRecord × Walk) (specifier : String) : String :=
  match P.treatment step.2.files step.2.exclusions step.1.location specifier with
  | .target location => (P.identityOf location).text
  | .outside path => path
  | _ => specifier

/-- **A reference that calls no module but the one it means.** If it is left as it is, it is collected
as one without a target, or is no `identity` of a module. If an identity of a module stands in its place,
it is collected, or the module is made of the very file it means. -/
structure Uncaptured (P : Project) (steps : List (ModuleRecord × Walk)) (report : Report)
    (step : ModuleRecord × Walk) (specifier : String) : Prop where
  /-- What is left as it is, is collected or is no identity. -/
  literal : P.LeavesLiteral step specifier →
    (∃ note ∈ report.unresolved, note.specifier = specifier ∧ note.referrer = step.1.location) ∨
      ∀ m ∈ report.modules, specifier ≠ m.text
  /-- An identity stands only where the reference is collected or means the module. -/
  standing : ∀ m ∈ report.modules, P.standing step specifier = m.text →
    (∃ note ∈ report.unresolved, note.specifier = specifier ∧ note.referrer = step.1.location) ∨
      ∃ location, P.resolve step.2.files specifier step.1.location.folder = .ok (.file location) ∧
        ∃ other ∈ steps, other.1.location.parts = location.parts ∧ other.1.identity = m

end Project

/-! ## Whole bundles -/

namespace Bundle

open Project (Uncaptured)

variable {P : Project} {w : Workspace} {walk final : Walk} {steps : List (ModuleRecord × Walk)}
  {step : ModuleRecord × Walk} {entry : Path} {options : Options} {text specifier : List Char}

/-- No absolute `specifier` is kept out by name, unless the empty name is excluded. -/
theorem holdsName_of_absolute (made : (setup w entry options).2 = .ok (P, walk))
    (named : "" ∉ options.excluded) {specifier : String}
    (absolute : Specifier.kind specifier = .absolute) : walk.exclusions.holdsName specifier = false := by
  rw [← Bool.not_eq_true, holdsName_of_setup made]
  rintro ⟨name, listed, -, bare, under⟩
  refine Specifier.not_isUnder_of_absolute (fun empty => ?_) bare absolute under
  exact named (empty ▸ listed)

/-- **A reference without a target is noted** in the report. -/
theorem exists_note_of_missing (made : (setup w entry options).2 = .ok (P, walk))
    (drained : Drains P walk steps none final) (h : step ∈ steps)
    (listed : .reference text specifier ∈ P.segmentsOf step.1.location step.1.compiled)
    {cause : ResolveError} (treated : P.treatment step.2.files step.2.exclusions step.1.location
      (.ofList specifier) = .missing cause) :
    ∃ note ∈ final.unresolved, note.specifier = .ofList specifier ∧
      note.referrer = step.1.location := by
  have fresh := (setup_spec made).1
  refine ⟨⟨.ofList specifier, step.1.location, cause.message⟩, ?_, rfl, rfl⟩
  rw [(drained.leaves fresh.orderly).2, fresh.unresolved_eq, List.nil_append]
  refine List.mem_flatMap.mpr ⟨step, h, ?_⟩
  rw [Project.unresolvedIn, ← Project.filterMap_note?]
  refine List.mem_filterMap.mpr ⟨_, listed, ?_⟩
  rw [Project.note?, treated]

/-- Under the strict `policy` no reference is noted. -/
theorem unresolved_eq_nil (made : (setup w entry options).2 = .ok (P, walk))
    (strict : P.policy = .fail) (drained : Drains P walk steps none final) : final.unresolved = [] := by
  have fresh := (setup_spec made).1
  rw [(drained.leaves fresh.orderly).2, fresh.unresolved_eq, List.nil_append, List.flatMap_eq_nil_iff]
  intro step hstep
  obtain ⟨earlier, before, order, -, e⟩ := drained.exists_next fresh.orderly hstep
  rw [Project.unresolvedIn, ← Project.filterMap_note?, List.filterMap_eq_nil_iff]
  exact Walk.note?_eq_none_of_next strict order e

/-- **No reference of a module is captured**, unless the empty name is excluded. -/
theorem uncaptured (made : (setup w entry options).2 = .ok (P, walk)) (named : "" ∉ options.excluded)
    (drained : Drains P walk steps none final) {report : Report}
    (modules : report.modules = steps.map (·.1.identity)) (unresolved : report.unresolved = final.unresolved)
    (h : step ∈ steps)
    (listed : .reference text specifier ∈ P.segmentsOf step.1.location step.1.compiled) :
    P.Uncaptured steps report step (.ofList specifier) := by
  have kept : step.2.exclusions = walk.exclusions := drained.exclusions_eq.2 step h
  -- every identity of a module is absolute
  have absolute : ∀ m ∈ report.modules, Specifier.kind m.text = .absolute := by
    intro m hm
    rw [modules] at hm
    obtain ⟨other, hother, rfl⟩ := List.mem_map.mp hm
    rw [(identity_of_mem made drained hother).2, Specifier.kind_eq_absolute_iff, Path.isAbsolute,
      Path.chars, Project.toList_identityOf]
    rfl
  have literal : P.treatment step.2.files step.2.exclusions step.1.location (.ofList specifier) =
      .literal → ∀ m ∈ report.modules, String.ofList specifier ≠ m.text := by
    intro treated m hm same
    refine Project.kind_ne_absolute_of_literal (fun rooted => ?_) treated (same ▸ absolute m hm)
    rw [kept]
    exact holdsName_of_absolute made named rooted
  have noted (cause : ResolveError) (treated : P.treatment step.2.files step.2.exclusions
      step.1.location (.ofList specifier) = .missing cause) :
      ∃ note ∈ report.unresolved, note.specifier = .ofList specifier ∧
        note.referrer = step.1.location :=
    unresolved ▸ exists_note_of_missing made drained h listed treated
  refine ⟨fun left => ?_, fun m hm stands => ?_⟩
  · rcases left with treated | ⟨cause, treated⟩
    · exact .inr (literal treated)
    · exact .inl (noted cause treated)
  · -- by what is done with the reference
    unfold Project.standing at stands
    split at stands
    · rename_i location treated
      have resolved := (Project.resolve_of_treatment_target P _ _ _ treated).1
      have called : location ∈ P.targetsIn step := by
        refine List.mem_filterMap.mpr ⟨_, listed, ?_⟩
        rw [Project.target?, treated]
      obtain ⟨other, hother, same, identity⟩ := exists_made_of_target made drained h called
      refine .inr ⟨location, resolved, other, hother, same, ?_⟩
      rw [identity]
      exact congrArg Identity.mk stands
    · rename_i path treated
      exact absurd (stands ▸ absolute m hm) (Project.kind_ne_absolute_of_outside treated)
    · rename_i no_target no_path
      cases treated : P.treatment step.2.files step.2.exclusions step.1.location
          (.ofList specifier) with
      | literal => exact absurd stands (literal treated m hm)
      | missing cause => exact .inl (noted cause treated)
      | outside path => exact absurd treated (no_path path)
      | target location => exact absurd treated (no_target location)

end Bundle

variable {w : Workspace} {entry : Path} {options : Options}

/-- Options that keep out a package and two files. -/
def sparingOptions : Options := ⟨[], ["x", "./b.js", "/b.js"], [], .collect⟩

/-- **A `bundle` with a literal that is an identity of a module.** -/
def Captures (w : Workspace) (entry : Path) (options : Options) (specifier : String) : Prop :=
  ∃ limit output P walk steps final, bundle limit w entry options = some (.ok output) ∧
    (Bundle.setup w entry options).2 = .ok (P, walk) ∧ Drains P walk steps none final ∧
    ⟨specifier⟩ ∈ output.report.modules ∧ ∃ step ∈ steps, P.LeavesLiteral step specifier ∧
      ∃ text, .reference text specifier.toList ∈ P.segmentsOf step.1.location step.1.compiled

/-- A script that names a file at the root, where there is none, and one beside it. -/
def shadowingScripts : Workspace :=
  ⟨⟨[(["s", "a.js"], .text "require('/b.js');require('./b')"), (["s", "b.js"], .text "")], []⟩, []⟩

/-- The project of this script. -/
def shadowingProject (policy : Policy) : Project :=
  ⟨⟨"/s/a.js"⟩, .initial, Registry.initial.resolutionExtensions, policy⟩

/-- The walk in front of this script, with some kept out. -/
def shadowingWalk (policy : Policy) (x : Exclusions) : Walk :=
  { Walk.start (shadowingProject policy) shadowingScripts with exclusions := x }

/-- The module of this script: both references call the same identity. -/
def shadowingRecord : ModuleRecord :=
  ⟨⟨"/s/a.js"⟩, ⟨"/a.js"⟩, "require('/b.js');require('./b')", "require('/b.js');require('/b.js')"⟩

/-- The module of the script beside it. -/
def shadowedRecord : ModuleRecord := ⟨⟨"/s/b.js"⟩, ⟨"/b.js"⟩, "", ""⟩

/-- **A literal of this script is an identity**, if its walk makes these two modules and leaves the
literal as it is. -/
theorem captures_of_steps {policy : Policy} {excluded : List String} {x : Exclusions}
    (made : (Bundle.setup shadowingScripts ⟨"s/a.js"⟩ ⟨[], excluded, [], policy⟩).2 =
      .ok (shadowingProject policy, shadowingWalk policy x))
    (first : ((shadowingWalk policy x).next (shadowingProject policy)).1 = some (.ok shadowingRecord))
    (second : (((shadowingWalk policy x).next (shadowingProject policy)).2.next
      (shadowingProject policy)).1 = some (.ok shadowedRecord))
    (last : ((((shadowingWalk policy x).next (shadowingProject policy)).2.next
      (shadowingProject policy)).2.next (shadowingProject policy)).1 = none)
    (left : (shadowingProject policy).LeavesLiteral
      (shadowingRecord, ((shadowingWalk policy x).next (shadowingProject policy)).2) "/b.js") :
    Captures shadowingScripts ⟨"s/a.js"⟩ ⟨[], excluded, [], policy⟩ "/b.js" := by
  have drained : Drains (shadowingProject policy) (shadowingWalk policy x) _ none _ :=
    .step (Prod.ext first rfl) (.step (Prod.ext second rfl) (.done (Prod.ext last rfl)))
  obtain ⟨limit, whole⟩ := bundle_eq_ok_iff.mpr ⟨_, _, _, _, made, drained, rfl⟩
  have listed : .reference "require('/b.js')".toList "/b.js".toList ∈
      (shadowingProject policy).segmentsOf shadowingRecord.location shadowingRecord.compiled := by
    cases policy <;> decide +kernel
  refine ⟨limit, _, _, _, _, _, whole, made, drained, ?_, _, List.mem_cons_self, left, _, listed⟩
  exact List.mem_cons_of_mem _ List.mem_cons_self

end ScriptBundle
