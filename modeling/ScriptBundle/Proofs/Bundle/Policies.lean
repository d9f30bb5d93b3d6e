import ScriptBundle.Proofs.Stream.Drained
import ScriptBundle.Proofs.Walk.Policies

/-! # Bundles under both policies

A bundle is set up in the same way under both policies, and its two walks go the same way up to the
first reference without a target. So the strict policy is the lenient one with an empty list of
notes, and where it fails at a reference the list of the lenient one begins with that reference:

* **`Options.under`, `Bundle.setup_under`** — the options of a bundle under another policy, and how
  it is set up under it;
* **`ChunkStream.PartsAt`, `ChunkStream.partsAt_start`** — the streams under both policies, up to a
  reference without a target and behind it;
* **`bundle_policies_agree`** — what follows for every bundle. -/

namespace ScriptBundle

/-- **The options under a `policy`.** -/
def Options.under (options : Options) (policy : Policy) : Options := { options with policy }

namespace Bundle

variable {P : Project} {w : Workspace} {walk : Walk} {entry : Path} {options : Options}
  {e : BundleError} {specifiers : List String}

/-- What is kept out does not depend on the `policy`. -/
theorem excludeAll_under (P : Project) (policy : Policy) (walk : Walk) (specifiers : List String) :
    excludeAll (P.under policy) walk specifiers = excludeAll P walk specifiers := by
  induction specifiers generalizing walk with
  | nil => rfl
  | cons specifier rest ih =>
      rw [excludeAll, excludeAll, Walk.exclude?_under]
      simp only [ih]

/-- What is packed does not depend on the `policy`. -/
theorem includeAll_under (P : Project) (policy : Policy) (walk : Walk) (specifiers : List String) :
    includeAll (P.under policy) walk specifiers = includeAll P walk specifiers := by
  induction specifiers generalizing walk with
  | nil => rfl
  | cons specifier rest ih =>
      rw [includeAll, includeAll, Walk.include?_under]
      simp only [ih]

/-- **A `setup` under a policy** starts the same walk, in the project under that policy. -/
theorem setup_under (w : Workspace) (entry : Path) (options : Options) (policy : Policy) :
    (setup w entry (options.under policy)).2 =
      (setup w entry options).2.map fun start => (start.1.under policy, start.2) := by
  rw [setup, setup]
  cases entryOf w entry with
  | error cause => rfl
  | ok path =>
      simp only [Options.under]
      cases registerAll .initial options.compilers with
      | error e => rfl
      | ok registry =>
          -- the project under the policy, in front of what keeps out and adds
          let P : Project := ⟨path, registry, registry.resolutionExtensions, options.policy⟩
          have kept := excludeAll_under P policy (.start P w) options.excluded
          have added (walk : Walk) := includeAll_under P policy walk options.included
          simp only [Project.under, P] at kept added
          simp only [show Walk.start ⟨path, registry, registry.resolutionExtensions, policy⟩ w =
            Walk.start P w from rfl, P, kept, added]
          cases excludeAll P (.start P w) options.excluded with
          | error e => rfl
          | ok walk =>
              dsimp only
              cases (includeAll P walk options.included).2 <;> rfl

/-- A bundle that `registerAll` refuses fails over one of its compilers. -/
theorem registerAll_error {registry : Registry} {compilers : List Compiler}
    (failed : registerAll registry compilers = .error e) :
    ∃ name cause, e = .invalidCompiler name cause := by
  induction compilers generalizing registry with
  | nil => simp [registerAll] at failed
  | cons compiler rest ih =>
      rw [registerAll] at failed
      split at failed
      · exact ih failed
      · exact ⟨_, _, (Except.error.inj failed).symm⟩

/-- A bundle that `excludeAll` refuses fails over one of the specifiers it keeps out. -/
theorem excludeAll_error (failed : excludeAll P walk specifiers = .error e) :
    ∃ specifier cause, e = .setup .excluded specifier cause := by
  induction specifiers generalizing walk with
  | nil => simp [excludeAll] at failed
  | cons specifier rest ih =>
      rw [excludeAll] at failed
      split at failed
      · exact ih failed
      · rename_i kept
        obtain rfl := Except.error.inj failed
        simp only [Walk.exclude?] at kept
        split at kept
        · simp at kept
        · -- only a search that fails for a specifier that is no name fails the exclusion
          split at kept <;> try split at kept
          all_goals simp at kept
          exact ⟨specifier, _, kept.symm⟩

/-- A bundle that `includeAll` refuses fails over one of the specifiers it packs. -/
theorem includeAll_error {notices : List Notice}
    (failed : includeAll P walk specifiers = (notices, .error e)) :
    ∃ specifier cause, e = .setup .included specifier cause := by
  induction specifiers generalizing walk notices with
  | nil => simp [includeAll] at failed
  | cons specifier rest ih =>
      rw [includeAll] at failed
      split at failed
      · rename_i added
        obtain ⟨-, same⟩ := Prod.mk.inj failed
        obtain rfl := Except.error.inj same
        simp only [Walk.include?] at added
        split at added
        · exact ⟨specifier, _, (Except.error.inj added).symm⟩
        · simp at added
        · split at added <;> simp at added
      · obtain ⟨-, later⟩ := Prod.mk.inj failed
        exact ih (Prod.ext rfl later)

/-- **Why a `setup` fails**: for its entry script, for a compiler or for an override, and so never for
a reference. -/
theorem setup_error (failed : (setup w entry options).2 = .error e) :
    (∃ cause, e = .invalidEntry entry cause) ∨ (∃ name cause, e = .invalidCompiler name cause) ∨
      ∃ list specifier cause, e = .setup list specifier cause := by
  unfold setup at failed
  split at failed
  · exact .inl ⟨_, (Except.error.inj failed).symm⟩
  · split at failed
    · rename_i refused
      obtain rfl := Except.error.inj failed
      exact .inr (.inl (registerAll_error refused))
    · dsimp only at failed
      split at failed
      · rename_i kept
        obtain rfl := Except.error.inj failed
        obtain ⟨specifier, cause, rfl⟩ := excludeAll_error kept
        exact .inr (.inr ⟨_, specifier, cause, rfl⟩)
      · rename_i walk kept
        cases added : includeAll _ walk options.included with
        | mk notices result =>
            rw [added] at failed
            cases result with
            | ok walk => simp [Except.map] at failed
            | error cause =>
                obtain rfl := Except.error.inj failed
                obtain ⟨specifier, cause, rfl⟩ := includeAll_error added
                exact .inr (.inr ⟨_, specifier, cause, rfl⟩)

end Bundle

open Walk (Drains)

namespace ChunkStream

variable {P : Project} {s : ChunkStream} {walk final : Walk} {steps : List (ModuleRecord × Walk)}
  {specifier : String} {referrer : Path} {cause : ResolveError}

/-- What a stream has noted stays noted, where missing targets are noted. -/
theorem unresolved_prefix_next (P : Project) (s : ChunkStream) :
    s.walk.unresolved <+: (s.next (P.under .collect)).2.walk.unresolved := by
  cases phase : s.phase with
  | header =>
      rw [next_header phase]
  | modules =>
      have kept := Walk.unresolved_prefix_next P s.walk
      cases e : s.walk.next (P.under .collect) with
      | mk made after =>
          rw [e] at kept
          rcases made with _ | cause | record
          · rw [next_footer phase e]
            exact kept
          · rw [next_failure phase e]
            exact kept
          · rw [next_module phase e]
            exact kept
  | done =>
      rw [next_done phase]

/-- Along a stream that collects, references without a target are only ever added. -/
theorem unresolved_prefix_after (P : Project) (s : ChunkStream) {j k : Nat} (le : j ≤ k) :
    (s.after (P.under .collect) j).walk.unresolved <+:
      (s.after (P.under .collect) k).walk.unresolved := by
  induction le with
  | refl => exact List.prefix_rfl
  | step _ ih => exact ih.trans (unresolved_prefix_next P _)

/-- **Streams under both policies**, where the strict one comes to a reference without a target: the
pulls in front of the one that fails there are the same and note nothing, and with that `pull` the
lenient one notes this reference, in front of others. -/
structure PartsAt (P : Project) (s : ChunkStream) (n : Nat) (note : UnresolvedReference)
    (e : BundleError) : Prop where
  /-- The streams in front of the pull that fails. -/
  same : ∀ k ≤ n, s.after (P.under .fail) k = s.after (P.under .collect) k
  /-- Nothing is noted by then. -/
  silent : ∀ k ≤ n, (s.after (P.under .collect) k).walk.unresolved = s.walk.unresolved
  /-- The pull that fails. -/
  fails : s.pull (P.under .fail) n = .error e
  /-- What the same pull notes under the lenient policy. -/
  notes : ∃ later, (s.after (P.under .collect) (n + 1)).walk.unresolved =
    s.walk.unresolved ++ note :: later

/-- A pull that is the same under both policies and notes nothing puts off where streams part. -/
theorem PartsAt.succ {n : Nat} {note : UnresolvedReference} {e : BundleError}
    {result : Except BundleError (Option String)} {after : ChunkStream}
    (h : PartsAt P after n note e) (pulled : ∀ policy, s.next (P.under policy) = (result, after))
    (silent : after.walk.unresolved = s.walk.unresolved) : PartsAt P s (n + 1) note e := by
  have behind (policy : Policy) (k : Nat) :
      s.after (P.under policy) (k + 1) = after.after (P.under policy) k := by
    rw [after_succ_next, pulled]
  refine ⟨fun k le => ?_, fun k le => ?_, ?_, ?_⟩
  · cases k with
    | zero => rfl
    | succ k => rw [behind, behind, h.same k (Nat.le_of_succ_le_succ le)]
  · cases k with
    | zero => rfl
    | succ k => rw [behind, h.silent k (Nat.le_of_succ_le_succ le), silent]
  · rw [pull_succ_next, pulled, h.fails]
  · rw [behind, ← silent]
    exact h.notes

/-- **Streams among their `modules` part where the strict walk fails at a reference.** -/
theorem partsAt_modules (h : s.phase = .modules) (drained : Drains (P.under .fail) s.walk steps
      (some (.unresolvedReference specifier referrer cause)) final) :
    PartsAt P s steps.length ⟨specifier, referrer, cause.message⟩
      (.unresolvedReference specifier referrer cause) := by
  -- on the steps of the strict walk; in front of its failure, the lenient one makes the same
  generalize start : s.walk = walk, ended :
    some (BundleError.unresolvedReference specifier referrer cause) = failure at drained
  induction drained generalizing s with
  | done => cases ended
  | failed last =>
      cases ended
      cases Walk.stepsAlike P _ with
      | same stepped =>
          obtain ⟨path, cause, impossible⟩ :=
            Walk.exists_compilation_of_next (stepped.symm.trans last)
          cases impossible
      | apart _ _ _ _ behind record later fails goes_on noted =>
          obtain ⟨made, -⟩ := Prod.mk.inj (fails.symm.trans last)
          cases made
          refine ⟨fun k le => ?_, fun k le => ?_, ?_, later, ?_⟩
          · rw [Nat.le_zero.mp le]
            rfl
          · rw [Nat.le_zero.mp le]
            rfl
          · rw [List.length_nil, pull, ChunkStream.after, next_failure h (start ▸ last)]
          · rw [List.length_nil, after_succ, ChunkStream.after, next_module h (start ▸ goes_on),
              start]
            exact noted
  | @step walk between _ record _ _ first rest ih =>
      cases Walk.stepsAlike P walk with
      | same stepped silent =>
          -- the step makes the same module under both policies
          rw [← stepped, first] at silent
          have made (policy : Policy) :
              s.walk.next (P.under policy) = (some (.ok record), between) := by
            cases policy with
            | fail => exact start ▸ first
            | collect => exact start ▸ stepped ▸ first
          have later := ih
            (s := { s with walk := between, modules := s.modules ++ [record.identity] }) h rfl ended
          exact later.succ (fun policy => next_module h (made policy)) (silent.trans (start ▸ rfl))
      | apart _ _ _ _ _ _ _ fails => simp [fails] at first

/-- **A stream parts where its strict `walk` fails at a reference.** -/
theorem partsAt_start (artifact : Artifact) (drained : Drains (P.under .fail) walk steps
      (some (.unresolvedReference specifier referrer cause)) final) :
    PartsAt P (start walk artifact) (steps.length + 1) ⟨specifier, referrer, cause.message⟩
      (.unresolvedReference specifier referrer cause) := by
  have modules := partsAt_modules (s := { start walk artifact with phase := .modules }) rfl drained
  exact modules.succ (fun policy => next_header rfl) rfl

/-- **The first note of a stream that parts**: none in front of the pull that fails, and from there
on the reference it fails at. -/
theorem PartsAt.head? {n : Nat} {note : UnresolvedReference} {e : BundleError}
    (h : PartsAt P s n note e) (fresh : s.walk.unresolved = []) (k : Nat) :
    (s.after (P.under .collect) k).walk.unresolved.head? = if k ≤ n then none else some note := by
  by_cases le : k ≤ n
  · rw [h.silent k le, fresh, if_pos le, List.head?_nil]
  · obtain ⟨later, noted⟩ := h.notes
    rw [fresh, List.nil_append] at noted
    obtain ⟨more, kept⟩ := unresolved_prefix_after P s (Nat.lt_of_not_le le)
    rw [← kept, noted, if_neg le, List.cons_append, List.head?_cons]

/-- **The first note at the end of a lenient `walk`** is the reference the strict walk fails at. -/
theorem head?_of_drains {others : List (ModuleRecord × Walk)} {left : Walk}
    (fresh : walk.unresolved = []) (strict : Drains (P.under .fail) walk steps
      (some (.unresolvedReference specifier referrer cause)) final)
    (lenient : Drains (P.under .collect) walk others none left) :
    left.unresolved.head? = some ⟨specifier, referrer, cause.message⟩ := by
  -- the end is behind one of the pulls, and by then something is noted
  have last := (partsAt_start P.artifact strict).head? fresh (others.length + 2)
  rw [(items_start P.artifact lenient).2] at last
  have noted : left.unresolved ≠ [] := fun silent => by
    have again := Walk.drains_fail_iff.mpr ⟨lenient, silent.trans fresh.symm⟩
    simpa using (again.unique strict).2.1
  split at last
  · exact absurd (List.head?_eq_none_iff.mp last) noted
  · exact last

end ChunkStream

/-! ## Every bundle -/

section

open ChunkStream (start)

variable {P : Project} {w : Workspace} {walk : Walk} {entry : Path} {options : Options}
  {output : Output} {e : BundleError} {limit : Nat}

/-- A `bundle` under a policy that succeeds, by the steps of its walk. -/
theorem bundle_under_ok_iff (made : (Bundle.setup w entry options).2 = .ok (P, walk))
    (policy : Policy) :
    (∃ limit, bundle limit w entry (options.under policy) = some (.ok output)) ↔
      ∃ steps final, Drains (P.under policy) walk steps none final ∧
        output = final.output P (steps.map Prod.fst) := by
  have started : (Bundle.setup w entry (options.under policy)).2 = .ok (P.under policy, walk) := by
    rw [Bundle.setup_under, made]
    rfl
  rw [bundle_eq_ok_iff]
  constructor
  · rintro ⟨P', walk', steps, final, again, drained, rfl⟩
    obtain ⟨rfl, rfl⟩ := Prod.mk.inj (Except.ok.inj (again.symm.trans started))
    exact ⟨steps, final, drained, by simp [Walk.output, Function.comp_def, Project.under]; rfl⟩
  · rintro ⟨steps, final, drained, rfl⟩
    exact ⟨_, _, steps, final, started, drained,
      by simp [Walk.output, Function.comp_def, Project.under]; rfl⟩

/-- A `bundle` that fails behind its setup does so with its walk. -/
theorem exists_drains_of_bundle_error (made : (Bundle.setup w entry options).2 = .ok (P, walk))
    (failed : bundle limit w entry options = some (.error e)) :
    ∃ steps final, Drains P walk steps (some e) final := by
  rw [bundle, made] at failed
  obtain ⟨⟨result, s⟩, whole, ended⟩ := Option.map_eq_some_iff.mp failed
  obtain ⟨steps, failure, final, drained, rfl, -⟩ :=
    ChunkStream.all_start_eq_some_iff.mp ⟨limit, whole⟩
  cases failure with
  | none => simp [orFailure, Except.map] at ended
  | some cause =>
      obtain rfl : cause = e := by simpa [orFailure, Except.map] using ended
      exact ⟨steps, final, drained⟩

/-- **The two policies agree wherever they can.** A `bundle` succeeds under the strict policy exactly
if it succeeds under the lenient one with an empty list of notes, with the same output. Where the
strict one fails at a reference, this is the first the lenient one notes: with the pull that fails,
and so in every report. The lenient one never fails at a reference, and what it has noted at its end
are, module by module in the order in which they were made, the references of each that have no
target. -/
theorem bundle_policies_agree (w : Workspace) (entry : Path) (options : Options) :
    (∀ output, (∃ limit, bundle limit w entry (options.under .fail) = some (.ok output)) ↔
      (∃ limit, bundle limit w entry (options.under .collect) = some (.ok output)) ∧
        output.report.unresolved = []) ∧
    (∀ limit specifier referrer cause,
      bundle limit w entry (options.under .fail) =
        some (.error (.unresolvedReference specifier referrer cause)) →
      ∃ P walk n, (Bundle.setup w entry (options.under .collect)).2 = .ok (P, walk) ∧
        (start walk P.artifact).pull (P.under .fail) n =
          .error (.unresolvedReference specifier referrer cause) ∧
        (∀ k, ((start walk P.artifact).after P k).walk.unresolved.head? =
          if k ≤ n then none else some ⟨specifier, referrer, cause.message⟩) ∧
        ∀ limit output, bundle limit w entry (options.under .collect) = some (.ok output) →
          output.report.unresolved.head? = some ⟨specifier, referrer, cause.message⟩) ∧
    (∀ limit specifier referrer cause, bundle limit w entry (options.under .collect) ≠
      some (.error (.unresolvedReference specifier referrer cause))) ∧
    ∀ limit output, bundle limit w entry (options.under .collect) = some (.ok output) →
      ∃ P walk steps final, (Bundle.setup w entry (options.under .collect)).2 = .ok (P, walk) ∧
        Drains P walk steps none final ∧ final.emitted = steps.map (·.1.location) ∧
        output.report.modules = steps.map (·.1.identity) ∧
        output.report.unresolved = steps.flatMap P.unresolvedIn := by
  cases made : (Bundle.setup w entry options).2 with
  | error e =>
      -- neither policy comes to a walk, and no setup fails at a reference
      have ended (policy : Policy) (limit : Nat) :
          bundle limit w entry (options.under policy) = some (.error e) :=
        bundle_of_setup_error limit (by rw [Bundle.setup_under, made]; rfl)
      have other := Bundle.setup_error made
      refine ⟨fun output => ?_, fun limit specifier referrer cause failed => ?_,
        fun limit specifier referrer cause failed => ?_, fun limit output succeeds => ?_⟩
      · simp [ended]
      · rw [ended] at failed
        cases failed
        simp at other
      · rw [ended] at failed
        cases failed
        simp at other
      · simp [ended] at succeeds
  | ok started =>
      obtain ⟨P, walk⟩ := started
      have fresh := (Bundle.setup_spec made).1
      have under (policy : Policy) :
          (Bundle.setup w entry (options.under policy)).2 = .ok (P.under policy, walk) := by
        rw [Bundle.setup_under, made]
        rfl
      refine ⟨fun output => ?_, fun limit specifier referrer cause failed => ?_,
        fun limit specifier referrer cause failed => ?_, fun limit output succeeds => ?_⟩
      · rw [bundle_under_ok_iff made, bundle_under_ok_iff made]
        constructor
        · rintro ⟨steps, final, drained, rfl⟩
          obtain ⟨lenient, silent⟩ := Walk.drains_fail_iff.mp drained
          exact ⟨⟨steps, final, lenient, rfl⟩, silent.trans fresh.unresolved_eq⟩
        · rintro ⟨⟨steps, final, drained, rfl⟩, silent⟩
          have silent : final.unresolved = [] := silent
          exact ⟨steps, final,
            Walk.drains_fail_iff.mpr ⟨drained, silent.trans fresh.unresolved_eq.symm⟩, rfl⟩
      · obtain ⟨steps, final, strict⟩ := exists_drains_of_bundle_error (under .fail) failed
        have parts := ChunkStream.partsAt_start P.artifact strict
        have first := parts.head? fresh.unresolved_eq
        refine ⟨P.under .collect, walk, steps.length + 1, under .collect, parts.fails, first,
          fun limit output succeeds => ?_⟩
        obtain ⟨others, left, lenient, rfl⟩ :=
          (bundle_under_ok_iff made .collect).mp ⟨limit, succeeds⟩
        exact ChunkStream.head?_of_drains fresh.unresolved_eq strict lenient
      · obtain ⟨steps, final, lenient⟩ := exists_drains_of_bundle_error (under .collect) failed
        simpa using lenient.exists_compilation
      · obtain ⟨steps, final, lenient, rfl⟩ :=
          (bundle_under_ok_iff made .collect).mp ⟨limit, succeeds⟩
        obtain ⟨emitted, noted⟩ := lenient.leaves fresh.orderly
        rw [fresh.emitted_eq, List.nil_append] at emitted
        rw [fresh.unresolved_eq, List.nil_append] at noted
        exact ⟨P.under .collect, walk, steps, final, under .collect, lenient, emitted,
          List.map_map .., noted⟩

/-- Two scripts, the second of which refers to a file that does not exist: one policy fails there,
and the other notes it first. -/
theorem bundle_policies_agree_brokenScripts :
    ∃ limit P walk n,
      bundle limit ChunkStream.brokenScripts ⟨"a.js"⟩ ⟨[], [], [], .fail⟩ =
        some (.error ChunkStream.brokenReference) ∧
      (Bundle.setup ChunkStream.brokenScripts ⟨"a.js"⟩ ⟨[], [], [], .collect⟩).2 = .ok (P, walk) ∧
      (start walk P.artifact).pull (P.under .fail) n = .error ChunkStream.brokenReference ∧
      ∀ k, ((start walk P.artifact).after P k).walk.unresolved.head? = if k ≤ n then none
        else some ⟨"./c", ⟨"/b.js"⟩, (ResolveError.notFound "./c" ⟨"/"⟩).message⟩ := by
  obtain ⟨steps, final, drains, -⟩ := ChunkStream.drains_brokenScripts
  obtain ⟨limit, failed⟩ :=
    (ChunkStream.bundle_outcome ChunkStream.setup_brokenScripts drains _).mpr rfl
  obtain ⟨-, parts, -⟩ :=
    bundle_policies_agree ChunkStream.brokenScripts ⟨"a.js"⟩ ⟨[], [], [], .fail⟩
  obtain ⟨P, walk, n, started, fails, first, -⟩ := parts limit _ _ _ failed
  exact ⟨limit, P, walk, n, failed, started, fails, first⟩

end

end ScriptBundle
