import ScriptBundle.Proofs.Bundle.Exclusion
import ScriptBundle.Proofs.Compiler.Calls
import ScriptBundle.Proofs.Walk.Alike
import ScriptBundle.Settings.Basic

/-! # Options that repeat themselves

Options come in layers, and a layer may be given twice. Nothing comes of that: a compiler that is
registered again is in its place already, what is kept out is kept out, and a specifier that is packed
again finds its file scheduled. So lists that say the same in other words give the same bundle.

* **`Registry.registerAll_repeated`** — a layer of compilers that is given twice;
* **`Project.keepOutError?`, `Project.packError?`, `Bundle.failure?`** — the error of a setup, told
  without the walk that is set up;
* **`Path.foldl_addNew_eraseDups`** — what repeated specifiers add;
* **`Options.Restates`** — options that say the same, and `Bundle.setup_restated`, their setups;
* **`bundle_repetition`** — their bundles. -/

namespace ScriptBundle

open Walk (Fresh)

variable {P : Project} {w : Workspace} {walk other : Walk} {entry : Path} {options : Options}
  {specifier : String} {specifiers : List String} {e : BundleError}

/-! ## Compilers -/

namespace Registry

variable {r after : Registry} {seen : List String} {calls : List Compiler}

/-- Compilers that are registered one after the other are all accepted. -/
theorem accepts_of_registerAll (done : Bundle.registerAll r calls = .ok after) :
    ∀ compiler ∈ calls, accepts compiler = true := by
  induction calls generalizing r with
  | nil => simp
  | cons compiler rest ih =>
      rw [Bundle.registerAll] at done
      split at done
      · rename_i next registered
        exact List.forall_mem_cons.mpr ⟨(exists_register_iff r compiler).mp ⟨next, registered⟩, ih done⟩
      · simp at done

/-- Compilers one list after the other are registered by `registerAll` over what the first list left. -/
theorem registerAll_append (r : Registry) (front back : List Compiler) :
    Bundle.registerAll r (front ++ back) =
      match Bundle.registerAll r front with
      | .ok after => Bundle.registerAll after back
      | .error e => .error e := by
  induction front generalizing r with
  | nil => rfl
  | cons compiler rest ih =>
      rw [List.cons_append, Bundle.registerAll, Bundle.registerAll]
      cases r.register compiler with
      | ok next => exact ih next
      | error cause => rfl

/-- **Compilers that are registered again** leave the registry as it is: their extensions have their
places and their compilers. -/
theorem registerAll_again (known : r.keys = seen.eraseDups)
    (done : Bundle.registerAll r calls = .ok after) : Bundle.registerAll after calls = .ok after := by
  have taken := accepts_of_registerAll done
  obtain rfl : r.callAll calls = after :=
    Except.ok.inj ((registerAll_of_accepts taken r).symm.trans done)
  have again := registerAll_of_accepts taken (r.callAll calls)
  have keys := keys_callAll known calls
  have keys' := keys_callAll keys calls
  have same : ((r.callAll calls).callAll calls).keys = (r.callAll calls).keys := by
    rw [keys', keys, Distinct.eraseDups_append_of_subset (List.subset_append_right ..)]
  have distinct : (r.callAll calls).keys.Nodup := keys ▸ Distinct.nodup_eraseDups _
  have tables : ((r.callAll calls).callAll calls).table = (r.callAll calls).table := by
    refine Table.eq_of_lookup distinct same fun e => ?_
    rw [Bundle.lookup_registerAll_append again, Bundle.lookup_registerAll_append done,
      ← Option.or_assoc, Option.or_self]
  rw [again]
  exact congrArg (Except.ok ∘ Registry.mk) tables

/-- **A layer of compilers that is given twice** is as good as given once. -/
theorem registerAll_repeated (front layer back : List Compiler) :
    Bundle.registerAll .initial (front ++ layer ++ layer ++ back) =
      Bundle.registerAll .initial (front ++ layer ++ back) := by
  simp only [registerAll_append]
  cases first : Bundle.registerAll .initial front with
  | error e => rfl
  | ok between =>
      dsimp only
      cases second : Bundle.registerAll between layer with
      | error e => rfl
      | ok after =>
          have known : between.keys =
              (".json" :: (front.filter accepts).flatMap (·.extensions)).eraseDups := by
            have taken := accepts_of_registerAll first
            rw [← Except.ok.inj ((registerAll_of_accepts taken _).symm.trans first)]
            exact keys_callAll_initial front
          dsimp only
          rw [registerAll_again known second]

end Registry

/-! ## Errors -/

/-- **The error of a `specifier` that cannot be kept out.** -/
def Project.keepOutError? (P : Project) (w : Workspace) (specifier : String) : Option BundleError :=
  if isHostModule specifier || Specifier.kind specifier == .bare then none
  else match P.resolve w specifier P.base with
    | .error cause => some (.setup .excluded specifier cause)
    | .ok _ => none

/-- **The error of a `specifier` that cannot be packed.** -/
def Project.packError? (P : Project) (w : Workspace) (specifier : String) : Option BundleError :=
  match P.resolve w specifier P.base with
  | .error cause => some (.setup .included specifier cause)
  | .ok _ => none

/-- **The error of a setup**, told without the walk that is set up. -/
def Bundle.failure? (w : Workspace) (entry : Path) (options : Options) : Option BundleError :=
  match entryOf w entry with
  | .error cause => some (.invalidEntry entry cause)
  | .ok path =>
    match registerAll .initial options.compilers with
    | .error e => some e
    | .ok registry =>
      let P : Project := ⟨path, registry, registry.resolutionExtensions, options.policy⟩
      (options.excluded.findSome? (P.keepOutError? w)).or (options.included.findSome? (P.packError? w))

/-- **When a specifier cannot be kept out**: the error of `exclude?` is `keepOutError?` of the files,
whatever else the walk holds. -/
theorem Walk.exclude?_error_iff :
    walk.exclude? P specifier = .error e ↔ P.keepOutError? walk.files specifier = some e := by
  rw [exclude?, Project.keepOutError?]
  cases isHostModule specifier with
  | true => simp
  | false =>
      by_cases bare : Specifier.kind specifier = .bare
      · cases P.resolve walk.files specifier P.base with
        | error cause => simp [bare]
        | ok location => cases location <;> simp [bare]
      · cases P.resolve walk.files specifier P.base with
        | error cause => simp [bare]
        | ok location => cases location <;> simp [bare]

/-- **When a specifier cannot be packed**: the error of `include?` is `packError?` of the files,
whatever else the walk holds. -/
theorem Walk.include?_error_iff :
    walk.include? P specifier = .error e ↔ P.packError? walk.files specifier = some e := by
  rw [include?, Project.packError?]
  cases P.resolve walk.files specifier P.base with
  | error cause => simp
  | ok location =>
      cases location with
      | host name => simp
      | file location =>
          cases excluded : walk.exclusions.holdsFile location with
          | true => simp [excluded]
          | false => simp [excluded]

namespace Bundle

/-- **The first specifier that cannot be kept out** is the error of all. -/
theorem excludeAll_error_iff :
    excludeAll P walk specifiers = .error e ↔
      specifiers.findSome? (P.keepOutError? walk.files) = some e := by
  induction specifiers generalizing walk with
  | nil => simp [excludeAll]
  | cons specifier rest ih =>
      rw [excludeAll, List.findSome?_cons]
      cases done : walk.exclude? P specifier with
      | error cause => simp [Walk.exclude?_error_iff.mp done]
      | ok after =>
          obtain ⟨exclusions, rfl⟩ := Walk.exclude?_frame done
          have fine : P.keepOutError? walk.files specifier = none :=
            Option.eq_none_iff_forall_ne_some.mpr fun cause failed => by
              simp [Walk.exclude?_error_iff.mpr failed] at done
          rw [fine]
          exact ih

/-- **The first specifier that cannot be packed** is the error of all. -/
theorem includeAll_error_iff :
    (includeAll P walk specifiers).2 = .error e ↔
      specifiers.findSome? (P.packError? walk.files) = some e := by
  induction specifiers generalizing walk with
  | nil => simp [includeAll]
  | cons specifier rest ih =>
      rw [includeAll, List.findSome?_cons]
      cases done : walk.include? P specifier with
      | error cause => simp [Walk.include?_error_iff.mp done]
      | ok made =>
          obtain ⟨notice, after⟩ := made
          have fine : P.packError? walk.files specifier = none :=
            Option.eq_none_iff_forall_ne_some.mpr fun cause failed => by
              simp [Walk.include?_error_iff.mpr failed] at done
          rw [fine, ← (Walk.include?_frame done).1]
          exact ih

/-- **Why a `setup` fails**: the entry script, then the compilers, then what is kept out, then what is
packed, the first of each. -/
theorem setup_error_iff :
    (setup w entry options).2 = .error e ↔ failure? w entry options = some e := by
  rw [setup, failure?]
  cases entryOf w entry with
  | error cause => simp
  | ok path =>
      dsimp only
      cases registerAll .initial options.compilers with
      | error cause => simp
      | ok registry =>
          dsimp only
          generalize (⟨path, registry, registry.resolutionExtensions, options.policy⟩ : Project) = P
          have kept (e : BundleError) : excludeAll P (.start P w) options.excluded = .error e ↔
              options.excluded.findSome? (P.keepOutError? w) = some e := excludeAll_error_iff
          cases excluded : excludeAll P (.start P w) options.excluded with
          | error cause =>
              rw [(kept cause).mp excluded]
              simp
          | ok between =>
              have fine : options.excluded.findSome? (P.keepOutError? w) = none :=
                Option.eq_none_iff_forall_ne_some.mpr fun cause failed => by
                  simp [(kept cause).mpr failed] at excluded
              have packed : (includeAll P between options.included).2 = .error e ↔
                  options.included.findSome? (P.packError? between.files) = some e :=
                includeAll_error_iff
              rw [(fresh_excludeAll (Walk.fresh_start P w) excluded).1.files_eq] at packed
              rw [fine, Option.none_or, ← packed]
              dsimp only
              cases (includeAll P between options.included).2 <;> simp [Except.map]

end Bundle

/-! ## What is scheduled -/

namespace Path

variable {α : Type} [BEq α] [LawfulBEq α] {f : α → List Path} {x : α} {found : List Path}

/-- What brings nothing new may be left out. -/
theorem foldl_addNew_filter (known : ∀ p ∈ f x, p.isAmong found = true) (xs : List α) :
    ((xs.filter fun y => !y == x).flatMap f).foldl addNew found =
      (xs.flatMap f).foldl addNew found := by
  induction xs generalizing found with
  | nil => rfl
  | cons y rest ih =>
      by_cases same : y = x
      · rw [List.filter_cons_of_neg (by simp [same]), List.flatMap_cons, List.foldl_append, same,
          foldl_addNew_of_isAmong known, ih known]
      · have later : ∀ p ∈ f x, p.isAmong ((f y).foldl addNew found) = true :=
          fun p hp => isAmong_mono (prefix_foldl_addNew ..).subset (known p hp)
        rw [List.filter_cons_of_pos (by simpa using same), List.flatMap_cons, List.flatMap_cons,
          List.foldl_append, List.foldl_append, ih later]

/-- **What repeated specifiers add** is what each adds where it first comes. -/
theorem foldl_addNew_eraseDups (f : α → List Path) (xs : List α) (found : List Path) :
    (xs.eraseDups.flatMap f).foldl addNew found = (xs.flatMap f).foldl addNew found := by
  induction xs using Distinct.first_induction generalizing found with
  | nil => rfl
  | cons x xs ih =>
      rw [List.eraseDups_cons, List.flatMap_cons, List.flatMap_cons, List.foldl_append,
        List.foldl_append, ih]
      exact foldl_addNew_filter (fun p hp => isAmong_foldl_addNew hp) xs

end Path

/-- **A `walk` in front of its first module** is told by what it scheduled and what it keeps out. -/
theorem Walk.Fresh.eq_keepingOut (h : Fresh w walk) (h' : Fresh w other)
    (scheduled : other.scheduled = walk.scheduled) : other = walk.keepingOut other.exclusions := by
  have files := h'.files_eq.trans h.files_eq.symm
  have queue := (h'.queue_eq.trans scheduled).trans h.queue_eq.symm
  have emitted := h'.emitted_eq.trans h.emitted_eq.symm
  have unresolved := h'.unresolved_eq.trans h.unresolved_eq.symm
  have graph := h'.graph_eq.trans h.graph_eq.symm
  cases walk
  cases other
  simp only [Walk.keepingOut, Walk.mk.injEq] at *
  exact ⟨files, queue, scheduled, emitted, trivial, unresolved, graph⟩

/-! ## Options that say the same -/

/-- **Options that say the same**: the same `specifiers` are kept out, the same are packed in the order
of their first occurrences, and a layer of the compilers may be given twice. -/
structure Options.Restates (options again : Options) : Prop where
  /-- The same specifiers are kept out, in any order and however often. -/
  excluded : ∀ specifier, specifier ∈ again.excluded ↔ specifier ∈ options.excluded
  /-- The same specifiers are packed, whatever comes again later. -/
  included : again.included.eraseDups = options.included.eraseDups
  /-- The same compilers are registered, some of them twice. -/
  compilers : ∃ front layer back, options.compilers = front ++ layer ++ back ∧
    again.compilers = front ++ layer ++ layer ++ back
  /-- The policy is the same. -/
  policy_eq : again.policy = options.policy

namespace Options.Restates

variable {again : Options}

/-- Options that restate others register the same `compilers`. -/
theorem registerAll_eq (same : options.Restates again) :
    Bundle.registerAll .initial again.compilers = Bundle.registerAll .initial options.compilers := by
  obtain ⟨front, layer, back, once, twice⟩ := same.compilers
  rw [once, twice, Registry.registerAll_repeated]

/-- Options that restate others include the same specifiers. -/
theorem mem_included (same : options.Restates again) :
    specifier ∈ again.included ↔ specifier ∈ options.included := by
  rw [← List.mem_eraseDups, same.included, List.mem_eraseDups]

/-- **Specifiers that are kept out in other words** keep out the same. -/
theorem exclusionsOf_alike (same : options.Restates again) :
    (P.exclusionsOf w options.excluded).Alike (P.exclusionsOf w again.excluded) := by
  refine ⟨fun name => ?_, fun parts => ?_⟩
  · simp only [Project.exclusionsOf, List.mem_flatMap, same.excluded]
  · simp only [Project.exclusionsOf, List.mem_flatMap, same.excluded]

end Options.Restates

namespace Bundle

variable {again : Options}

/-- **Setups that say the same** fail together. -/
theorem isSome_failure? (same : options.Restates again) :
    (failure? w entry again).isSome = (failure? w entry options).isSome := by
  have one {f : String → Option BundleError} {specifiers others : List String}
      (listed : ∀ specifier, specifier ∈ others ↔ specifier ∈ specifiers) :
      (others.findSome? f).isSome = (specifiers.findSome? f).isSome := by
    rw [Bool.eq_iff_iff, List.findSome?_isSome_iff, List.findSome?_isSome_iff]
    exact exists_congr fun specifier => and_congr_left' (listed specifier)
  rw [failure?, failure?]
  cases entryOf w entry with
  | error cause => rfl
  | ok path =>
      dsimp only
      rw [same.registerAll_eq]
      cases registerAll .initial options.compilers with
      | error cause => rfl
      | ok registry =>
          dsimp only
          rw [Option.isSome_or, Option.isSome_or, same.policy_eq, one same.excluded,
            one fun _ => same.mem_included]

/-- **Setups that say the same** start the same `walk`, with the same kept out. -/
theorem setup_restated {P' : Project} (same : options.Restates again)
    (made : (setup w entry options).2 = .ok (P, walk))
    (remade : (setup w entry again).2 = .ok (P', other)) :
    P' = P ∧ walk.exclusions.Alike other.exclusions ∧ other = walk.keepingOut other.exclusions := by
  obtain ⟨registry, -, -, rooted, registered, whole, -⟩ := setup_ok made
  obtain ⟨registry', -, -, rooted', registered', whole', -⟩ := setup_ok remade
  have start := Except.ok.inj (rooted.symm.trans rooted')
  obtain rfl := Except.ok.inj (registered.symm.trans (same.registerAll_eq ▸ registered'))
  obtain rfl : P' = P := by rw [whole, whole', start, same.policy_eq]
  have kept : ∀ {options walk}, (setup w entry options).2 = .ok (P', walk) →
      walk.exclusions = P'.exclusionsOf w options.excluded := by
    intro options walk made
    rw [exclusions_of_setup made, Walk.keptOut, List.filterMap_map]
    simp
  have alike : walk.exclusions.Alike other.exclusions := by
    rw [kept made, kept remade]
    exact same.exclusionsOf_alike
  obtain ⟨fresh, scheduled⟩ := setup_spec made
  obtain ⟨fresh', scheduled'⟩ := setup_spec remade
  have adds : P'.addedBy w other.exclusions = P'.addedBy w walk.exclusions := by
    funext specifier
    simp only [Project.addedBy, alike.holdsFile_eq]
  refine ⟨rfl, alike, fresh.eq_keepingOut fresh' ?_⟩
  rw [scheduled, scheduled', adds, Path.distinct, Path.distinct, List.foldl_cons, List.foldl_cons,
    ← Path.foldl_addNew_eraseDups, same.included, Path.foldl_addNew_eraseDups]

end Bundle

/-! ## Bundles -/

/-- **Walks that differ in what is kept out**, but not in what that keeps out, give the same `bundle`. -/
theorem bundle_keepingOut {again : Options} {y : Exclusions}
    (made : (Bundle.setup w entry options).2 = .ok (P, walk))
    (remade : (Bundle.setup w entry again).2 = .ok (P, walk.keepingOut y))
    (alike : walk.exclusions.Alike y) (limit : Nat) :
    bundle limit w entry again = bundle limit w entry options := by
  have chunks : (ChunkStream.start (walk.keepingOut y) P.artifact).all P limit = _ :=
    ChunkStream.all_keepingOut (s := .start walk P.artifact) limit alike
  rw [bundle, bundle, made, remade]
  dsimp only
  rw [chunks, Option.map_map]
  rfl

/-- **Options that say the same** are both refused, or give the same `bundle`. -/
theorem bundle_restated (w : Workspace) (entry : Path) {again : Options}
    (same : options.Restates again) :
    ((∃ e, (Bundle.setup w entry options).2 = .error e) ∧
        ∃ e, (Bundle.setup w entry again).2 = .error e) ∨
      (∃ made, (Bundle.setup w entry options).2 = .ok made) ∧
        (∃ made, (Bundle.setup w entry again).2 = .ok made) ∧
        ∀ limit, bundle limit w entry again = bundle limit w entry options := by
  have together : (Bundle.failure? w entry again).isSome = (Bundle.failure? w entry options).isSome :=
    Bundle.isSome_failure? same
  cases made : (Bundle.setup w entry options).2 with
  | error e =>
      rw [Bundle.setup_error_iff.mp made, Option.isSome_some] at together
      obtain ⟨e', failed⟩ := Option.isSome_iff_exists.mp together
      exact .inl ⟨⟨e, rfl⟩, e', Bundle.setup_error_iff.mpr failed⟩
  | ok start =>
      cases remade : (Bundle.setup w entry again).2 with
      | error e =>
          rw [Bundle.setup_error_iff.mp remade, Option.isSome_some] at together
          obtain ⟨e', failed⟩ := Option.isSome_iff_exists.mp together.symm
          simp [Bundle.setup_error_iff.mpr failed] at made
      | ok start' =>
          obtain ⟨P, walk⟩ := start
          obtain ⟨P', other⟩ := start'
          obtain ⟨rfl, alike, walks⟩ := Bundle.setup_restated same made remade
          rw [walks] at remade
          exact .inr ⟨⟨_, rfl⟩, ⟨_, rfl⟩, bundle_keepingOut made remade alike⟩

/-- **A layer of options that is given twice** changes nothing, not even the error. -/
theorem bundle_layer_twice (w : Workspace) (entry : Path) (i i' i'' x x' x'' : List String)
    (c c' c'' : List Compiler) (policy : Policy) (limit : Nat) :
    bundle limit w entry
        ⟨i ++ i' ++ i' ++ i'', x ++ x' ++ x' ++ x'', c ++ c' ++ c' ++ c'', policy⟩ =
      bundle limit w entry ⟨i ++ i' ++ i'', x ++ x' ++ x'', c ++ c' ++ c'', policy⟩ := by
  have same : Options.Restates ⟨i ++ i' ++ i'', x ++ x' ++ x'', c ++ c' ++ c'', policy⟩
      ⟨i ++ i' ++ i' ++ i'', x ++ x' ++ x' ++ x'', c ++ c' ++ c' ++ c'', policy⟩ := by
    refine ⟨fun specifier => ?_, Distinct.eraseDups_repeated .., ⟨c, c', c'', rfl, rfl⟩, rfl⟩
    simp
  have first (f : String → Option BundleError) (a b c : List String) :
      (a ++ b ++ b ++ c).findSome? f = (a ++ b ++ c).findSome? f := by
    have again (once twice : Option BundleError) : (once.or twice).or twice = once.or twice := by
      rw [Option.or_assoc, Option.or_self]
    simp only [List.findSome?_append, again]
  have fails : Bundle.failure? w entry
        ⟨i ++ i' ++ i' ++ i'', x ++ x' ++ x' ++ x'', c ++ c' ++ c' ++ c'', policy⟩ =
      Bundle.failure? w entry ⟨i ++ i' ++ i'', x ++ x' ++ x'', c ++ c' ++ c'', policy⟩ := by
    simp only [Bundle.failure?, first, Registry.registerAll_repeated]
  rcases bundle_restated w entry same with ⟨⟨e, once⟩, e', twice⟩ | ⟨-, -, eq⟩
  · have error := Bundle.setup_error_iff.mp once
    rw [← fails, Bundle.setup_error_iff.mp twice] at error
    rw [bundle_of_setup_error limit once, bundle_of_setup_error limit twice, Option.some.inj error]
  · exact eq limit

/-- **The options with every list written twice.** -/
def Options.twice (options : Options) : Options :=
  ⟨options.included ++ options.included, options.excluded ++ options.excluded,
    options.compilers ++ options.compilers, options.policy⟩

/-- Three scripts, the first of which refers to a package. -/
def layeredScripts : Workspace :=
  ⟨⟨[(["a.js"], .text "require('x/y')"), (["b.js"], .text "require('./c')"), (["c.js"], .text "")], []⟩,
    []⟩

/-- Options that keep out the package and a script, and pack another one. -/
def layeredOptions : Options :=
  ⟨["./b", "./c"], ["x", "./c"], [Registry.plainCompiler "plain" [".ts", ".json"]], .fail⟩

/-- The same in other words. -/
def layeredAgain : Options :=
  ⟨["./b", "./c", "./b"], ["./c", "x", "x"], [Registry.plainCompiler "plain" [".ts", ".json"],
    Registry.plainCompiler "plain" [".ts", ".json"]], .fail⟩

end ScriptBundle
