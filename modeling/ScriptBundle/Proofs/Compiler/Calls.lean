import ScriptBundle.Proofs.Compiler.History
import ScriptBundle.Proofs.Distinct

/-! # Registration calls

A registry that is asked to take compilers, one after the other, and refuses some of them. A refused
compiler is as good as never offered, so that only the accepted ones count. The last of them that is
for an extension has it; where an extension stands in the order of a search is settled by the first.

* **`Registry.accepts`** — whether a compiler is taken, which no registry decides differently;
* **`Registry.callAll`** — the registry behind some calls, whether or not they succeed;
* **`Registry.keys_callAll`** — the extensions it has, in their order;
* **`Registry.callAll_spec`** — the calls a registry was asked for, told by what it does. -/

namespace ScriptBundle

namespace Registry

variable {r : Registry} {compiler : Compiler} {e : String} {seen extensions : List String}

/-! ## One call -/

/-- **Whether a `compiler` is taken**: it is for an extension, and all of them are well formed. -/
def accepts (compiler : Compiler) : Bool := (refusal? compiler.extensions).isNone

/-- **The registry behind one call**, which is the one in front of it where the `compiler` is refused. -/
def call (r : Registry) (compiler : Compiler) : Registry :=
  match r.register compiler with
  | .ok after => after
  | .error _ => r

/-- What `accepts` decides: there are extensions, and each is a dot with something behind it. -/
theorem accepts_iff :
    accepts compiler = true ↔
      compiler.extensions ≠ [] ∧ ∀ e ∈ compiler.extensions, isExtension e = true := by
  rw [accepts]
  cases compiler.extensions with
  | nil => simp [refusal?]
  | cons e rest => simp [refusal?, List.find?_eq_none]

/-- An accepted `compiler` takes its extensions, one after the other. -/
theorem register_of_accepts (taken : accepts compiler = true) (r : Registry) :
    r.register compiler =
      .ok (compiler.extensions.foldl (fun r extension => r.set extension compiler) r) := by
  rw [register, Option.isNone_iff_eq_none.mp taken]

/-- **A `compiler` is taken by every registry or by none.** -/
theorem exists_register_iff (r : Registry) (compiler : Compiler) :
    (∃ after, r.register compiler = .ok after) ↔ accepts compiler = true := by
  refine ⟨fun ⟨after, done⟩ => ?_, fun taken => ⟨_, register_of_accepts taken r⟩⟩
  rw [register] at done
  rw [accepts]
  cases refused : refusal? compiler.extensions with
  | none => rfl
  | some cause => simp [refused] at done

/-- **A refused call** changes nothing. -/
theorem call_of_not_accepts (refused : ¬accepts compiler = true) (r : Registry) :
    r.call compiler = r := by
  rw [call]
  cases done : r.register compiler with
  | error cause => rfl
  | ok after => exact absurd ((exists_register_iff r compiler).mp ⟨after, done⟩) refused

/-- A `call` with an accepted compiler sets it for each of its extensions, one after the other. -/
theorem call_of_accepts (taken : accepts compiler = true) (r : Registry) :
    r.call compiler =
      compiler.extensions.foldl (fun r extension => r.set extension compiler) r := by
  rw [call, register_of_accepts taken]

/-! ## The order of extensions -/

/-- **One extension set** comes behind those that were seen, if it is none of them. -/
theorem keys_set_of (known : r.keys = seen.eraseDups) (e : String) (compiler : Compiler) :
    (r.set e compiler).keys = (seen ++ [e]).eraseDups := by
  rw [keys_set, List.eraseDups_append, known]
  by_cases old : e ∈ seen
  · simp [old, List.removeAll]
  · simp [old, List.removeAll, List.eraseDups_cons]

/-- The `keys` of a registry stay the extensions in the order in which they were first met. -/
theorem keys_foldl_set_of (known : r.keys = seen.eraseDups) (extensions : List String)
    (compiler : Compiler) :
    (extensions.foldl (fun r extension => r.set extension compiler) r).keys =
      (seen ++ extensions).eraseDups := by
  induction extensions generalizing r seen with
  | nil => rw [List.foldl_nil, known, List.append_nil]
  | cons e rest ih => rw [List.foldl_cons, ih (keys_set_of known e compiler), List.append_assoc,
      List.singleton_append]

/-! ## All calls -/

/-- **The registry behind some calls.** -/
def callAll (r : Registry) (calls : List Compiler) : Registry := calls.foldl call r

/-- **Only accepted calls count.** -/
theorem callAll_filter (r : Registry) (calls : List Compiler) :
    r.callAll (calls.filter accepts) = r.callAll calls := by
  induction calls generalizing r with
  | nil => rfl
  | cons compiler rest ih =>
      by_cases taken : accepts compiler = true
      · rw [List.filter_cons_of_pos taken]
        exact ih _
      · rw [List.filter_cons_of_neg taken, ih, callAll, callAll, List.foldl_cons,
          call_of_not_accepts taken]

/-- **Calls that are all accepted** give the registry of a bundle with these compilers. -/
theorem registerAll_of_accepts {calls : List Compiler}
    (taken : ∀ compiler ∈ calls, accepts compiler = true) (r : Registry) :
    Bundle.registerAll r calls = .ok (r.callAll calls) := by
  induction calls generalizing r with
  | nil => rfl
  | cons compiler rest ih =>
      obtain ⟨first, others⟩ := List.forall_mem_cons.mp taken
      rw [Bundle.registerAll, register_of_accepts first]
      dsimp only
      rw [ih others, callAll, callAll, List.foldl_cons, call_of_accepts first]

/-- **A registry behind some calls** is that of a bundle with the accepted compilers. -/
theorem registerAll_filter (r : Registry) (calls : List Compiler) :
    Bundle.registerAll r (calls.filter accepts) = .ok (r.callAll calls) := by
  rw [registerAll_of_accepts fun compiler mem => (List.mem_filter.mp mem).2, callAll_filter]

/-- **A refused call among others** is as good as never made. -/
theorem callAll_append_refused {calls : List Compiler} {cause : RegistrationError}
    (refused : (r.callAll calls).register compiler = .error cause) (later : List Compiler) :
    r.callAll (calls ++ compiler :: later) = r.callAll (calls ++ later) := by
  have same : (r.callAll calls).call compiler = r.callAll calls := by rw [call, refused]
  rw [callAll, callAll, List.foldl_append, List.foldl_append, List.foldl_cons]
  exact congrArg (later.foldl call) same

/-- **The `extensions` behind some calls**: those that were seen and those of the accepted compilers,
each where it first came. -/
theorem keys_callAll (known : r.keys = seen.eraseDups) (calls : List Compiler) :
    (r.callAll calls).keys =
      (seen ++ (calls.filter accepts).flatMap (·.extensions)).eraseDups := by
  induction calls generalizing r seen with
  | nil => rw [callAll, List.foldl_nil, known, List.filter_nil, List.flatMap_nil, List.append_nil]
  | cons compiler rest ih =>
      by_cases taken : accepts compiler = true
      · have step : (r.call compiler).keys = (seen ++ compiler.extensions).eraseDups := by
          rw [call_of_accepts taken, keys_foldl_set_of known]
        rw [callAll, List.foldl_cons, ← callAll, ih step, List.filter_cons_of_pos taken,
          List.flatMap_cons, List.append_assoc]
      · rw [callAll, List.foldl_cons, call_of_not_accepts taken, ← callAll, ih known,
          List.filter_cons_of_neg taken]

/-- The extensions behind the calls a bundle makes, `.json` in front of them. -/
theorem keys_callAll_initial (calls : List Compiler) :
    (initial.callAll calls).keys =
      (".json" :: (calls.filter accepts).flatMap (·.extensions)).eraseDups := by
  have start : initial.keys = [".json"].eraseDups := rfl
  exact keys_callAll start calls

/-- The extensions a search tries, by those that were seen. -/
theorem resolutionExtensions_of (known : r.keys = seen.eraseDups) :
    r.resolutionExtensions = hostExtensions ++ (seen.removeAll hostExtensions).eraseDups := by
  rw [resolutionExtensions, known, Distinct.filter_eraseDups]
  rfl

/-- The extensions a search tries are those of the host and of the registry, each where it first
comes. -/
theorem eraseDups_hostExtensions_append (seen : List String) :
    (hostExtensions ++ seen).eraseDups =
      hostExtensions ++ (seen.removeAll hostExtensions).eraseDups := by
  rw [List.eraseDups_append]
  rfl

/-- **The `compiler` for an extension** is the last accepted one that is for it. Where there is none,
documents and scripts have theirs. -/
theorem compilerFor_callAll (calls : List Compiler) (e : String) :
    (initial.callAll calls).compilerFor e =
      ((calls.filter accepts).reverse.find? fun compiler => compiler.extensions.contains e).getD
        (if e = ".json" then .document else .source) := by
  rw [compilerFor, Bundle.lookup_registerAll_append (registerAll_filter initial calls), initial,
    Table.lookup_entry_cons]
  cases (calls.filter accepts).reverse.find? fun compiler => compiler.extensions.contains e with
  | some compiler => rfl
  | none => by_cases same : e = ".json" <;> simp [same]

/-- **What a `registry` does, told by the calls it was asked for**, some of which may be refused.
Whether a compiler is taken depends on its extensions only, and a refused one changes nothing: the
registry is that of a bundle with the accepted compilers. Its compiler for an extension is the last of
these that is for it, and where there is none, documents and scripts have theirs. A search tries the
extensions of the host and then all others, each once and where the first accepted compiler put it;
no later call moves one. -/
theorem callAll_spec (calls : List Compiler) :
    let registry := initial.callAll calls
    let accepted := calls.filter accepts
    (∀ compiler, (∃ after, registry.register compiler = .ok after) ↔ accepts compiler = true) ∧
    (∀ compiler, accepts compiler = true ↔
      compiler.extensions ≠ [] ∧ ∀ e ∈ compiler.extensions, isExtension e = true) ∧
    (∀ compiler cause, registry.register compiler = .error cause →
      ∀ later, initial.callAll (calls ++ compiler :: later) = initial.callAll (calls ++ later)) ∧
    Bundle.registerAll initial accepted = .ok registry ∧
    (∀ e, registry.compilerFor e =
      (accepted.reverse.find? fun compiler => compiler.extensions.contains e).getD
        (if e = ".json" then .document else .source)) ∧
    registry.resolutionExtensions.Nodup ∧
    registry.resolutionExtensions = [".js", ".json"] ++
      ((accepted.flatMap (·.extensions)).removeAll [".js", ".json"]).eraseDups ∧
    ∀ later, registry.resolutionExtensions <+: (registry.callAll later).resolutionExtensions := by
  intro registry accepted
  have keys := keys_callAll_initial calls
  have order : registry.resolutionExtensions = _ := resolutionExtensions_of keys
  refine ⟨exists_register_iff registry, fun compiler => accepts_iff,
    fun compiler cause refused => callAll_append_refused refused, registerAll_filter initial calls,
    compilerFor_callAll calls, ?_, order, fun later => ?_⟩
  · rw [order, ← eraseDups_hostExtensions_append]
    exact Distinct.nodup_eraseDups _
  · rw [order, resolutionExtensions_of (keys_callAll keys later), ← eraseDups_hostExtensions_append,
      ← eraseDups_hostExtensions_append, ← List.append_assoc]
    exact Distinct.eraseDups_prefix_append _ _

/-- A compiler for some `extensions` that gives files as they stand. -/
def plainCompiler (name : String) (extensions : List String) : Compiler :=
  ⟨name, extensions, true, fun w p => (readSource w p, w)⟩

/-- A refused compiler between two accepted ones, which share an extension. -/
theorem callAll_spec_refused :
    let refused := plainCompiler "refused" [".php", "ts"]
    let registry := initial.callAll
      [plainCompiler "first" [".ts", ".js"], refused, plainCompiler "last" [".json", ".ts", ".php"]]
    (initial.call (plainCompiler "first" [".ts", ".js"])).register refused =
        .error (.badExtension "ts") ∧
      registry = initial.callAll
        [plainCompiler "first" [".ts", ".js"], plainCompiler "last" [".json", ".ts", ".php"]] ∧
      [".js", ".json", ".ts", ".php", ".css"].map (fun e => (registry.compilerFor e).name) =
        ["first", "last", "last", "last", Compiler.source.name] ∧
      registry.resolutionExtensions = [".js", ".json", ".ts", ".php"] := by
  intro refused registry
  have failed : (initial.call (plainCompiler "first" [".ts", ".js"])).register refused =
      .error (.badExtension "ts") := by
    rw [register, show refusal? refused.extensions = some (.badExtension "ts") by decide]
  have before := (callAll_spec [plainCompiler "first" [".ts", ".js"]]).2.2.1 refused _ failed
  obtain ⟨-, -, -, -, found, -, order, -⟩ := callAll_spec
    [plainCompiler "first" [".ts", ".js"], refused, plainCompiler "last" [".json", ".ts", ".php"]]
  refine ⟨failed, before [plainCompiler "last" [".json", ".ts", ".php"]], ?_, order.trans ?_⟩
  · rw [List.map_congr_left fun e _ => congrArg Compiler.name (found e)]
    decide +kernel
  · decide +kernel

end Registry

end ScriptBundle
