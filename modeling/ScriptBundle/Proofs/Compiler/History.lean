import ScriptBundle.Bundle
import ScriptBundle.Proofs.Table

/-! # Registration histories

A registry is the outcome of the compilers that were registered, one after the other. Which compiler
it has for an extension is told by that history alone: the last compiler that is for the extension.

* **`Registry.lookup_set`, `lookup_foldl_set`, `lookup_register`** — what one compiler more changes;
* **`Registry.lastFor?`** — the last compiler of a history that is for an extension;
* **`Bundle.lookup_registerAll`** — the table of the registry a bundle uses. -/

namespace ScriptBundle

namespace Registry

variable {r after : Registry} {extension e : String} {compiler : Compiler}
  {extensions : List String}

/-! ## One compiler more -/

/-- On the table of a registry, `set` is `Table.put`. -/
theorem table_set (r : Registry) (extension : String) (compiler : Compiler) :
    (r.set extension compiler).table = Table.put r.table extension compiler := by
  have known : r.keys.contains extension = true ↔ extension ∈ r.table.map (·.1) :=
    List.contains_iff_mem
  by_cases present : extension ∈ r.table.map (·.1)
  · rw [set, if_pos (known.mpr present), Table.put, if_pos present]
    rfl
  · rw [set, if_neg (mt known.mp present), Table.put, if_neg present]

/-- **One `extension` set** changes the compiler of this extension only. -/
theorem lookup_set (r : Registry) (extension e : String) (compiler : Compiler) :
    (r.set extension compiler).table.lookup e =
      if e = extension then some compiler else r.table.lookup e := by
  rw [table_set, Table.lookup_put]

/-- **Some `extensions` set** for one compiler. -/
theorem lookup_foldl_set (r : Registry) (extensions : List String) (e : String)
    (compiler : Compiler) :
    (extensions.foldl (fun r extension => r.set extension compiler) r).table.lookup e =
      if extensions.contains e then some compiler else r.table.lookup e := by
  induction extensions generalizing r with
  | nil => rfl
  | cons extension rest ih =>
      rw [List.foldl_cons, ih, lookup_set, List.contains_cons]
      by_cases later : e ∈ rest
      · simp [later]
      · simp [later]

/-- **A `compiler` registered** takes over all its extensions and no other. -/
theorem lookup_register (done : r.register compiler = .ok after) (e : String) :
    after.table.lookup e =
      if compiler.extensions.contains e then some compiler else r.table.lookup e := by
  unfold register at done
  split at done
  · simp at done
  · rw [← Except.ok.inj done, lookup_foldl_set]

/-- The `extensions` of a compiler that was registered are well formed. -/
theorem isExtension_of_register (done : r.register compiler = .ok after)
    (he : e ∈ compiler.extensions) : isExtension e = true := by
  unfold register at done
  split at done
  · simp at done
  · rename_i passed
    unfold refusal? at passed
    split at passed
    · simp at passed
    · simpa using List.find?_eq_none.mp (Option.map_eq_none_iff.mp passed) e he

/-! ## Histories -/

/-- **The last `compiler` of a history that is for an extension.** Every history starts with the
compiler of documents. -/
def lastFor? (history : List Compiler) (e : String) : Option Compiler :=
  (Compiler.document :: history).reverse.find? fun compiler => compiler.extensions.contains e

/-- The registry a run starts with knows the compiler of documents. -/
theorem lookup_initial (e : String) : initial.table.lookup e = lastFor? [] e := by
  rw [initial, Table.lookup_entry_cons, lastFor?, List.reverse_singleton]
  by_cases same : e = ".json"
  · subst same
    rfl
  · rw [if_neg same, List.find?_cons_of_neg]
    · rfl
    · simpa [Compiler.document] using same

end Registry

namespace Bundle

variable {r registry : Registry} {compilers : List Compiler}

/-- **The `compilers` of some options** in a registry: the last one that is for an extension. -/
theorem lookup_registerAll_append (done : registerAll r compilers = .ok registry) (e : String) :
    registry.table.lookup e =
      (compilers.reverse.find? fun compiler => compiler.extensions.contains e).or
        (r.table.lookup e) := by
  induction compilers generalizing r with
  | nil =>
      rw [← Except.ok.inj done]
      rfl
  | cons compiler rest ih =>
      rw [registerAll] at done
      split at done
      · rename_i next registered
        rw [ih done, Registry.lookup_register registered, List.reverse_cons, List.find?_append,
          Option.or_assoc]
        congr 1
        by_cases own : e ∈ compiler.extensions
        · simp [own]
        · simp [own]
      · simp at done

/-- The `extensions` of compilers that were registered are well formed. -/
theorem isExtension_of_registerAll {compiler : Compiler} {e : String}
    (done : registerAll r compilers = .ok registry) (mem : compiler ∈ compilers)
    (he : e ∈ compiler.extensions) : isExtension e = true := by
  induction compilers generalizing r with
  | nil => exact absurd mem List.not_mem_nil
  | cons first rest ih =>
      rw [registerAll] at done
      split at done
      · rename_i next registered
        rcases List.mem_cons.mp mem with rfl | later
        · exact Registry.isExtension_of_register registered he
        · exact ih done later
      · simp at done

/-- A `compiler` of a history is for well formed extensions. -/
theorem isExtension_of_lastFor? {compiler : Compiler} {e : String}
    (done : registerAll .initial compilers = .ok registry)
    (last : Registry.lastFor? compilers e = some compiler) : isExtension e = true := by
  have mem := List.mem_reverse.mp (List.mem_of_find?_eq_some last)
  have he : e ∈ compiler.extensions := by simpa using List.find?_some last
  rcases List.mem_cons.mp mem with rfl | later
  · rw [List.mem_singleton.mp he]
    decide
  · exact isExtension_of_registerAll done later he

/-- **The `registry` of a bundle** has for each extension the last compiler that is for it. -/
theorem lookup_registerAll (done : registerAll .initial compilers = .ok registry) (e : String) :
    registry.table.lookup e = Registry.lastFor? compilers e := by
  rw [lookup_registerAll_append done, Registry.lookup_initial, Registry.lastFor?, Registry.lastFor?,
    List.reverse_singleton, List.reverse_cons, List.find?_append]

end Bundle

end ScriptBundle
