import ScriptBundle.Bundle

/-! # Registered compilers

What holds of every compiler that is registered, for each extension it is registered for, holds of
every compiler a bundle uses, if it holds of those a run starts with:

* **`Compiler.leavesFiles_command`** — compilers by their programs leave the files as they are;
* **`Registry.Holds`** — what holds of all entries of a registry;
* **`Bundle.holds_registerAll`** — it is kept by the compilers of the options;
* **`Registry.files_compile`** — where compilers leave the files as they are, so does the registry;
* **`Registry.Holds.resolutionExtensions`** — what holds of extensions holds of those a search tries. -/

namespace ScriptBundle

/-- **A compiler by its program leaves the files as they are** where all `programs` do. -/
theorem Compiler.leavesFiles_command {programs : Programs} (leave : programs.LeaveFiles)
    (extensions : List String) (program : String) (arguments : List String) :
    (command programs extensions program arguments).LeavesFiles := by
  intro w p
  rw [command]
  dsimp only
  split
  · rfl
  · rename_i finished after ran
    exact leave w program _ finished after ran

namespace Registry

variable {holds : String → Compiler → Prop} {r after : Registry} {extension e : String}
  {compiler : Compiler} {extensions : List String} {w : Workspace} {p : Path}

/-- **What holds of all entries of a registry.** -/
def Holds (holds : String → Compiler → Prop) (r : Registry) : Prop :=
  ∀ entry ∈ r.table, holds entry.1 entry.2

/-- One entry more, in the place of another or behind all. -/
theorem Holds.set (h : r.Holds holds) (new : holds extension compiler) :
    (r.set extension compiler).Holds holds := by
  unfold Registry.set
  split
  · intro entry hentry
    obtain ⟨old, hold, rfl⟩ := List.mem_map.mp hentry
    split
    · exact new
    · exact h old hold
  · intro entry hentry
    rcases List.mem_append.mp hentry with old | last
    · exact h entry old
    · rw [List.mem_singleton.mp last]
      exact new

/-- What holds of a registry, and of a compiler with some extensions, holds once it is `set` for these.
-/
theorem Holds.foldl_set (h : r.Holds holds) (new : ∀ e ∈ extensions, holds e compiler) :
    (extensions.foldl (fun r extension => r.set extension compiler) r).Holds holds := by
  induction extensions generalizing r with
  | nil => exact h
  | cons e rest ih =>
      exact ih (h.set (new e List.mem_cons_self)) fun q hq => new q (List.mem_cons_of_mem _ hq)

/-- What holds of a registry and of a `compiler` with its extensions holds once it is registered. -/
theorem Holds.register (h : r.Holds holds) (new : ∀ e ∈ compiler.extensions, holds e compiler)
    (done : r.register compiler = .ok after) : after.Holds holds := by
  unfold Registry.register at done
  split at done
  · simp at done
  · obtain rfl := Except.ok.inj done
    exact h.foldl_set new

/-- The registry a run starts with leaves the files as they are. -/
theorem leavesFiles_initial : initial.Holds fun _ compiler => compiler.LeavesFiles := by
  intro entry hentry
  rw [List.mem_singleton.mp hentry]
  exact Compiler.leavesFiles_document

/-- **What holds of all compilers of a registry**, and of the one for scripts, holds of the one that
is used. -/
theorem Holds.compilerFor {holds : Compiler → Prop} (h : r.Holds fun _ compiler => holds compiler)
    (script : holds .source) (e : String) : holds (r.compilerFor e) := by
  unfold Registry.compilerFor
  cases found : r.table.lookup e with
  | none => exact script
  | some compiler =>
      obtain ⟨front, back, whole, -⟩ := List.lookup_eq_some_iff.mp found
      exact h (e, compiler) (by simp [whole])

/-- **The registry leaves the files as they are** where all its compilers do. -/
theorem files_compile (h : r.Holds fun _ compiler => compiler.LeavesFiles) (w : Workspace)
    (p : Path) : (r.compile w p).2 = w :=
  h.compilerFor Compiler.leavesFiles_source p.extension w p

/-- **What holds of the extensions of the host and of those of a registry** holds of all that a search
tries. -/
theorem Holds.resolutionExtensions {holds : String → Prop} (h : r.Holds fun e _ => holds e)
    (host : ∀ e ∈ hostExtensions, holds e) : ∀ e ∈ r.resolutionExtensions, holds e := by
  intro e he
  rcases List.mem_append.mp he with own | registered
  · exact host e own
  · obtain ⟨entry, hentry, rfl⟩ := List.mem_map.mp (List.mem_filter.mp registered).1
    exact h entry hentry

end Registry

namespace Bundle

variable {holds : String → Compiler → Prop} {r after : Registry} {compilers : List Compiler}

/-- **What holds of a registry and of some `compilers`** holds of the registry with these. -/
theorem holds_registerAll (h : r.Holds holds)
    (new : ∀ compiler ∈ compilers, ∀ e ∈ compiler.extensions, holds e compiler)
    (done : registerAll r compilers = .ok after) : after.Holds holds := by
  induction compilers generalizing r with
  | nil => exact Except.ok.inj done ▸ h
  | cons compiler rest ih =>
      rw [registerAll] at done
      split at done
      · rename_i registered
        exact ih (h.register (new compiler List.mem_cons_self) registered)
          (fun c hc => new c (List.mem_cons_of_mem _ hc)) done
      · simp at done

end Bundle

end ScriptBundle
