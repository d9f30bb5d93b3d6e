import ScriptBundle.Compiler.Basic

/-! # Compiler registries

Which compiler is used for which extension. A later compiler replaces an earlier one for the
extensions they share, and a replaced extension keeps its place in the order; files of other
extensions are taken as they stand.

* **`Registry.register`** — a compiler added for all its extensions, or why it is refused;
* **`Registry.compilerFor`** — the compiler of an extension;
* **`Registry.compile`** — a file compiled by the compiler of its extension;
* **`Registry.resolutionExtensions`** — the extensions a search tries, in their order. -/

namespace ScriptBundle

/-- **Why a compiler is refused.** -/
inductive RegistrationError
  /-- It is for no extension. -/
  | noExtension
  /-- One of its extensions has no dot in front, or nothing behind the dot. -/
  | badExtension (extension : String)
deriving DecidableEq, Repr

/-- The wording of a refusal. -/
def RegistrationError.message : RegistrationError → String
  | noExtension => "it does not support any extension"
  | badExtension extension =>
    "extension '" ++ extension ++ "' must start with a dot followed by a name"

/-- Whether a text can be an extension: a dot and something behind it. -/
def isExtension (s : String) : Bool :=
  match s.toList with
  | '.' :: _ :: _ => true
  | _ => false

/-- **A compiler registry**: the `extensions` in the order they were first registered, each with
its compiler. -/
structure Registry where
  /-- The extensions with their compilers. -/
  table : List (String × Compiler)

namespace Registry

/-- **The registry a run starts with**: JSON documents have their compiler. -/
def initial : Registry := ⟨[(".json", .document)]⟩

instance : Inhabited Registry := ⟨initial⟩

/-- The registered extensions. -/
def keys (r : Registry) : List String := r.table.map (·.1)

/-- **A `compiler` set for one extension.** -/
def set (r : Registry) (extension : String) (compiler : Compiler) : Registry :=
  if r.keys.contains extension then
    ⟨r.table.map fun entry => if entry.1 = extension then (extension, compiler) else entry⟩
  else ⟨r.table ++ [(extension, compiler)]⟩

/-- Why the `extensions` of a compiler are refused, if they are. -/
def refusal? : List String → Option RegistrationError
  | [] => some .noExtension
  | extensions => (extensions.find? fun e => !isExtension e).map .badExtension

/-- **A `compiler` added for all its extensions.** -/
def register (r : Registry) (compiler : Compiler) : Except RegistrationError Registry :=
  match refusal? compiler.extensions with
  | some refusal => .error refusal
  | none => .ok (compiler.extensions.foldl (fun r extension => r.set extension compiler) r)

/-- **The compiler of an `extension`.** -/
def compilerFor (r : Registry) (extension : String) : Compiler :=
  (r.table.lookup extension).getD .source

/-- **A file compiled** by the compiler of its `extension`, and the files behind it. -/
def compile (r : Registry) (w : Workspace) (p : Path) : Except CompileError String × Workspace :=
  (r.compilerFor p.extension).compile w p

/-- **The extensions a search tries**: those the host knows, then all others in the order they were
registered. -/
def resolutionExtensions (r : Registry) : List String :=
  hostExtensions ++ r.keys.filter fun e => !hostExtensions.contains e

/-- A replaced `extension` keeps its place, and a new one comes last. -/
theorem keys_set (r : Registry) (extension : String) (compiler : Compiler) :
    (r.set extension compiler).keys =
      if r.keys.contains extension then r.keys else r.keys ++ [extension] := by
  unfold set
  split
  · simp only [keys, List.map_map]
    refine List.map_congr_left fun entry _ => ?_
    by_cases h : entry.1 = extension <;> simp [h]
  · simp [keys]

end Registry

end ScriptBundle
