import ScriptBundle.ChunkStream

/-! # Bundles

One run from an entry script and its options to an artifact. Everything that can be wrong with the
options is found before the first module is read: the entry script, then the compilers, then what
is kept out, then what is added.

* **`Bundle.setup`** — the project and the walk in front of its first module;
* **`bundle`** — the artifact and the report. -/

namespace ScriptBundle

/-- **The options of a bundle.** -/
structure Options where
  /-- Specifiers packed even if no reference leads to them. -/
  included : List String
  /-- Specifiers left to the host. -/
  excluded : List String
  /-- Further compilers, later ones replacing earlier ones. -/
  compilers : List Compiler
  /-- What is done about references without a target. -/
  policy : Policy
deriving Inhabited

namespace Bundle

/-- **The absolute path of an `entry` script**, or why it cannot be used. -/
def entryOf (w : Workspace) (entry : Path) : Except EntryError Path :=
  match w.absolute entry with
  | .error _ => .error .emptyPath
  | .ok path => if w.isFile path then .ok path else .error .notFile

/-- The `registry` with some compilers added. -/
def registerAll (registry : Registry) : List Compiler → Except BundleError Registry
  | [] => .ok registry
  | compiler :: rest =>
    match registry.register compiler with
    | .ok registry => registerAll registry rest
    | .error cause => .error (.invalidCompiler compiler.name cause)

/-- The `walk` with some specifiers kept out. -/
def excludeAll (P : Project) (walk : Walk) : List String → Except BundleError Walk
  | [] => .ok walk
  | specifier :: rest =>
    match walk.exclude? P specifier with
    | .ok walk => excludeAll P walk rest
    | .error e => .error e

/-- The `walk` with some specifiers added, and what is said about those without effect. -/
def includeAll (P : Project) (walk : Walk) :
    List String → List Notice × Except BundleError Walk
  | [] => ([], .ok walk)
  | specifier :: rest =>
    match walk.include? P specifier with
    | .error e => ([], .error e)
    | .ok (notice, walk) =>
      let (notices, result) := includeAll P walk rest
      (notice.toList ++ notices, result)

/-- **The project of a bundle and the `walk` in front of its first module**, and what is said on the
way there. -/
def setup (w : Workspace) (entry : Path) (options : Options) :
    List Notice × Except BundleError (Project × Walk) :=
  match entryOf w entry with
  | .error cause => ([], .error (.invalidEntry entry cause))
  | .ok path =>
    match registerAll .initial options.compilers with
    | .error e => ([], .error e)
    | .ok registry =>
      let P : Project := ⟨path, registry, registry.resolutionExtensions, options.policy⟩
      match excludeAll P (.start P w) options.excluded with
      | .error e => ([], .error e)
      | .ok walk =>
        let (notices, result) := includeAll P walk options.included
        (notices, result.map fun walk => (P, walk))

end Bundle

/-- **An `artifact` and its report.** -/
structure Output where
  /-- The artifact. -/
  code : String
  /-- What was packed. -/
  report : Report
deriving DecidableEq, Repr

/-- **The `artifact` of an entry script**, or why there is none. There is no result where this takes
more pulls than the limit. -/
def bundle (limit : Nat) (w : Workspace) (entry : Path) (options : Options) :
    Option (Except BundleError Output) :=
  match (Bundle.setup w entry options).2 with
  | .error e => some (.error e)
  | .ok (P, walk) =>
    ((ChunkStream.start walk P.artifact).all P limit).map fun (chunks, s) =>
      chunks.map fun chunks => ⟨String.join chunks, s.report⟩

/-- A `bundle` whose setup fails ends with the same error. -/
theorem bundle_of_setup_error (limit : Nat) {w : Workspace} {entry : Path} {options : Options}
    {e : BundleError} (h : (Bundle.setup w entry options).2 = .error e) :
    bundle limit w entry options = some (.error e) := by
  simp [bundle, h]

end ScriptBundle
