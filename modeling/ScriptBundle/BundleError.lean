import ScriptBundle.Compiler.Registry
import ScriptBundle.Resolution

/-! # Errors of a bundle

Why a bundle is not made. Every error that concerns a reference names the specifier together with
the file or the list it comes from.

* **`BundleError`** — the causes;
* **`BundleError.message`** — the wording of an error by itself;
* **`BundleError.chain`** — the wording with that of its cause behind it. -/

namespace ScriptBundle

/-- **Why an entry script cannot be used.** -/
inductive EntryError
  /-- Its path is empty. -/
  | emptyPath
  /-- It is no regular file. -/
  | notFile
deriving DecidableEq, Repr

/-- The wording of an entry error. -/
def EntryError.message : EntryError → String
  | emptyPath => "the path is empty"
  | notFile => "not a file"

/-- **The two lists of overrides.** -/
inductive OverrideList
  /-- Modules packed even if no reference leads to them. -/
  | included
  /-- Modules left to the host. -/
  | excluded
deriving DecidableEq, Repr

/-- The name of a list in messages. -/
def OverrideList.text : OverrideList → String
  | included => "include"
  | excluded => "exclude"

/-- **Why a bundle is not made.** -/
inductive BundleError
  /-- A reference has no target. -/
  | unresolvedReference (specifier : String) (referrer : Path) (cause : ResolveError)
  /-- A file cannot be compiled. -/
  | compilation (path : Path) (cause : CompileError)
  /-- A compiler is refused. -/
  | invalidCompiler (name : String) (cause : RegistrationError)
  /-- The entry script cannot be used. -/
  | invalidEntry (path : Path) (cause : EntryError)
  /-- An override has no target. -/
  | setup (list : OverrideList) (specifier : String) (cause : ResolveError)
deriving DecidableEq, Repr

namespace BundleError

/-- **The wording of an error by itself.** -/
def message : BundleError → String
  | unresolvedReference specifier referrer _ =>
    "can't locate '" ++ specifier ++ "' (required by '" ++ referrer.text ++ "')"
  | compilation path cause => "can't compile '" ++ path.text ++ "': " ++ cause.message
  | invalidCompiler name cause => "invalid compiler '" ++ name ++ "': " ++ cause.message
  | invalidEntry path cause => "invalid entry script '" ++ path.text ++ "': " ++ cause.message
  | setup list specifier _ => "can't add '" ++ specifier ++ "' to the " ++ list.text ++ " list"

/-- The failed search behind an error, if there is one. -/
def cause? : BundleError → Option ResolveError
  | unresolvedReference _ _ cause => some cause
  | setup _ _ cause => some cause
  | _ => none

/-- **The wording of an error and its cause.** -/
def chain (e : BundleError) : String :=
  match e.cause? with
  | some cause => e.message ++ ": " ++ cause.message
  | none => e.message

end BundleError

end ScriptBundle
