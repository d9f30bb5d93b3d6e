import ScriptBundle.Compiler.Registry
import ScriptBundle.Identity
import ScriptBundle.Policy
import ScriptBundle.Resolution

/-! # Projects

What stays the same during a walk: the entry script, the compilers, the extensions a search tries,
and what is done about references without a target.

* **`Project.identityOf`** — the identity of a file, seen from the folder of the entry script;
* **`Project.resolve`** — the location of a specifier asked from a folder. -/

namespace ScriptBundle

/-- **What a walk starts from.** -/
structure Project where
  /-- The entry script. -/
  entry : Path
  /-- The compilers. -/
  registry : Registry
  /-- The extensions a search tries, in their order. -/
  extensions : List String
  /-- What is done about references without a target. -/
  policy : Policy
deriving Inhabited

namespace Project

variable (P : Project)

/-- **The folder of the `entry` script.** -/
def base : Path := P.entry.parent?.getD ⟨"/"⟩

/-- **The identity of a file.** -/
def identityOf (location : Path) : Identity := .ofLocation P.base location

/-- **The location of a `specifier`** asked from a folder. -/
def resolve (w : Workspace) (specifier : String) (folder : Path) : Except ResolveError Location :=
  ScriptBundle.resolve w P.extensions specifier folder

/-- The manifest that goes with a file: the nearest one above a file in a dependency folder. -/
def manifestOf? (w : Workspace) (location : Path) : Option Path :=
  if (P.identityOf location).isDependency then w.manifestAbove? location else none

end Project

end ScriptBundle
