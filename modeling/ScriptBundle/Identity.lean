import ScriptBundle.Package.Folder

/-! # Identities

The names modules have inside an artifact: the path from the folder of the entry script to the
module, behind a slash that marks the root of the artifact.

* **`Identity.ofLocation`** — the identity of a file;
* **`Identity.ofEntry`** — the identity of the entry script: its name behind the slash;
* **`Identity.isDependency`** — whether the file lies in a dependency folder. -/

namespace ScriptBundle

/-- **The name of a module inside an artifact.** -/
structure Identity where
  /-- The spelling of the identity. -/
  text : String
deriving DecidableEq, Repr, Inhabited

namespace Identity

/-- **The identity of a file**, seen from a folder. -/
def ofLocation (base location : Path) : Identity := ⟨"/" ++ (Path.relative base location).text⟩

/-- **The identity of an `entry` script.** -/
def ofEntry (entry : Path) : Identity := ⟨"/" ++ entry.fileName?.getD ""⟩

/-- **Whether an `identity` lies in a dependency folder.** -/
def isDependency (identity : Identity) : Bool :=
  (identity.text.toList.splitOn '/').contains Package.dependencyFolder.toList

/-- Identities are ordered as texts are, by code points. -/
instance : Ord Identity := ⟨fun a b => compare a.text b.text⟩

/-- Whether one identity comes before another or is the same. -/
def le (a b : Identity) : Bool := !(b.text < a.text)

end Identity

end ScriptBundle
