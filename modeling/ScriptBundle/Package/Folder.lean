import ScriptBundle.Workspace

/-! # Package folders

Where packages lie. Every folder may hold a folder of dependencies, and the nearest manifest above
a file describes the package the file belongs to.

* **`Path.dependencyFolders`** — the folders of dependencies that are visible from a path,
  innermost first;
* **`Workspace.manifestAbove?`** — the nearest manifest above a file. -/

namespace ScriptBundle

/-- The name of a folder of dependencies. -/
def Package.dependencyFolder : String := "node_modules"

/-- The name of a package manifest. -/
def Package.manifestName : String := "package.json"

/-- **The dependency folders visible from a path**, innermost first. -/
def Path.dependencyFolders (p : Path) : List Path :=
  p.ancestors.map fun folder => folder.join ⟨Package.dependencyFolder⟩

/-- **The nearest manifest above a file.** -/
def Workspace.manifestAbove? (w : Workspace) (file : Path) : Option Path :=
  (file.ancestors.tail.map fun folder => folder.join ⟨Package.manifestName⟩).find? w.isFile

/-- A `manifest` that is found is a regular file. -/
theorem Workspace.isFile_of_manifestAbove? {w : Workspace} {file manifest : Path}
    (h : w.manifestAbove? file = some manifest) : w.isFile manifest = true :=
  List.find?_some h

end ScriptBundle
