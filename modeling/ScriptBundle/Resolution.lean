import ScriptBundle.HostModule
import ScriptBundle.Package.Folder
import ScriptBundle.Package.Manifest
import ScriptBundle.Specifier

/-! # Resolution

From a specifier and the folder it is asked from to the file it means. Host modules come first.
A path is tried as a file, literally and then with each extension; then as a folder, by the `main`
of its manifest and then by its index. A bare specifier is tried as a path in every dependency
folder above, innermost first.

* **`resolve`** — the location of a specifier, or that there is none;
* **`ResolveError.message`** — the wording of a failed search. -/

namespace ScriptBundle

/-- **What a specifier means.** -/
inductive Location
  /-- A module of the host. -/
  | host (name : String)
  /-- A file of the tree. -/
  | file (path : Path)
deriving DecidableEq, Repr

/-- **Why a `specifier` means nothing.** -/
inductive ResolveError
  /-- No candidate is a file. -/
  | notFound (specifier : String) (folder : Path)
  /-- The folder to search from has no absolute form. -/
  | noFolder (cause : AccessError)
deriving DecidableEq, Repr

/-- The wording of a failed search. -/
def ResolveError.message : ResolveError → String
  | notFound specifier folder =>
    "Cannot find module '" ++ specifier ++ "' from '" ++ folder.text ++ "'"
  | noFolder cause => cause.message

/-- The name of an index file, without its extension. -/
def indexName : String := "index"

variable (w : Workspace) (extensions : List String)

/-- **A path as a file**: the path itself, then with each extension. -/
def asFile? (p : Path) : Option Path := (p :: extensions.map p.append).find? w.isFile

/-- **The index of a folder**, with the first extension that fits. -/
def asIndex? (folder : Path) : Option Path :=
  (extensions.map (folder.join ⟨indexName⟩).append).find? w.isFile

/-- The `main` of the manifest in a folder. -/
def manifestMain? (folder : Path) : Option String :=
  let manifest := folder.join ⟨Package.manifestName⟩
  if w.isFile manifest then
    match w.readText manifest with
    | .ok text => Manifest.main? text
    | .error _ => none
  else none

/-- **A path as a folder**: the `main` of its manifest, as a file or by its index, then the index
of the folder itself. -/
def asFolder? (folder : Path) : Option Path :=
  match manifestMain? w folder with
  | some main =>
    let target := (folder.join ⟨main⟩).normalize
    (asFile? w extensions target).or
      ((asIndex? w extensions target).or (asIndex? w extensions folder))
  | none => asIndex? w extensions folder

/-- **A path as a file and then as a folder**, in its normal form. -/
def asPath? (target : Path) (folderOnly : Bool) : Option Path :=
  let target := target.normalize
  if folderOnly then asFolder? w extensions target
  else (asFile? w extensions target).or (asFolder? w extensions target)

/-- **The file a `specifier` means** from an absolute folder, host modules left aside. -/
def lookup? (specifier : String) (folder : Path) : Option Path :=
  let folderOnly := Specifier.isFolderOnly specifier
  match Specifier.kind specifier with
  | .relative | .absolute => asPath? w extensions (folder.join ⟨specifier⟩) folderOnly
  | .bare => folder.dependencyFolders.findSome? fun dependencies =>
      asPath? w extensions (dependencies.join ⟨specifier⟩) folderOnly

/-- **The location of a `specifier`** asked from a folder. -/
def resolve (specifier : String) (folder : Path) : Except ResolveError Location :=
  if isHostModule specifier then .ok (.host specifier)
  else match w.absolute folder with
    | .error cause => .error (.noFolder cause)
    | .ok folder =>
      match lookup? w extensions specifier folder with
      | some path => .ok (.file path)
      | none => .error (.notFound specifier folder)

/-- Host modules are found without looking at the tree. -/
theorem resolve_host {specifier : String} (h : isHostModule specifier = true) (folder : Path) :
    resolve w extensions specifier folder = .ok (.host specifier) := by
  simp [resolve, h]

end ScriptBundle
