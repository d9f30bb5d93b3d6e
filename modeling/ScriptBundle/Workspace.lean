import ScriptBundle.FileTree
import ScriptBundle.Path.Normal

/-! # Workspaces

What a run works on: a file tree, and the folder it was started in. Relative paths are read from that
folder.

* **`Workspace.absolute`** — the normal absolute form of a path;
* **`Workspace.isFile`** — whether a path leads to a regular file;
* **`Workspace.readText`** — the text of a file, or why there is none. -/

namespace ScriptBundle

/-- **A file `tree`, and the folder a run starts in.** -/
structure Workspace where
  /-- The files the run can see. -/
  tree : FileTree
  /-- The place of the folder the run starts in. -/
  start : Place
deriving Repr, Inhabited

namespace Workspace

/-- The absolute path of the folder the run starts in. -/
def startPath (w : Workspace) : Path := .ofParts (.root :: w.start.map .name)

/-- **The normal absolute form of a path**; an empty path has none. -/
def absolute (w : Workspace) (p : Path) : Except AccessError Path :=
  if p.text = "" then .error .emptyPath else .ok (w.startPath.join p).normalize

/-- Where a path leads. -/
def find (w : Workspace) (p : Path) : Except AccessError Spot := w.tree.find w.start p

/-- **Whether a path leads to a regular file.** -/
def isFile (w : Workspace) (p : Path) : Bool :=
  match w.find p with
  | .ok (.file _ _) => true
  | _ => false

/-- **The content of the regular file a path leads to.** -/
def read (w : Workspace) (p : Path) : Except AccessError Content :=
  match w.find p with
  | .ok (.file _ content) => .ok content
  | .ok (.folder _) => .error .isFolder
  | .error e => .error e

/-- **The text of the file a path leads to.** -/
def readText (w : Workspace) (p : Path) : Except AccessError String :=
  match w.read p with
  | .ok content =>
    match content.text? with
    | some s => .ok s
    | none => .error .notText
  | .error e => .error e

/-- Only a regular file can be read. -/
theorem isFile_of_readText {w : Workspace} {p : Path} {s : String} (h : w.readText p = .ok s) :
    w.isFile p = true := by
  unfold readText read at h
  unfold isFile
  cases found : w.find p with
  | error e => simp [found] at h
  | ok spot =>
    cases spot with
    | file place content => rfl
    | folder place => simp [found] at h

end Workspace

end ScriptBundle
