import ScriptBundle.Reference
import ScriptBundle.Walk.Project

/-! # Treatment of references

What is done with one reference of a file. The decision depends on the project, on the files
and on what is kept out of the artifact, and on nothing else a walk has done so far.

* **`Exclusions`** — the names and the files that are kept out;
* **`Treatment`** — what is done with a reference;
* **`Project.treatment`** — the decision. Host modules come first, then excluded names, then the
  search for a target, then excluded files. -/

namespace ScriptBundle

/-- **What is kept out of an artifact.** -/
structure Exclusions where
  /-- Names of packages, which keep out their sub-paths too. -/
  names : List String
  /-- Files, by the parts of their paths. -/
  files : List (List Part)
deriving DecidableEq, Repr, Inhabited

namespace Exclusions

/-- Nothing is kept out. -/
def none : Exclusions := ⟨[], []⟩

/-- **Whether a `specifier` is kept out by name**: its own or that of a part in front of a slash. -/
def holdsName (x : Exclusions) (specifier : String) : Bool :=
  (Specifier.packages specifier).any x.names.contains

/-- **Whether a file is kept out.** -/
def holdsFile (x : Exclusions) (location : Path) : Bool := x.files.contains location.parts

/-- Where `none` are kept out, no file is. -/
@[simp] theorem holdsFile_none (location : Path) : none.holdsFile location = false := rfl

end Exclusions

/-- **What is done with a reference.** -/
inductive Treatment
  /-- It stays as it is. -/
  | literal
  /-- It is replaced by a call of a path: the file is kept out, but an absolute path would be taken
  for an identity. -/
  | outside (specifier : String)
  /-- It is replaced by a call of the identity of a file. -/
  | target (location : Path)
  /-- It has no target. -/
  | missing (cause : ResolveError)
deriving DecidableEq, Repr

/-- The folder of a file; the root has no other than itself. -/
def Path.folder (p : Path) : Path := p.parent?.getD p

/-- **A file's path as a relative specifier**, asked from a folder. -/
def Path.specifierFrom (folder location : Path) : String :=
  let relative := Path.relative folder location
  if "../".toList.isPrefixOf relative.chars then relative.text else "./" ++ relative.text

/-- **What is done with a reference** in a file. -/
def Project.treatment (P : Project) (w : Workspace) (x : Exclusions) (referrer : Path)
    (specifier : String) : Treatment :=
  if isHostModule specifier || x.holdsName specifier then .literal
  else match P.resolve w specifier referrer.folder with
    | .error cause => .missing cause
    | .ok (.host _) => .literal
    | .ok (.file location) =>
      if x.holdsFile location then
        if Specifier.kind specifier = .absolute then
          .outside (Path.specifierFrom referrer.folder location)
        else .literal
      else .target location

/-- Host modules stay as they are. -/
theorem Project.treatment_host (P : Project) (w : Workspace) (x : Exclusions) (referrer : Path)
    {specifier : String} (h : isHostModule specifier = true) :
    P.treatment w x referrer specifier = .literal := by
  simp [treatment, h]

/-- What is excluded by name stays as it is. -/
theorem Project.treatment_excludedName (P : Project) (w : Workspace) {x : Exclusions}
    (referrer : Path) {specifier : String} (h : x.holdsName specifier = true) :
    P.treatment w x referrer specifier = .literal := by
  simp [treatment, h]

end ScriptBundle
