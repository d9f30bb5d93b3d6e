import ScriptBundle.Path.Basic

/-! # Normal paths

Two computations on the parts of paths that ask no file tree:

* **`Path.normalize`** — the path with every `.` dropped and every `..` folded into the name in
  front of it. At the root a `..` leads nowhere and is dropped; in front of a relative path it has
  nothing to fold into and stays.
* **`Path.relative base target`** — how `target` is reached from `base`: up from `base` to the
  parts the two share, then down. -/

namespace ScriptBundle.Path

/-- **One more part** on a `stack` of folded parts, topmost first. -/
def foldPart (stack : List Part) : Part → List Part
  | .here => stack
  | .root => [.root]
  | .name s => .name s :: stack
  | .up =>
    match stack with
    | .name _ :: rest => rest
    | .root :: _ => stack
    | _ => .up :: stack

/-- The folder itself, `here`, adds nothing to what is folded. -/
@[simp] theorem foldPart_here (stack : List Part) : foldPart stack .here = stack := rfl

/-- A `name` is put on top of what is folded. -/
@[simp] theorem foldPart_name (stack : List Part) (s : String) :
    foldPart stack (.name s) = .name s :: stack := rfl

/-- The step `up` takes a name off again. -/
@[simp] theorem foldPart_name_up (stack : List Part) (s : String) :
    foldPart (.name s :: stack) .up = stack := rfl

/-- **The folded `parts`** of a list of parts. -/
def normalParts (parts : List Part) : List Part := (parts.foldl foldPart []).reverse

/-- **The normal form of a path**, without asking whether it exists. -/
def normalize (p : Path) : Path := ofParts (normalParts p.parts)

/-- **The number of parts two lists share** in front. -/
def sharedParts : List Part → List Part → Nat
  | a :: as, b :: bs => if a = b then sharedParts as bs + 1 else 0
  | _, _ => 0

/-- **The path from `base` to `target`.** If the two share no part at all, that is `target`. -/
def relative (base target : Path) : Path :=
  let shared := sharedParts base.parts target.parts
  if shared = 0 then target
  else ofParts (List.replicate (base.parts.length - shared) .up ++ target.parts.drop shared)

end ScriptBundle.Path
