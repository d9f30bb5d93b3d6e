/-! # Specifiers

The texts modules are asked for by. The leading characters of a specifier decide how it is looked
up: next to the file that asks, at the root, or as a package.

* **`Specifier.kind`** — which of the three;
* **`Specifier.isFolderOnly`** — whether a final slash restricts the search to folders;
* **`Specifier.packages`** — the specifier and every part of it in front of a slash, by which a
  package is named. -/

namespace ScriptBundle.Specifier

/-- **How a specifier is looked up.** -/
inductive Kind
  /-- From the folder of the file that asks. -/
  | relative
  /-- From the root. -/
  | absolute
  /-- As a package, with or without a path into it. -/
  | bare
deriving DecidableEq, Repr

/-- **The kind of a `specifier`**, by its leading characters. -/
def kind (specifier : String) : Kind :=
  match specifier.toList with
  | ['.'] | ['.', '.'] => .relative
  | '.' :: '/' :: _ | '.' :: '.' :: '/' :: _ => .relative
  | '/' :: _ => .absolute
  | _ => .bare

/-- A `specifier` that ends in a slash names a folder. -/
def isFolderOnly (specifier : String) : Bool := specifier.toList.getLast? == some '/'

/-- The proper beginnings of a text that a slash follows. -/
def cutsAtSlash : List Char → List (List Char)
  | [] => []
  | c :: cs =>
    let further := (cutsAtSlash cs).map (c :: ·)
    if c = '/' then [] :: further else further

/-- **The names a `specifier` falls under**: itself, and each part of it in front of a slash. -/
def packages (specifier : String) : List String :=
  specifier :: (cutsAtSlash specifier.toList).map String.ofList

end ScriptBundle.Specifier
