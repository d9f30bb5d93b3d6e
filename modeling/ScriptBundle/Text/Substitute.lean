/-! # Substitution

Putting one text in place of every occurrence of another. Occurrences are taken from left to right
and do not overlap; what has been put in is not searched again.

* **`substitute pattern replacement cs`** — the text with every occurrence replaced. -/

namespace ScriptBundle.Text

/-- The substitution in a text of which `skipped` characters belong to an occurrence that has been
replaced. -/
def substituteFrom (pattern replacement : List Char) : Nat → List Char → List Char
  | _, [] => []
  | skipped + 1, _ :: cs => substituteFrom pattern replacement skipped cs
  | 0, c :: cs =>
    if pattern.isPrefixOf (c :: cs) then
      replacement ++ substituteFrom pattern replacement (pattern.length - 1) cs
    else c :: substituteFrom pattern replacement 0 cs

/-- **A text with every occurrence of `pattern` replaced.** -/
def substitute (pattern replacement cs : List Char) : List Char :=
  substituteFrom pattern replacement 0 cs

/-- In the empty text nothing is replaced. -/
@[simp] theorem substitute_nil (pattern replacement : List Char) :
    substitute pattern replacement [] = [] := rfl

/-- Substitution in a string. -/
def replaceAll (pattern replacement s : String) : String :=
  String.ofList (substitute pattern.toList replacement.toList s.toList)

end ScriptBundle.Text
