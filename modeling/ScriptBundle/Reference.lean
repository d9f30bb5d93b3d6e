import ScriptBundle.Text.Blank
import ScriptBundle.Text.Quoted
import ScriptBundle.Text.WordChar

/-! # References

The static references of a script: the word `require` followed by a parenthesised literal in single
or double quotes, with blanks anywhere between the parts. The literal is not empty and ends at the
next quote of its kind; it is taken as it stands. References are found from left to right and do
not overlap. Whether they stand in a comment or in a literal is not asked.

* **`Call.ofText?`** — the call a text starts with, and `Call.write` the call of a specifier;
* **`Script.segments`** — a script cut into single characters and references;
* **`Script.withoutDirective`** — a script without its interpreter line. -/

namespace ScriptBundle

/-- **A call in front of a text.** -/
structure Call where
  /-- The number of characters of the whole call. -/
  length : Nat
  /-- The characters between its quotes. -/
  specifier : List Char
deriving DecidableEq, Repr

namespace Call

/-- The word a reference starts with. -/
def keyword : List Char := "require".toList

/-- The number of blanks a text starts with. -/
def blanks (cs : List Char) : Nat := (cs.takeWhile Text.isBlank).length

/-- **The literal in front of a text**: its characters, and the number of them with the quotes. -/
def literal? : List Char → Option Call
  | [] => none
  | mark :: cs =>
    if mark = '\x22' ∨ mark = '\x27' then
      let specifier := cs.takeWhile (· ≠ mark)
      if specifier ≠ [] ∧ specifier.length < cs.length then some ⟨specifier.length + 2, specifier⟩
      else none
    else none

/-- The position behind an expected character, blanks in front of it included. -/
def expect? (c : Char) (cs : List Char) : Option Nat :=
  let n := blanks cs
  if cs[n]? = some c then some (n + 1) else none

/-- **The call a text starts with.** -/
def ofText? (cs : List Char) : Option Call := do
  guard (keyword.isPrefixOf cs)
  let opened := keyword.length + (← expect? '(' (cs.drop keyword.length))
  let quoted := opened + blanks (cs.drop opened)
  let inner ← literal? (cs.drop quoted)
  let ended := quoted + inner.length
  return ⟨ended + (← expect? ')' (cs.drop ended)), inner.specifier⟩

/-- **The call of a `specifier`**, with the specifier in single quotes. -/
def write (specifier : String) : String := "require(" ++ Quoted.literal specifier ++ ")"

end Call

/-- **A segment of a script.** -/
inductive Segment
  /-- A character outside all references. -/
  | char (c : Char)
  /-- A reference: its whole text, and its specifier. -/
  | reference (text : List Char) (specifier : List Char)
deriving DecidableEq, Repr

/-- The text of a segment. -/
def Segment.text : Segment → List Char
  | char c => [c]
  | reference text _ => text

namespace Script

/-- The segments of the rest of a script: whether a word character comes in front of it, and how
many of its characters still belong to a reference. -/
def segmentsFrom : Bool → Nat → List Char → List Segment
  | _, _, [] => []
  | _, skipped + 1, c :: cs => segmentsFrom (Text.isWordChar c) skipped cs
  | inWord, 0, c :: cs =>
    match (if inWord then none else Call.ofText? (c :: cs)) with
    | none => .char c :: segmentsFrom (Text.isWordChar c) 0 cs
    | some call =>
      .reference ((c :: cs).take call.length) call.specifier ::
        segmentsFrom (Text.isWordChar c) (call.length - 1) cs

/-- **The `segments` of a script.** -/
def segments (source : List Char) : List Segment := segmentsFrom false 0 source

/-- **A script without its interpreter line.** The line end stays, so that lines keep their
numbers. -/
def withoutDirective (source : List Char) : List Char :=
  if ['#', '!'].isPrefixOf source then source.dropWhile (· ≠ '\n') else source

end Script

end ScriptBundle
