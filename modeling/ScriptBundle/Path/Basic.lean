/-! # Paths

A path is a text cut by slashes. It keeps the spelling it was written in, since messages show
that spelling, and it is compared by its parts, which the spelling does not decide alone:
`a//b`, `a/./b` and `a/b/` all have the parts `a`, `b`.

* **`Path.parts`** — the parts, without empty pieces and without `.` anywhere but in front of a
  relative path;
* **`Path.join`** — one path below another, an absolute one replacing the first;
* **`Path.ancestors`** — the path and the paths of the folders that hold it, innermost first;
* **`Path.fileName?`, `Path.extension`** — the last name and its ending. -/

namespace ScriptBundle

/-- **A path**, with the spelling it was written in. -/
structure Path where
  /-- The path as it is written. -/
  text : String
deriving DecidableEq, Repr, Inhabited

/-- **A part of a path.** -/
inductive Part
  /-- The root, in front of an absolute path. -/
  | root
  /-- The folder itself, in front of a relative path. -/
  | here
  /-- The folder above. -/
  | up
  /-- An entry of a folder. -/
  | name (s : String)
deriving DecidableEq, Repr, Inhabited

namespace Part

/-- The spelling of a part. -/
def text : Part → String
  | root => "/"
  | here => "."
  | up => ".."
  | name s => s

/-- **The part a piece between slashes stands for.** An empty piece and a `.` stand for none. -/
def ofPiece? (piece : List Char) : Option Part :=
  if piece = [] ∨ piece = ['.'] then none
  else if piece = ['.', '.'] then some up
  else some (name (String.ofList piece))

/-- The empty piece between two slashes stands for no part. -/
@[simp] theorem ofPiece?_nil : ofPiece? [] = none := by simp [ofPiece?]

/-- A `.` between slashes stands for no part. -/
@[simp] theorem ofPiece?_dot : ofPiece? ['.'] = none := by simp [ofPiece?]

/-- A `..` between slashes stands for the step `up`. -/
@[simp] theorem ofPiece?_dots : ofPiece? ['.', '.'] = some up := by simp [ofPiece?]

end Part

namespace Path

/-- The characters of a path. -/
def chars (p : Path) : List Char := p.text.toList

/-- The `pieces` of a path between its slashes, empty ones included. -/
def pieces (p : Path) : List (List Char) := p.chars.splitOn '/'

/-- A path is absolute when it starts at the root. -/
def isAbsolute (p : Path) : Bool := p.chars.head? == some '/'

/-- **The parts of a path.** A leading slash is the root; a `.` counts only in front of a relative
path. -/
def parts (p : Path) : List Part :=
  let named := p.pieces.filterMap Part.ofPiece?
  if p.isAbsolute then .root :: named
  else if p.pieces.head? = some ['.'] then .here :: named
  else named

/-- Whether a path is among others, whatever its spelling. -/
def isAmong (p : Path) (ps : List Path) : Bool := ps.any fun q => q.parts == p.parts

/-- **The path with given `parts`**, spelled with single slashes. -/
def ofParts : List Part → Path
  | .root :: rest => ⟨"/" ++ "/".intercalate (rest.map Part.text)⟩
  | parts => ⟨"/".intercalate (parts.map Part.text)⟩

/-- **A path below another.** An absolute path replaces the one it is joined to. -/
def join (base tail : Path) : Path :=
  if tail.isAbsolute then tail
  else if base.text = "" ∨ base.chars.getLast? = some '/' then ⟨base.text ++ tail.text⟩
  else ⟨base.text ++ "/" ++ tail.text⟩

/-- An absolute path replaces the one it is joined to. -/
theorem join_absolute {tail : Path} (base : Path) (h : tail.isAbsolute = true) :
    base.join tail = tail := by
  simp [join, h]

/-- **A path with a text put behind it**, with no slash between. -/
def append (p : Path) (tail : String) : Path := ⟨p.text ++ tail⟩

/-! ## Names -/

/-- **The last name** of a path, if it ends in one. -/
def fileName? (p : Path) : Option String :=
  match p.parts.getLast? with
  | some (.name s) => some s
  | _ => none

/-- **The `extension` of a path**: what follows the last dot of its last name, with that dot. A name
without a dot, or with no other than its first character, has none. -/
def extension (p : Path) : String :=
  match p.fileName? with
  | none => ""
  | some s =>
    let reversed := s.toList.reverse
    match reversed.dropWhile (· ≠ '.') with
    | [] | [_] => ""
    | _ => String.ofList ('.' :: (reversed.takeWhile (· ≠ '.')).reverse)

/-! ## Folders above a path -/

/-- **The pieces that end in a part.** Of the reversed pieces of a path, those in front that stand
for no part are dropped; a `.` stands for one in front of a relative path. -/
def dropIdle (absolute : Bool) : List (List Char) → List (List Char)
  | [] => []
  | piece :: rest =>
    if piece = [] ∨ (piece = ['.'] ∧ (absolute = true ∨ rest ≠ [])) then dropIdle absolute rest
    else piece :: rest

/-- Where there are no pieces, `dropIdle` drops none. -/
@[simp] theorem dropIdle_nil (absolute : Bool) : dropIdle absolute [] = [] := rfl

/-- There are no more pieces behind `dropIdle` than in front of it, which is why `ascend` comes to its
end. -/
theorem length_dropIdle_le (absolute : Bool) (reversed : List (List Char)) :
    (dropIdle absolute reversed).length ≤ reversed.length := by
  induction reversed with
  | nil => simp
  | cons piece rest ih =>
    rw [dropIdle]
    split
    · exact Nat.le_succ_of_le ih
    · exact Nat.le_refl _

/-- **The folders above**, as reversed pieces, innermost first. -/
def ascend (absolute : Bool) (reversed : List (List Char)) : List (List (List Char)) :=
  match _h : dropIdle absolute reversed with
  | [] => []
  | _ :: rest =>
    let above := dropIdle absolute rest
    above :: ascend absolute above
termination_by reversed.length
decreasing_by
  have hrest := length_dropIdle_le absolute rest
  have hall := length_dropIdle_le absolute reversed
  rw [_h] at hall
  simp only [List.length_cons] at hall
  omega

/-- **The path and the folders above it**, innermost first: the path as it is written, then each
time without its last part. -/
def ancestors (p : Path) : List Path :=
  let lead := if p.isAbsolute then "/" else ""
  let body := if p.isAbsolute then p.pieces.tail else p.pieces
  p :: (ascend p.isAbsolute body.reverse).map fun reversed =>
    ⟨lead ++ String.ofList (['/'].intercalate reversed.reverse)⟩

/-- **The folder that holds a path**: its first proper ancestor. -/
def parent? (p : Path) : Option Path := p.ancestors[1]?

end Path

end ScriptBundle
