import ScriptBundle.Proofs.Path.Spelling

/-! # Joined paths

The pieces of a path below another stand for what those of both stand for. So the parts of a path below
an absolute one are the parts of the absolute path and, behind them, what the pieces of the other stand
for, and a path below may be joined to an absolute path or to its normal form: the normal form of the
result is the same.

* **`filterMap_pieces_join`, `parts_join`** — the pieces of a path below another, and the parts of one
  below an absolute path;
* **`foldl_parts_ofNames`** — what the parts of a normal path fold to;
* **`normalize_join_normalize`** — the normal form of a path below a normal form. -/

namespace ScriptBundle.Path

variable {p : Path} {names : List String}

/-- A text without slashes is one piece. -/
theorem splitOn_of_notMem {piece : List Char} (free : '/' ∉ piece) : piece.splitOn '/' = [piece] := by
  have one : ∀ q ∈ [piece], '/' ∉ q := List.forall_mem_singleton.mpr free
  simpa using List.splitOn_intercalate '/' one (by simp)

/-- Cut at its slashes, a text with a slash gives the pieces in front of it and those behind. -/
theorem splitOn_append_slash (front back : List Char) :
    (front ++ '/' :: back).splitOn '/' = front.splitOn '/' ++ back.splitOn '/' := by
  rw [List.splitOn_eq_splitOnP, List.splitOn_eq_splitOnP, List.splitOn_eq_splitOnP]
  exact List.splitOnP_append_cons front back (by simp)

/-- **The `pieces` of a joined path** stand for what those of both paths stand for. -/
theorem filterMap_pieces_join (p : Path) {tail : Path} (relative : tail.isAbsolute = false) :
    (p.join tail).pieces.filterMap Part.ofPiece? =
      p.pieces.filterMap Part.ofPiece? ++ tail.pieces.filterMap Part.ofPiece? := by
  rw [join, if_neg (by simp [relative])]
  by_cases empty : p.text = ""
  · -- the empty path has one piece, which is empty
    rw [if_pos (.inl empty)]
    simp [pieces, chars, empty]
  by_cases slash : p.chars.getLast? = some '/'
  · -- a path that ends in a slash has an empty piece behind it, which stands for nothing
    obtain ⟨front, e⟩ := List.getLast?_eq_some_iff.mp slash
    have whole : p.pieces = front.splitOn '/' ++ [[]] := by
      rw [pieces, e, splitOn_append_slash, List.splitOn_nil]
    have joined : (Path.mk (p.text ++ tail.text)).pieces = front.splitOn '/' ++ tail.pieces := by
      rw [pieces, chars, String.toList_append, ← chars, e, List.append_assoc, List.singleton_append,
        splitOn_append_slash]
      rfl
    rw [if_pos (.inr slash), whole, joined]
    simp
  · have joined : (Path.mk (p.text ++ "/" ++ tail.text)).pieces = p.pieces ++ tail.pieces := by
      rw [pieces, chars, String.toList_append, String.toList_append, ← chars, List.append_assoc]
      exact splitOn_append_slash p.chars tail.chars
    rw [if_neg (not_or.mpr ⟨empty, slash⟩), joined, List.filterMap_append]

/-- **The `parts` of a path below an absolute one.** -/
theorem parts_join (h : p.isAbsolute = true) {tail : Path} (relative : tail.isAbsolute = false) :
    (p.join tail).parts = p.parts ++ tail.pieces.filterMap Part.ofPiece? := by
  rw [parts, parts, if_pos (isAbsolute_join tail h), if_pos h, filterMap_pieces_join p relative,
    List.cons_append]

/-! ## Normal forms -/

/-- Names are folded as they come. -/
theorem foldl_foldPart_names (names : List String) (stack : List Part) :
    (names.map .name).foldl foldPart stack = (names.reverse.map .name) ++ stack := by
  induction names generalizing stack with
  | nil => rfl
  | cons s names ih => simp [ih]

/-- A normal path folds to its names. -/
theorem foldl_parts_ofNames (named : ∀ s ∈ names, Part.IsName s) :
    (ofNames names).parts.foldl foldPart [] = names.reverse.map .name ++ [.root] := by
  rw [parts_ofNames named]
  exact foldl_foldPart_names names [.root]

/-- **The normal form of a path below** is the same below an absolute path and below its normal
form. -/
theorem normalize_join_normalize (h : p.isAbsolute = true) (tail : Path) :
    (p.normalize.join tail).normalize = (p.join tail).normalize := by
  cases kind : tail.isAbsolute with
  | true => rw [join_absolute _ kind, join_absolute _ kind]
  | false =>
      obtain ⟨names, named, folded, normal⟩ := exists_foldl_parts h
      have rooted : (ofNames names).isAbsolute = true := isAbsolute_ofNames names
      -- both fold to the names of the normal form before the parts of the path below come
      rw [normal, normalize, normalize, normalParts, normalParts, parts_join rooted kind,
        parts_join h kind, List.foldl_append, List.foldl_append, foldl_parts_ofNames named, folded]

end ScriptBundle.Path
