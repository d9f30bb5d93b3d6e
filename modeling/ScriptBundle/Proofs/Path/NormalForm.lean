import ScriptBundle.Proofs.Path.Relative

/-! # Normal forms

The fold that makes a normal form takes the parts of a path one after the other, of an absolute path or
of a relative one. The parts it keeps on its stack are always names, and below them there is the root, or
as many steps up as had no name to take off. A path that is spelled by such parts is read as these parts
again and folds to itself, so the normal form is canonical.

* **`Path.IsFolded`** — the stacks of the fold; `IsFolded.foldPart` and `IsFolded.foldl` say that they
  stay so, part after part;
* **`Path.IsFolded.parts_ofParts`, `Path.parts_normalize`** — a normal form is read as the parts it is
  spelled by;
* **`Path.grow`, `Path.normalize_eq_foldl_grow`** — the normal form as it grows, with no stack of parts
  beside the path;
* **`Path.normalize_join`** — the normal form of a path below a normal form;
* **`Path.normalize_is_canonical`** — all of this, for every path. -/

namespace ScriptBundle.Path

variable {p q tail : Path} {part : Part} {stack parts : List Part} {s : String}

/-! ## Folded parts -/

/-- **Folded parts**, topmost first. -/
inductive IsFolded : List Part → Prop
  /-- The root alone. -/
  | root : IsFolded [.root]
  /-- Steps up that have nothing to fold into. -/
  | ups (k : Nat) : IsFolded (List.replicate k .up)
  /-- One more name. -/
  | name {s : String} {below : List Part} (named : Part.IsName s) (folded : IsFolded below) :
    IsFolded (.name s :: below)

/-- A step up stays on steps up, as on nothing at all. -/
@[simp] theorem foldPart_ups (k : Nat) :
    foldPart (List.replicate k .up) .up = List.replicate (k + 1) .up := by
  cases k <;> rfl

/-- **One more `part`** leaves folded parts. -/
theorem IsFolded.foldPart (h : IsFolded stack) (named : ∀ s, part = .name s → Part.IsName s) :
    IsFolded (Path.foldPart stack part) := by
  cases part with
  | root => exact .root
  | here => exact h
  | name s => exact .name (named s rfl) h
  | up =>
      cases h with
      | root => exact .root
      | ups k =>
          rw [foldPart_ups]
          exact .ups (k + 1)
      | name _ folded => exact folded

/-- **A list of `parts`** leaves folded parts. -/
theorem IsFolded.foldl (h : IsFolded stack) (named : ∀ s, .name s ∈ parts → Part.IsName s) :
    IsFolded (parts.foldl Path.foldPart stack) := by
  -- on the parts, for whatever is folded before them
  induction parts generalizing stack with
  | nil => exact h
  | cons part rest ih =>
      have first := h.foldPart fun s e => named s (e ▸ List.mem_cons_self)
      exact ih first fun s later => named s (List.mem_cons_of_mem _ later)

/-- No dot is kept. -/
theorem IsFolded.here_notMem (h : IsFolded stack) : Part.here ∉ stack := by
  induction h with
  | root => simp
  | ups k => simp [List.mem_replicate]
  | name _ _ ih => simpa using ih

/-- Above the root, no step up is kept. -/
theorem IsFolded.up_notMem (h : IsFolded stack) (rooted : Part.root ∈ stack) : Part.up ∉ stack := by
  induction h with
  | root => simp
  | ups k => simp [List.mem_replicate] at rooted
  | name _ _ ih => simpa using ih (by simpa using rooted)

/-- **Steps up are kept in front**, and nowhere else. -/
theorem IsFolded.exists_ups (h : IsFolded stack) :
    ∃ k rest, stack.reverse = List.replicate k .up ++ rest ∧ Part.up ∉ rest := by
  induction h with
  | root => exact ⟨0, [.root], rfl, by simp⟩
  | ups k => exact ⟨k, [], by simp, by simp⟩
  | @name s below _ _ ih =>
      obtain ⟨k, rest, whole, level⟩ := ih
      refine ⟨k, rest ++ [.name s], ?_, by simpa using level⟩
      rw [List.reverse_cons, whole, List.append_assoc]

/-- **Folded parts fold to themselves.** -/
theorem IsFolded.foldl_reverse (h : IsFolded stack) :
    stack.reverse.foldl Path.foldPart [] = stack := by
  -- each part comes when those below it have been put back, and is put on them
  induction h with
  | root => rfl
  | ups k =>
      rw [List.reverse_replicate]
      induction k with
      | zero => rfl
      | succ k ih =>
          rw [List.replicate_succ', List.foldl_append, ih, ← List.replicate_succ']
          exact foldPart_ups k
  | name _ _ ih =>
      rw [List.reverse_cons, List.foldl_append, ih]
      rfl

/-- Steps up are parts below a folder. -/
theorem areBelow_ups (k : Nat) : AreBelow (List.replicate k .up) :=
  fun _ up => .inl (List.eq_of_mem_replicate up)

/-- So are other such `parts` with a name behind them. -/
theorem AreBelow.append_name (below : AreBelow parts) (named : Part.IsName s) :
    AreBelow (parts ++ [.name s]) :=
  List.forall_mem_append.mpr ⟨below, List.forall_mem_singleton.mpr (.inr ⟨s, named, rfl⟩)⟩

/-- Folded parts are the root and names, or parts below a folder. -/
theorem IsFolded.rooted_or_below (h : IsFolded stack) :
    (∃ names : List String, (∀ s ∈ names, Part.IsName s) ∧
      stack.reverse = .root :: names.map .name) ∨ AreBelow stack.reverse := by
  induction h with
  | root => exact .inl ⟨[], by simp, rfl⟩
  | ups k =>
      rw [List.reverse_replicate]
      exact .inr (areBelow_ups k)
  | @name s below named _ ih =>
      rw [List.reverse_cons]
      rcases ih with ⟨names, all, whole⟩ | inner
      · refine .inl ⟨names ++ [s], ?_, by rw [whole, List.map_append]; rfl⟩
        exact List.forall_mem_append.mpr ⟨all, List.forall_mem_singleton.mpr named⟩
      · exact .inr (inner.append_name named)

/-! ## Reading a normal form -/

/-- Parts below a folder are read as they are spelled. -/
theorem parts_ofParts (below : AreBelow parts) : (ofParts parts).parts = parts := by
  have plain : (ofParts parts).pieces.head? ≠ some ['.'] := by
    cases parts with
    | nil => decide
    | cons part rest =>
        intro dot
        rw [pieces_ofParts below (by simp), List.map_cons, List.head?_cons, Option.some.injEq] at dot
        -- a dot stands for no part
        have read := (ofPiece?_text (below part List.mem_cons_self)).1
        simp [dot] at read
  rw [Path.parts, if_neg (by simp [isAbsolute_ofParts below]), if_neg plain,
    filterMap_pieces_ofParts below]

/-- **Folded `parts` are read as they are spelled.** -/
theorem IsFolded.parts_ofParts (h : IsFolded stack) : (ofParts stack.reverse).parts = stack.reverse := by
  rcases h.rooted_or_below with ⟨names, named, whole⟩ | below
  · rw [whole]
    exact parts_ofNames named
  · exact Path.parts_ofParts below

/-- The names among the `parts` of a path are names. -/
theorem isName_of_mem_parts (h : .name s ∈ p.parts) : Part.IsName s := by
  have inner : .name s ∈ p.pieces.filterMap Part.ofPiece? := by
    unfold Path.parts at h
    split at h
    · simpa using h
    · split at h
      · simpa using h
      · exact h
  obtain ⟨piece, hpiece, read⟩ := List.mem_filterMap.mp inner
  obtain up | ⟨t, named, e⟩ := Part.eq_up_or_isName (notMem_of_mem_splitOn hpiece) read
  · exact absurd up (by simp)
  · exact Part.name.inj e ▸ named

/-- A path is absolute exactly if the root is among its `parts`. -/
theorem root_mem_parts_iff : Part.root ∈ p.parts ↔ p.isAbsolute = true := by
  have inner : Part.root ∉ p.pieces.filterMap Part.ofPiece? := by
    intro root
    obtain ⟨piece, -, read⟩ := List.mem_filterMap.mp root
    obtain ⟨-, up⟩ | name := Part.ofPiece?_eq_some read
    · exact absurd up (by simp)
    · exact absurd name (by simp)
  cases rooted : p.isAbsolute with
  | true => simp [Path.parts, rooted]
  | false =>
      by_cases dot : p.pieces.head? = some ['.']
      · simp [Path.parts, rooted, dot, inner]
      · simp [Path.parts, rooted, dot, inner]

/-- The root is kept, whatever comes above it. -/
theorem root_mem_foldPart_iff : Part.root ∈ foldPart stack part ↔
    Part.root ∈ stack ∨ part = .root := by
  cases part with
  | root => simp [foldPart]
  | here => simp
  | name s => simp
  | up =>
      -- only a name is taken off
      rcases stack with _ | ⟨top, below⟩
      · simp [foldPart]
      · cases top <;> simp [foldPart]

/-- The root is among folded `parts` exactly if it was there before, or is one of the parts. -/
theorem root_mem_foldl_iff : Part.root ∈ parts.foldl foldPart stack ↔
    Part.root ∈ stack ∨ Part.root ∈ parts := by
  induction parts generalizing stack with
  | nil => simp
  | cons part rest ih =>
      rw [List.foldl_cons, ih, root_mem_foldPart_iff, List.mem_cons, or_assoc, eq_comm]

/-- **What a path folds to.** -/
theorem isFolded_foldl_parts (p : Path) : IsFolded (p.parts.foldl foldPart []) :=
  IsFolded.foldl (.ups 0) fun _ h => isName_of_mem_parts h

/-- **A normal form is read** as the `parts` the path is folded to. -/
theorem parts_normalize (p : Path) : p.normalize.parts = (p.parts.foldl foldPart []).reverse :=
  (isFolded_foldl_parts p).parts_ofParts

/-- The `parts` of a normal form are folded already. -/
theorem foldl_parts_normalize (p : Path) :
    p.normalize.parts.foldl foldPart [] = p.parts.foldl foldPart [] := by
  rw [parts_normalize, (isFolded_foldl_parts p).foldl_reverse]

/-- Paths that fold to the same `parts` have one normal form. -/
theorem normalize_congr (same : p.parts.foldl foldPart [] = q.parts.foldl foldPart []) :
    p.normalize = q.normalize := by
  rw [normalize, normalize, normalParts, normalParts, same]

/-- **A normal form is its own.** -/
theorem normalize_normalize (p : Path) : p.normalize.normalize = p.normalize :=
  normalize_congr (foldl_parts_normalize p)

/-- **A path and its normal form** are both absolute or both relative. -/
theorem isAbsolute_normalize (p : Path) : p.normalize.isAbsolute = p.isAbsolute := by
  rw [Bool.eq_iff_iff, ← root_mem_parts_iff, ← root_mem_parts_iff, parts_normalize, List.mem_reverse,
    root_mem_foldl_iff, or_iff_right List.not_mem_nil]

/-! ## The normal form as it grows -/

/-- **A path grown by one `part`.** A step up takes the last name of the path off; the root has none, and
where there is no name either, the step is written behind the path. -/
def grow (p : Path) : Part → Path
  | .here => p
  | .up =>
    match p.parts.getLast? with
    | some (.name _) => p.parent?.getD p
    | some .root => p
    | _ => p.join ⟨Part.up.text⟩
  | part => p.join ⟨part.text⟩

/-- Parts below a folder are spelled one behind the other. -/
theorem text_ofParts_append (below : AreBelow (parts ++ [part])) (some_part : parts ≠ []) :
    (ofParts (parts ++ [part])).text = (ofParts parts).text ++ "/" ++ part.text := by
  have front : AreBelow parts := fun q hq => below q (List.mem_append_left _ hq)
  rw [text_ofParts below, text_ofParts front, List.map_append,
    String.intercalate_append_of_ne_nil (by simpa using some_part) (by simp), List.map_singleton,
    String.intercalate_singleton]

/-- A `part` below a folder is spelled by its own text. -/
theorem ofParts_singleton (below : AreBelow [part]) : ofParts [part] = ⟨part.text⟩ :=
  congrArg Path.mk ((text_ofParts below).trans (by simp))

/-- **One more `part` below a folder.** -/
theorem join_ofParts (below : AreBelow (parts ++ [part])) :
    (ofParts parts).join ⟨part.text⟩ = ofParts (parts ++ [part]) := by
  obtain ⟨front, last⟩ := List.forall_mem_append.mp below
  have alone := ofParts_singleton last
  have relative : (Path.mk part.text).isAbsolute = false := alone ▸ isAbsolute_ofParts last
  rw [join, if_neg (by simp [relative])]
  by_cases some_part : parts = []
  · subst some_part
    have empty : (ofParts []).text = "" := rfl
    rw [if_pos (.inl empty), empty, String.empty_append, List.nil_append, alone]
  · obtain ⟨c, ends, other⟩ := getLast?_chars_ofParts front some_part
    have written : (ofParts parts).text ≠ "" := by
      intro empty
      simp [chars, empty] at ends
    have apart : (ofParts parts).chars.getLast? ≠ some '/' := by simpa [ends] using other
    rw [if_neg (not_or.mpr ⟨written, apart⟩), ← text_ofParts_append below some_part]

/-- The pieces of `parts` below a folder are not idle. -/
theorem dropIdle_map_text (absolute : Bool) (below : AreBelow parts) :
    dropIdle absolute (parts.map fun part => part.text.toList) =
      parts.map fun part => part.text.toList := by
  cases parts with
  | nil => rfl
  | cons part rest =>
      have read := (ofPiece?_text (below part List.mem_cons_self)).1
      exact dropIdle_of_ofPiece? absolute read _

/-- **The folder that holds a name below a folder** is spelled by the `parts` in front of the name. -/
theorem parent?_ofParts_append (below : AreBelow (parts ++ [.name s])) :
    (ofParts (parts ++ [.name s])).parent? = some (ofParts parts) := by
  obtain ⟨front, last⟩ := List.forall_mem_append.mp below
  have named : Part.IsName s := by simpa using last
  have behind : AreBelow parts.reverse := fun q hq => front q (List.mem_reverse.mp hq)
  have reversed : (ofParts (parts ++ [.name s])).pieces.reverse =
      s.toList :: parts.reverse.map fun part => part.text.toList := by
    rw [pieces_ofParts below (by simp), ← List.map_reverse, List.reverse_concat, List.map_cons]
    rfl
  have spelled : ofParts parts =
      ⟨String.ofList (['/'].intercalate (parts.map fun part => part.text.toList))⟩ := by
    rw [← chars_ofParts front, chars, String.ofList_toList]
  -- the step up leaves the pieces in front of the name, none of which is idle
  rw [parent?, ancestors, isAbsolute_ofParts below, if_neg Bool.false_ne_true,
    if_neg Bool.false_ne_true, reversed, ascend_cons false named, dropIdle_map_text false behind]
  simp [spelled]

/-- A name is put behind folded parts, and taken off them. -/
theorem IsFolded.join_and_parent? (h : IsFolded stack) (named : Part.IsName s) :
    (ofParts stack.reverse).join ⟨s⟩ = ofParts (stack.reverse ++ [.name s]) ∧
      (ofParts (stack.reverse ++ [.name s])).parent? = some (ofParts stack.reverse) := by
  rcases h.rooted_or_below with ⟨names, all, whole⟩ | below
  · have more : ∀ q ∈ names ++ [s], Part.IsName q :=
      List.forall_mem_append.mpr ⟨all, List.forall_mem_singleton.mpr named⟩
    rw [whole, List.cons_append, ← List.map_singleton, ← List.map_append]
    exact ⟨join_ofNames all named, parent?_ofNames_append more⟩
  · have more := below.append_name named
    exact ⟨join_ofParts more, parent?_ofParts_append more⟩

/-- **A path grown by one `part`** is spelled by the parts that are folded with it. -/
theorem IsFolded.grow_ofParts (h : IsFolded stack) (named : ∀ s, part = .name s → Part.IsName s) :
    grow (ofParts stack.reverse) part = ofParts (Path.foldPart stack part).reverse := by
  cases part with
  | root => rfl
  | here => rfl
  | name s =>
      rw [foldPart_name, List.reverse_cons]
      exact (h.join_and_parent? (named s rfl)).1
  | up =>
      rw [grow, h.parts_ofParts, List.getLast?_reverse]
      cases h with
      | root => rfl
      | ups k =>
          have more : AreBelow (List.replicate k .up ++ [.up]) :=
            List.replicate_succ' ▸ areBelow_ups (k + 1)
          have joined := join_ofParts more
          rw [foldPart_ups, List.reverse_replicate, List.reverse_replicate, List.replicate_succ',
            ← joined]
          -- whether there is nothing or a step up, there is no name to take off
          cases k <;> rfl
      | @name s below own folded =>
          rw [foldPart_name_up, List.reverse_cons, (folded.join_and_parent? own).2]
          rfl

/-- A path grown by a list of `parts`. -/
theorem IsFolded.foldl_grow (h : IsFolded stack) (named : ∀ s, .name s ∈ parts → Part.IsName s) :
    parts.foldl grow (ofParts stack.reverse) = ofParts (parts.foldl Path.foldPart stack).reverse := by
  induction parts generalizing stack with
  | nil => rfl
  | cons part rest ih =>
      have first : ∀ s, part = .name s → Part.IsName s := fun s e =>
        named s (e ▸ List.mem_cons_self)
      rw [List.foldl_cons, List.foldl_cons, h.grow_ofParts first]
      exact ih (h.foldPart first) fun s later => named s (List.mem_cons_of_mem _ later)

/-- **The normal form of a path is grown by its `parts`**, from the empty path. -/
theorem normalize_eq_foldl_grow (p : Path) : p.normalize = p.parts.foldl grow ⟨""⟩ :=
  (IsFolded.foldl_grow (.ups 0) fun _ h => isName_of_mem_parts h).symm

/-! ## Paths below a normal form -/

/-- A relative path folds to what its `pieces` stand for: a dot in front of it changes nothing. -/
theorem foldl_parts_of_relative (relative : p.isAbsolute = false) :
    p.parts.foldl foldPart [] = (p.pieces.filterMap Part.ofPiece?).foldl foldPart [] := by
  rw [Path.parts, if_neg (by simp [relative])]
  split
  · rfl
  · rfl

/-- A relative path below a relative one is relative. -/
theorem isAbsolute_join_of_relative (h : p.isAbsolute = false) (relative : tail.isAbsolute = false) :
    (p.join tail).isAbsolute = false := by
  rw [join, if_neg (by simp [relative])]
  cases spelled : p.chars with
  | nil =>
      have empty : p.text = "" := by simpa [chars] using spelled
      rw [if_pos (.inl empty), empty]
      simpa using relative
  | cons c cs =>
      have other : c ≠ '/' := by simpa [isAbsolute, spelled] using h
      have first : p.text.toList = c :: cs := spelled
      split
      · simp [isAbsolute, chars, first, other]
      · simp [isAbsolute, chars, first, other]

/-- What a path below a relative one folds to. -/
theorem foldl_parts_join (h : p.isAbsolute = false) (relative : tail.isAbsolute = false) :
    (p.join tail).parts.foldl foldPart [] =
      (tail.pieces.filterMap Part.ofPiece?).foldl foldPart (p.parts.foldl foldPart []) := by
  rw [foldl_parts_of_relative (isAbsolute_join_of_relative h relative), foldl_parts_of_relative h,
    filterMap_pieces_join p relative, List.foldl_append]

/-- **The normal form of a path below another** is the same below the normal form of the other. -/
theorem normalize_join (p tail : Path) :
    (p.normalize.join tail).normalize = (p.join tail).normalize := by
  cases kind : p.isAbsolute with
  | true => exact normalize_join_normalize kind tail
  | false =>
      have kind' : p.normalize.isAbsolute = false := (isAbsolute_normalize p).trans kind
      cases replaced : tail.isAbsolute with
      | true => rw [join_absolute _ replaced, join_absolute _ replaced]
      | false =>
          apply normalize_congr
          rw [foldl_parts_join kind' replaced, foldl_parts_join kind replaced, foldl_parts_normalize]

/-! ## Canonical form -/

/-- **Normal forms are canonical.** The normal form of any path is what grows from the empty path by its
`parts`. It is spelled without dots; without steps up if the path is absolute, and with steps up in front
only if it is relative. It is its own normal form, it is absolute exactly if the path is, and a path
below it has the normal form that it has below the path. -/
theorem normalize_is_canonical :
    (∀ p : Path,
      p.normalize = p.parts.foldl grow ⟨""⟩ ∧
        Part.here ∉ p.normalize.parts ∧
        (p.isAbsolute = true → Part.up ∉ p.normalize.parts) ∧
        (p.isAbsolute = false → ∃ k rest,
          p.normalize.parts = List.replicate k .up ++ rest ∧ Part.up ∉ rest) ∧
        p.normalize.normalize = p.normalize ∧
        (p.isAbsolute = true ↔ p.normalize.isAbsolute = true)) ∧
      ∀ p q : Path, (p.join q).normalize = (p.normalize.join q).normalize := by
  refine ⟨fun p => ?_, fun p q => (normalize_join p q).symm⟩
  have folded := isFolded_foldl_parts p
  have read := parts_normalize p
  refine ⟨normalize_eq_foldl_grow p, ?_, fun rooted => ?_, fun _ => ?_, normalize_normalize p, ?_⟩
  · rw [read, List.mem_reverse]
    exact folded.here_notMem
  · rw [read, List.mem_reverse]
    exact folded.up_notMem (root_mem_foldl_iff.mpr (.inr (root_mem_parts_iff.mpr rooted)))
  · rw [read]
    exact folded.exists_ups
  · rw [isAbsolute_normalize]

/-- A relative path that leaves the folder it starts from, and an absolute one that stays below the
root. -/
theorem normalize_is_canonical_climbing :
    (Path.mk "a/../../b/./c").isAbsolute = false ∧
      (Path.mk "a/../../b/./c").normalize = ⟨"../b/c"⟩ ∧
      (∃ k rest, (Path.mk "../b/c").parts = List.replicate k .up ++ rest ∧ Part.up ∉ rest) ∧
      (Path.mk "../b/c").normalize = ⟨"../b/c"⟩ ∧
      ((Path.mk "a/../../b/./c").join ⟨"../../../d"⟩).normalize = ⟨"../../d"⟩ ∧
      (Path.mk "/../a//.././b").isAbsolute = true ∧
      (Path.mk "/../a//.././b").normalize = ⟨"/b"⟩ ∧ Part.up ∉ (Path.mk "/b").parts := by
  obtain ⟨canonical, below⟩ := normalize_is_canonical
  have climbs : (Path.mk "a/../../b/./c").normalize = ⟨"../b/c"⟩ := by decide
  have stays : (Path.mk "/../a//.././b").normalize = ⟨"/b"⟩ := by decide
  have relative : (Path.mk "a/../../b/./c").isAbsolute = false := by decide
  have rooted : (Path.mk "/../a//.././b").isAbsolute = true := by decide
  obtain ⟨-, -, -, ups, same, -⟩ := canonical ⟨"a/../../b/./c"⟩
  obtain ⟨-, -, level, -⟩ := canonical ⟨"/../a//.././b"⟩
  have joined := below ⟨"a/../../b/./c"⟩ ⟨"../../../d"⟩
  rw [climbs] at ups same joined
  refine ⟨relative, climbs, ups relative, same, joined.trans (by decide), rooted, stays, ?_⟩
  exact stays ▸ level rooted

end ScriptBundle.Path
