import ScriptBundle.Proofs.Path.Reduced
import ScriptBundle.Walk.Treatment

/-! # Relative specifiers

A file is asked for from a folder by a specifier that goes up from the folder to what the two paths
share, and down from there. Joined to the folder it leads back to the file, unless the folder is
itself spelled with steps up: these are counted as folders to go up from, though each of them takes
one away.

* **`Path.wayParts`** — the parts of the way from a folder to a file;
* **`dotted_specifierFrom`** — a relative specifier starts with one dot or two;
* **`normalize_join_specifierFrom`** — it leads to the file;
* **`Path.IsWay`** — all of this about one specifier. -/

namespace ScriptBundle.Path

/-- The folder of a reduced path is reduced. -/
theorem IsReduced.folder {p : Path} (h : p.IsReduced) : p.folder.IsReduced := by
  rw [Path.folder]
  cases above : p.parent? with
  | none => exact h
  | some folder => exact h.of_mem_ancestors (List.mem_of_getElem? above)

variable {folder target : Path} {names : List String} {parts : List Part}

/-- **Parts below a folder**: steps up and names. -/
def AreBelow (parts : List Part) : Prop :=
  ∀ part ∈ parts, part = .up ∨ ∃ s, Part.IsName s ∧ part = .name s

/-- A `part` below a folder is read from its spelling. -/
theorem ofPiece?_text {part : Part} (h : part = .up ∨ ∃ s, Part.IsName s ∧ part = .name s) :
    Part.ofPiece? part.text.toList = some part ∧ '/' ∉ part.text.toList := by
  rcases h with rfl | ⟨s, named, rfl⟩
  · exact ⟨by decide, by decide⟩
  · exact ⟨named.ofPiece?_toList, named.slash_notMem⟩

/-- A `part` below a folder has a spelling. -/
theorem toList_text_ne_nil {part : Part} (h : part = .up ∨ ∃ s, Part.IsName s ∧ part = .name s) :
    part.text.toList ≠ [] := by
  intro nothing
  have read := (ofPiece?_text h).1
  simp [nothing] at read

/-- Parts below a folder are spelled with single slashes between them, and none in front. -/
theorem text_ofParts (below : AreBelow parts) :
    (ofParts parts).text = "/".intercalate (parts.map Part.text) := by
  cases parts with
  | nil => rfl
  | cons part rest =>
      rcases below part List.mem_cons_self with rfl | ⟨s, -, rfl⟩
      · rfl
      · rfl

/-- The characters of `ofParts`, for parts below a folder, are those of the parts with slashes between
them. -/
theorem chars_ofParts (below : AreBelow parts) :
    (ofParts parts).chars = ['/'].intercalate (parts.map fun part => part.text.toList) := by
  rw [Path.chars, text_ofParts below]
  simp [Function.comp_def]

/-- **The `pieces` of parts below a folder** are the spellings of these parts. -/
theorem pieces_ofParts (below : AreBelow parts) (some_part : parts ≠ []) :
    (ofParts parts).pieces = parts.map fun part => part.text.toList := by
  have apart : ∀ piece ∈ parts.map (fun part => part.text.toList), '/' ∉ piece := by
    intro piece hpiece
    obtain ⟨part, hpart, rfl⟩ := List.mem_map.mp hpiece
    exact (ofPiece?_text (below part hpart)).2
  rw [pieces, chars_ofParts below, List.splitOn_intercalate '/' apart (by simpa using some_part)]

/-- The `pieces` of parts below a folder stand for these parts. -/
theorem filterMap_pieces_ofParts (below : AreBelow parts) :
    (ofParts parts).pieces.filterMap Part.ofPiece? = parts := by
  by_cases some_part : parts = []
  · subst some_part
    rfl
  · rw [pieces_ofParts below some_part, List.filterMap_map]
    refine (List.filterMap_congr fun part hpart => ?_).trans List.filterMap_some
    exact (ofPiece?_text (below part hpart)).1

/-- **Parts below a folder end in no slash.** -/
theorem getLast?_chars_ofParts (below : AreBelow parts) (some_part : parts ≠ []) :
    ∃ c, (ofParts parts).chars.getLast? = some c ∧ c ≠ '/' := by
  -- none of the pieces is empty, as each is the spelling of a part
  have full : [] ∉ (ofParts parts).pieces := by
    rw [pieces_ofParts below some_part]
    intro empty
    obtain ⟨part, hpart, nothing⟩ := List.mem_map.mp empty
    exact toList_text_ne_nil (below part hpart) nothing
  rcases List.eq_nil_or_concat' (ofParts parts).chars with none | ⟨front, c, spelled⟩
  · exact absurd (by simp [pieces, none]) full
  · refine ⟨c, by rw [spelled, List.getLast?_concat], fun slash => full ?_⟩
    rw [pieces, spelled, slash, splitOn_append_slash, List.splitOn_nil]
    exact List.mem_append_right _ (List.mem_singleton_self [])

/-- Parts below a folder spell no absolute path. -/
theorem isAbsolute_ofParts (below : AreBelow parts) : (ofParts parts).isAbsolute = false := by
  rw [isAbsolute, chars_ofParts below]
  cases parts with
  | nil => rfl
  | cons part rest =>
      have free := (ofPiece?_text (below part List.mem_cons_self)).2
      -- a part has a spelling, so the first character is one of its own
      obtain ⟨c, cs, spelled⟩ :=
        List.exists_cons_of_ne_nil (toList_text_ne_nil (below part List.mem_cons_self))
      have other : c ≠ '/' := fun e => free (by simp [spelled, e])
      rw [List.map_cons, spelled]
      cases rest with
      | nil => simpa using other
      | cons next rest => simpa using other

/-- Lists agree as far as they share parts. -/
theorem take_sharedParts (as bs : List Part) :
    as.take (sharedParts as bs) = bs.take (sharedParts as bs) := by
  induction as generalizing bs with
  | nil => cases bs <;> rfl
  | cons a as ih =>
      cases bs with
      | nil => rfl
      | cons b bs =>
          rw [sharedParts]
          by_cases same : a = b
          · rw [if_pos same, List.take_succ_cons, List.take_succ_cons, ih, same]
          · rw [if_neg same, List.take_zero, List.take_zero]

/-- Two lists share no more parts than the first has. -/
theorem sharedParts_le (as bs : List Part) : sharedParts as bs ≤ as.length := by
  induction as generalizing bs with
  | nil => cases bs <;> exact Nat.le_refl 0
  | cons a as ih =>
      cases bs with
      | nil => exact Nat.zero_le _
      | cons b bs =>
          rw [sharedParts]
          by_cases same : a = b
          · rw [if_pos same]
            exact Nat.succ_le_succ (ih bs)
          · rw [if_neg same]
            exact Nat.zero_le _

/-- **Steps up take names off** a stack that has as many. -/
theorem foldl_foldPart_ups {n : Nat} (h : n ≤ names.length) :
    (List.replicate n .up).foldl foldPart (names.map .name ++ [.root]) =
      (names.drop n).map .name ++ [.root] := by
  induction n generalizing names with
  | zero => rfl
  | succ n ih =>
      cases names with
      | nil => simp at h
      | cons s names =>
          rw [List.replicate_succ, List.foldl_cons]
          exact ih (Nat.le_of_succ_le_succ h)

/-! ## From a folder without steps up -/

/-- **From a folder up to one above it**: the steps fold away the `parts` behind it. -/
theorem foldl_parts_ups (whole : parts = .root :: names.map .name) {k : Nat} (first : 1 ≤ k)
    (last : k ≤ parts.length) :
    (parts ++ List.replicate (parts.length - k) Part.up).foldl foldPart [] =
      (parts.take k).foldl foldPart [] := by
  obtain ⟨m, rfl⟩ := Nat.exists_eq_add_of_le' first
  have size : parts.length = names.length + 1 := by simp [whole]
  have ups : parts.length - (m + 1) = names.length - m := by omega
  have few : names.length - m ≤ names.reverse.length := by
    rw [List.length_reverse]
    exact Nat.sub_le ..
  have all : parts.foldl foldPart [] = names.reverse.map .name ++ [.root] := by
    rw [whole]
    exact foldl_foldPart_names names [.root]
  have front : (parts.take (m + 1)).foldl foldPart [] =
      (names.take m).reverse.map .name ++ [.root] := by
    rw [whole, List.take_succ_cons, ← List.map_take]
    exact foldl_foldPart_names (names.take m) [.root]
  have kept : names.reverse.drop (names.length - m) = (names.take m).reverse := by
    rw [List.drop_reverse]
    congr 2
    omega
  rw [List.foldl_append, all, ups, foldl_foldPart_ups few, kept, front]

/-! ## Relative specifiers -/

/-- **The `parts` of the way** from a folder to a file. -/
def wayParts (folder target : Path) : List Part :=
  List.replicate (folder.parts.length - sharedParts folder.parts target.parts) .up ++
    target.parts.drop (sharedParts folder.parts target.parts)

/-- Absolute paths share the root. -/
theorem one_le_sharedParts (rooted : folder.isAbsolute = true) (far : target.isAbsolute = true) :
    1 ≤ sharedParts folder.parts target.parts := by
  obtain ⟨above, folder_parts, -⟩ := exists_parts_of_isAbsolute rooted
  obtain ⟨below, target_parts, -⟩ := exists_parts_of_isAbsolute far
  rw [folder_parts, target_parts, sharedParts, if_pos rfl]
  exact Nat.le_add_left 1 _

/-- The way between absolute paths goes up, and down by names or further up. -/
theorem areBelow_wayParts (rooted : folder.isAbsolute = true) (far : target.isAbsolute = true) :
    AreBelow (wayParts folder target) := by
  obtain ⟨rest, whole, below⟩ := exists_parts_of_isAbsolute far
  obtain ⟨k, shared⟩ := Nat.exists_eq_add_of_le' (one_le_sharedParts rooted far)
  intro part hpart
  rcases List.mem_append.mp hpart with up | down
  · exact .inl (List.eq_of_mem_replicate up)
  · rw [shared, whole, List.drop_succ_cons] at down
    exact below part (List.mem_of_mem_drop down)

/-- **A folder and the way from it fold to what the file folds to**: up to what is shared, which is a
beginning of both, and down what is left of the file. -/
theorem foldl_parts_append_wayParts (rooted : folder.isAbsolute = true)
    (level : Part.up ∉ folder.parts) (far : target.isAbsolute = true) :
    (folder.parts ++ wayParts folder target).foldl foldPart [] =
      target.parts.foldl foldPart [] := by
  obtain ⟨names, whole⟩ := exists_parts_of_level rooted level
  have shared := one_le_sharedParts rooted far
  have few := sharedParts_le folder.parts target.parts
  rw [wayParts, ← List.append_assoc, List.foldl_append, foldl_parts_ups whole shared few,
    take_sharedParts, ← List.foldl_append, List.take_append_drop]

/-- Between absolute paths, `relative` is spelled by `wayParts`. -/
theorem relative_eq_ofParts (rooted : folder.isAbsolute = true) (far : target.isAbsolute = true) :
    relative folder target = ofParts (wayParts folder target) := by
  have shared := one_le_sharedParts rooted far
  rw [relative, if_neg (by omega)]
  rfl

/-- **A relative specifier starts with one dot or two**, and a slash. -/
theorem dotted_specifierFrom (folder target : Path) :
    "./".toList <+: (specifierFrom folder target).toList ∨
      "../".toList <+: (specifierFrom folder target).toList := by
  unfold specifierFrom
  by_cases climbs : "../".toList.isPrefixOf (relative folder target).chars = true
  · right
    rw [if_pos climbs]
    exact List.isPrefixOf_iff_prefix.mp climbs
  · left
    rw [if_neg climbs, String.toList_append]
    exact List.prefix_append ..

/-- A relative specifier is no absolute path. -/
theorem isAbsolute_specifierFrom (folder target : Path) :
    (Path.mk (specifierFrom folder target)).isAbsolute = false := by
  rw [isAbsolute, chars]
  rcases dotted_specifierFrom folder target with ⟨rest, spelled⟩ | ⟨rest, spelled⟩
  · rw [← spelled]
    rfl
  · rw [← spelled]
    rfl

/-- **The `pieces` of a relative specifier** stand for the way. -/
theorem filterMap_pieces_specifierFrom (rooted : folder.isAbsolute = true)
    (far : target.isAbsolute = true) :
    (Path.mk (specifierFrom folder target)).pieces.filterMap Part.ofPiece? =
      wayParts folder target := by
  have way : (relative folder target).pieces.filterMap Part.ofPiece? = wayParts folder target := by
    rw [relative_eq_ofParts rooted far]
    exact filterMap_pieces_ofParts (areBelow_wayParts rooted far)
  unfold specifierFrom
  by_cases climbs : "../".toList.isPrefixOf (relative folder target).chars = true
  · rw [if_pos climbs]
    exact way
  · -- the dot in front is a piece that stands for no part
    have pieces : (Path.mk ("./" ++ (relative folder target).text)).pieces =
        ['.'] :: (relative folder target).pieces := by
      rw [Path.pieces, Path.chars, String.toList_append]
      exact splitOn_append_slash ['.'] (relative folder target).chars
    rw [if_neg climbs, pieces, List.filterMap_cons_none Part.ofPiece?_dot, way]

/-- **A relative specifier leads to its file** from a folder that is spelled without steps up. -/
theorem normalize_join_specifierFrom (rooted : folder.isAbsolute = true)
    (level : Part.up ∉ folder.parts) (far : target.isAbsolute = true) :
    (folder.join ⟨specifierFrom folder target⟩).normalize = target.normalize := by
  rw [normalize, normalize, normalParts, normalParts,
    parts_join rooted (isAbsolute_specifierFrom folder target),
    filterMap_pieces_specifierFrom rooted far, foldl_parts_append_wayParts rooted level far]

/-- **A `specifier` is the way** from a folder to a file: the relative one, which starts with one dot
or two and leads to the file if the folder is absolute and spelled without steps up. -/
structure IsWay (folder target : Path) (specifier : String) : Prop where
  /-- It is the relative specifier. -/
  eq : specifier = specifierFrom folder target
  /-- It starts with one dot or two. -/
  dotted : "./".toList <+: specifier.toList ∨ "../".toList <+: specifier.toList
  /-- It leads to the file. -/
  leads : folder.isAbsolute = true → Part.up ∉ folder.parts →
    (folder.join ⟨specifier⟩).normalize = target.normalize

/-- **The specifier of a file, seen from a folder**, is a way from one to the other. -/
theorem isWay_specifierFrom (folder : Path) (far : target.isAbsolute = true) :
    IsWay folder target (specifierFrom folder target) :=
  ⟨rfl, dotted_specifierFrom folder target,
    fun rooted level => normalize_join_specifierFrom rooted level far⟩

end ScriptBundle.Path
