import ScriptBundle.Proofs.Path.Reduced
import ScriptBundle.Resolution

/-! # Extensions behind a path

A search tries a normal path with an extension put behind it, and folds nothing after that. An extension
may hold slashes, and then it decides how the file that is found is spelled: it may spell a step up, or
pieces that are idle.

* **`IsLevelExtension`, `IsTightExtension`, `IsNamedExtension`** — extensions that spell no step up, no
  idle piece, and nothing but names; an extension without a slash is all of them;
* **`Path.exists_ofNames_append`** — the texts that spell a path with an extension behind it;
* **`isReduced_append`, `isTight_append`, `isNormal_append`** — files that are spelled by such
  extensions. -/

namespace ScriptBundle

variable {w : Workspace} {p t : Path} {s e : String} {names : List String}
  {pieces : List (List Char)}

/-! ## Regular files -/

/-- What a path leads to is found by following its `pieces`. -/
theorem foldlM_of_find {tree : FileTree} {start : Place} {spot : Spot}
    (h : tree.find start p = .ok spot) :
    p.pieces.foldlM tree.step (.folder (if p.isAbsolute then [] else start)) = .ok spot := by
  unfold FileTree.find at h
  split at h
  · simp at h
  · split at h
    · simp at h
    · split at h
      · simp at h
      · exact h

/-- A regular file is what its path leads to. -/
theorem exists_of_isFile (h : w.isFile p = true) :
    ∃ place content, w.find p = .ok (.file place content) := by
  unfold Workspace.isFile at h
  split at h
  · rename_i place content found
    exact ⟨place, content, found⟩
  · simp at h

/-- The root with idle pieces or a step up behind it is no regular file. -/
theorem isFile_root (idle : e.toList = [] ∨ e.toList = ['.'] ∨ e.toList = ['.', '.']) :
    w.isFile ⟨"/" ++ e⟩ = false := by
  have pieces : (Path.mk ("/" ++ e)).pieces = [[], e.toList] := by
    rcases idle with h | h | h <;> simp [Path.pieces, Path.chars, h, List.splitOn_cons_eq_if_modifyHead]
  have rooted : (Path.mk ("/" ++ e)).isAbsolute = true := by
    simp [Path.isAbsolute, Path.chars]
  have stays : w.tree.step (.folder []) e.toList = .ok (.folder []) := by
    rcases idle with h | h | h <;> simp [FileTree.step, h]
  have first : w.tree.step (.folder []) [] = .ok (.folder []) := by simp [FileTree.step]
  have walked : ([[], e.toList] : List (List Char)).foldlM w.tree.step (.folder []) =
      .ok (.folder []) := by
    simp [List.foldlM, first, stays, bind, Except.bind, pure, Except.pure]
  -- the pieces lead nowhere but to the root, which is a folder
  by_contra file
  obtain ⟨place, content, found⟩ := exists_of_isFile (by simpa using file)
  have reached := foldlM_of_find found
  rw [pieces, rooted, if_pos rfl, walked] at reached
  simp at reached

/-- The root is no regular file. -/
theorem isFile_ofNames_nil : w.isFile (.ofNames []) = false :=
  isFile_root (e := "") (.inl rfl)

/-- A regular file spelled by names has a name of its own. -/
theorem exists_names_of_isFile (normal : p.IsNormal) (file : w.isFile p = true) :
    ∃ names s, (∀ q ∈ names ++ [s], Part.IsName q) ∧ p = .ofNames (names ++ [s]) := by
  obtain ⟨names, hs, rfl⟩ := normal
  rcases List.eq_nil_or_concat' names with rfl | ⟨front, s, rfl⟩
  · rw [isFile_ofNames_nil] at file
    simp at file
  · exact ⟨front, s, hs, rfl⟩

/-! ## Kinds of extensions -/

/-- **An extension that spells no step up.** Without a slash it is part of a name, whatever it is; with
slashes, `.d//k.js` is one and `.d/../q.js` is none. -/
def IsLevelExtension (e : String) : Prop := '/' ∈ e.toList → ['.', '.'] ∉ e.toList.splitOn '/'

/-- **An extension that spells no idle piece** between its slashes, if it has any: `.d/../q.js` is one
and `.d//k.js` is none. -/
def IsTightExtension (e : String) : Prop :=
  '/' ∈ e.toList → [] ∉ e.toList.splitOn '/' ∧ ['.'] ∉ e.toList.splitOn '/'

/-- **An extension that spells nothing but names** between its slashes, if it has any: `.d/k.js` is
one, and it is both an `IsLevelExtension` and an `IsTightExtension`. -/
def IsNamedExtension (e : String) : Prop :=
  '/' ∈ e.toList → ∀ piece ∈ e.toList.splitOn '/', Part.IsName (String.ofList piece)

instance : DecidablePred Part.IsName := fun s =>
  inferInstanceAs (Decidable (s ≠ "" ∧ s ≠ "." ∧ s ≠ ".." ∧ '/' ∉ s.toList))

instance : DecidablePred IsLevelExtension := fun e =>
  inferInstanceAs (Decidable ('/' ∈ e.toList → ['.', '.'] ∉ e.toList.splitOn '/'))

instance : DecidablePred IsTightExtension := fun e =>
  inferInstanceAs (Decidable
    ('/' ∈ e.toList → [] ∉ e.toList.splitOn '/' ∧ ['.'] ∉ e.toList.splitOn '/'))

instance : DecidablePred IsNamedExtension := fun e =>
  inferInstanceAs (Decidable
    ('/' ∈ e.toList → ∀ piece ∈ e.toList.splitOn '/', Part.IsName (String.ofList piece)))

/-! ## Pieces -/

/-- Pieces stand for a step up where one of them is `..`. -/
theorem Part.up_mem_filterMap_iff :
    Part.up ∈ pieces.filterMap Part.ofPiece? ↔ ['.', '.'] ∈ pieces := by
  rw [List.mem_filterMap]
  constructor
  · rintro ⟨piece, hpiece, read⟩
    obtain ⟨rfl, -⟩ | name := ofPiece?_eq_some read
    · exact hpiece
    · simp at name
  · intro h
    exact ⟨_, h, Part.ofPiece?_dots⟩

namespace Path

/-- The `pieces` of a text behind the root. -/
theorem pieces_append_root (e : String) :
    ((ofNames []).append e).pieces = [] :: e.toList.splitOn '/' := by
  have spelled : ((ofNames []).append e).chars = [] ++ '/' :: e.toList := by
    simp [append, text_ofNames, chars]
  rw [pieces, spelled, splitOn_append_slash]
  rfl

/-- **The `pieces` of a longer path**: the text goes on behind the last name, and its slashes cut off
further pieces. -/
theorem pieces_append_ofNames (hs : ∀ q ∈ names ++ [s], Part.IsName q) (e : String) :
    ∃ t, Part.IsName t ∧ ((ofNames (names ++ [s])).append e).pieces =
      [] :: (names ++ [t]).map String.toList ++ (e.toList.splitOn '/').tail := by
  obtain ⟨front, last⟩ := List.forall_mem_append.mp hs
  have named : Part.IsName s := last s (List.mem_singleton_self s)
  have free : ∀ t, Part.IsName t → ∀ q ∈ names ++ [t], '/' ∉ q.toList := fun t ht =>
    List.forall_mem_append.mpr ⟨fun q hq => (front q hq).slash_notMem,
      List.forall_mem_singleton.mpr ht.slash_notMem⟩
  by_cases slash : '/' ∈ e.toList
  · obtain ⟨first, behind, cut, apart⟩ := List.eq_append_cons_of_mem slash
    have longer : Part.IsName (s ++ .ofList first) := isName_append named (by simpa using apart)
    have spelled : ((ofNames (names ++ [s])).append e).chars =
        (ofNames (names ++ [s ++ .ofList first])).chars ++ '/' :: behind := by
      rw [← append_ofNames, append, append, chars, chars]
      simp [cut]
    refine ⟨s ++ .ofList first, longer, ?_⟩
    rw [pieces, spelled, splitOn_append_slash, ← pieces, pieces_ofNames (free _ longer) (by simp), cut,
      splitOn_append_slash, splitOn_of_notMem apart, List.singleton_append, List.tail_cons]
  · have longer : Part.IsName (s ++ e) := isName_append named slash
    refine ⟨s ++ e, longer, ?_⟩
    rw [append_ofNames, pieces_ofNames (free _ longer) (by simp), splitOn_of_notMem slash,
      List.tail_cons, List.append_nil]

/-- **A path is spelled by the texts it is cut into.** -/
theorem eq_ofNames_of_pieces (free : ∀ q ∈ names, '/' ∉ q.toList) (some_name : names ≠ [])
    (cut : p.pieces = [] :: names.map String.toList) : p = ofNames names := by
  have joined : ∀ q : Path, ['/'].intercalate q.pieces = q.chars := fun q =>
    List.intercalate_splitOn '/'
  have whole : p.chars = (ofNames names).chars := by
    rw [← joined, cut, ← pieces_ofNames free some_name, joined]
  exact congrArg mk (String.toList_injective whole)

/-- **A normal path with a text behind it** is spelled by names and by pieces of the text. -/
theorem exists_ofNames_append (normal : t.IsNormal) (e : String) :
    ∃ names, t.append e = ofNames names ∧
      ∀ q ∈ names, Part.IsName q ∨ (q.toList ∈ e.toList.splitOn '/' ∧ '/' ∉ q.toList) := by
  have read : ∀ pieces : List (List Char), (pieces.map String.ofList).map String.toList = pieces := by
    intro pieces
    simp [Function.comp_def]
  have behind : ∀ pieces ⊆ e.toList.splitOn '/', ∀ q ∈ pieces.map String.ofList,
      q.toList ∈ e.toList.splitOn '/' ∧ '/' ∉ q.toList := by
    intro pieces inner q hq
    obtain ⟨piece, hpiece, rfl⟩ := List.mem_map.mp hq
    rw [String.toList_ofList]
    exact ⟨inner hpiece, notMem_of_mem_splitOn (inner hpiece)⟩
  obtain ⟨above, named, rfl⟩ := normal
  rcases List.eq_nil_or_concat' above with rfl | ⟨front, s, rfl⟩
  -- behind the root all pieces are those of the text, else the first of them goes on with a name
  · have all := behind _ (List.Subset.refl _)
    refine ⟨_, eq_ofNames_of_pieces (fun q hq => (all q hq).2) (by simp) ?_, fun q hq => .inr (all q hq)⟩
    rw [pieces_append_root, read]
  · obtain ⟨s', hs', cut⟩ := pieces_append_ofNames named e
    have all : ∀ q ∈ (front ++ [s']) ++ (e.toList.splitOn '/').tail.map String.ofList,
        Part.IsName q ∨ (q.toList ∈ e.toList.splitOn '/' ∧ '/' ∉ q.toList) := by
      refine List.forall_mem_append.mpr ⟨List.forall_mem_append.mpr ⟨fun q hq => ?_, ?_⟩, fun q hq => ?_⟩
      · exact .inl (named q (List.mem_append_left _ hq))
      · exact List.forall_mem_singleton.mpr (.inl hs')
      · exact .inr (behind _ (List.tail_subset _) q hq)
    have free : ∀ q ∈ (front ++ [s']) ++ (e.toList.splitOn '/').tail.map String.ofList,
        '/' ∉ q.toList := fun q hq => (all q hq).elim (·.slash_notMem) (·.2)
    refine ⟨_, eq_ofNames_of_pieces free (by simp) ?_, all⟩
    rw [cut]
    simp only [List.map_append, List.cons_append, read]

end Path

/-! ## Files with an extension -/

/-- A regular file that is a normal path with a text without slashes behind it is normal. -/
theorem isNormal_append_of_notMem (normal : t.IsNormal) (free : '/' ∉ e.toList)
    (file : w.isFile (t.append e) = true) : (t.append e).IsNormal := by
  obtain ⟨names, hs, rfl⟩ := normal
  rcases List.eq_nil_or_concat' names with rfl | ⟨front, s, rfl⟩
  -- behind the root the extension is a name of its own, unless it leads back to the root
  · have spelled : (Path.ofNames []).append e = ⟨"/" ++ e⟩ := by
      simp [Path.append, Path.text_ofNames]
    rw [spelled] at file ⊢
    by_cases idle : e.toList = [] ∨ e.toList = ['.'] ∨ e.toList = ['.', '.']
    · rw [isFile_root idle] at file
      simp at file
    · have name : Part.IsName e := by
        refine ⟨fun h => ?_, fun h => ?_, fun h => ?_, free⟩ <;> subst h <;> simp at idle
      refine ⟨[e], by simpa using name, ?_⟩
      show _ = (⟨(Path.ofNames [e]).text⟩ : Path)
      simp [Path.text_ofNames]
  · obtain ⟨above, last⟩ := List.forall_mem_append.mp hs
    have longer : Part.IsName (s ++ e) := Path.isName_append (last s (List.mem_singleton_self s)) free
    rw [Path.append_ofNames]
    exact ⟨front ++ [s ++ e], List.forall_mem_append.mpr
      ⟨above, List.forall_mem_singleton.mpr longer⟩, rfl⟩

/-- **A file that is a normal path with an extension behind it** is spelled by names and, where the
extension holds a slash, by pieces of the extension. -/
theorem exists_ofNames_of_isFile_append (normal : t.IsNormal) (file : w.isFile (t.append e) = true) :
    ∃ names, t.append e = Path.ofNames names ∧ ∀ q ∈ names, Part.IsName q ∨
      ('/' ∈ e.toList ∧ q.toList ∈ e.toList.splitOn '/' ∧ '/' ∉ q.toList) := by
  by_cases slash : '/' ∈ e.toList
  · obtain ⟨names, spelled, all⟩ := Path.exists_ofNames_append normal e
    exact ⟨names, spelled, fun q hq => (all q hq).imp_right fun piece => ⟨slash, piece⟩⟩
  · obtain ⟨names, hs, spelled⟩ := isNormal_append_of_notMem normal slash file
    exact ⟨names, spelled, fun q hq => .inl (hs q hq)⟩

/-- **A file with a named extension is spelled as a normal path.** -/
theorem isNormal_append (normal : t.IsNormal) (named : IsNamedExtension e)
    (file : w.isFile (t.append e) = true) : (t.append e).IsNormal := by
  obtain ⟨names, spelled, all⟩ := exists_ofNames_of_isFile_append normal file
  refine ⟨names, fun q hq => ?_, spelled⟩
  rcases all q hq with name | ⟨slash, piece, -⟩
  · exact name
  · exact String.ofList_toList (s := q) ▸ named slash q.toList piece

/-- **A file with a tight extension is tight.** -/
theorem isTight_append (normal : t.IsNormal) (tight : IsTightExtension e)
    (file : w.isFile (t.append e) = true) : (t.append e).IsTight := by
  obtain ⟨names, spelled, all⟩ := exists_ofNames_of_isFile_append normal file
  refine ⟨names, fun q hq => ?_, spelled⟩
  rcases all q hq with name | ⟨slash, piece, free⟩
  · exact name.isText
  · obtain ⟨some_char, no_dot⟩ := tight slash
    refine ⟨?_, ?_, free⟩
    · rintro rfl
      exact some_char piece
    · rintro rfl
      exact no_dot piece

/-- **A file with a level extension is reduced.** -/
theorem isReduced_append (normal : t.IsNormal) (level : IsLevelExtension e)
    (file : w.isFile (t.append e) = true) : (t.append e).IsReduced := by
  obtain ⟨names, spelled, all⟩ := exists_ofNames_of_isFile_append normal file
  have free : ∀ q ∈ names, '/' ∉ q.toList := fun q hq =>
    (all q hq).elim (·.slash_notMem) (·.2.2)
  have flat : ['.', '.'] ∉ names.map String.toList := by
    intro up
    obtain ⟨q, hq, dots⟩ := List.mem_map.mp up
    rcases all q hq with name | ⟨slash, piece, -⟩
    · exact name.toList_ne_dots dots
    · exact level slash (dots ▸ piece)
  rw [spelled, Path.isReduced_iff, Path.parts_ofNames_of_free free, List.mem_cons,
    Part.up_mem_filterMap_iff]
  exact ⟨Path.isAbsolute_ofNames names, not_or.mpr ⟨by simp, flat⟩⟩

end ScriptBundle
