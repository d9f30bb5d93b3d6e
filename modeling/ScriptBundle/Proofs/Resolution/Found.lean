import ScriptBundle.Proofs.Resolution.Extensions
import ScriptBundle.Walk.Project

/-! # Found files

What a search returns is a regular file, spelled as a normal path or as a normal path with one of
the extensions behind it. What the extensions spell decides how it is spelled in the second case:

* **`isCandidate_of_resolve`** — a normal path, or one with an extension behind it;
* **`isTight_of_resolve`, `isReduced_of_resolve`** — a tight path, for extensions that spell no idle
  piece, and a reduced path, for extensions that spell no step up;
* **`Project.identityOf_eq_of_parts_eq`** — the identity of a file, however it is spelled;
* **`manifestAbove?_self`** — the nearest manifest above a manifest is that manifest. -/

namespace ScriptBundle

variable {w : Workspace} {extensions : List String} {folder p q target : Path}
  {specifier e : String}

/-! ## Searches -/

/-- The folder a search starts in is spelled by names. -/
theorem startPath_eq (w : Workspace) : w.startPath = .ofNames w.start := rfl

/-- The absolute form of a path is normal. -/
theorem isNormal_of_absolute (h : w.absolute p = .ok q) : q.IsNormal := by
  unfold Workspace.absolute at h
  split at h
  · simp at h
  · rw [← Except.ok.inj h, startPath_eq]
    exact Path.isNormal_normalize (Path.isAbsolute_join _ (Path.isAbsolute_ofNames _))

/-- **A path a search may try**: a normal one, or one with an extension behind it. -/
def IsCandidate (extensions : List String) (q : Path) : Prop :=
  ∃ p : Path, p.IsNormal ∧ (q = p ∨ ∃ e ∈ extensions, q = p.append e)

/-- A path a search may try is absolute. -/
theorem IsCandidate.isAbsolute (h : IsCandidate extensions q) : q.isAbsolute = true := by
  obtain ⟨p, normal, rfl | ⟨e, -, rfl⟩⟩ := h
  · exact normal.isAbsolute
  · exact Path.isAbsolute_append e normal.isAbsolute

/-- The name of an index file is a name. -/
theorem isName_indexName : Part.IsName indexName := by
  refine ⟨?_, ?_, ?_, ?_⟩ <;> decide

/-- The name of a manifest is a name. -/
theorem isName_manifestName : Part.IsName Package.manifestName := by
  refine ⟨?_, ?_, ?_, ?_⟩ <;> decide

/-- An entry of a normal folder is normal. -/
theorem Path.IsNormal.join (normal : p.IsNormal) {s : String} (hs : Part.IsName s) :
    (p.join ⟨s⟩).IsNormal := by
  obtain ⟨names, h, rfl⟩ := normal
  rw [Path.join_ofNames h hs]
  exact ⟨names ++ [s], List.forall_mem_append.mpr ⟨h, List.forall_mem_singleton.mpr hs⟩, rfl⟩

/-- A regular file stands for itself, whatever the `extensions` are. -/
theorem asFile?_of_isFile (file : w.isFile p = true) : asFile? w extensions p = some p := by
  rw [asFile?, List.find?_cons_of_pos file]

/-- What `asFile?` finds is a file, and a path a search may try. -/
theorem isCandidate_of_asFile? (normal : p.IsNormal) (h : asFile? w extensions p = some q) :
    w.isFile q = true ∧ IsCandidate extensions q := by
  refine ⟨List.find?_some h, p, normal, ?_⟩
  rcases List.mem_cons.mp (List.mem_of_find?_eq_some h) with rfl | later
  · exact .inl rfl
  · obtain ⟨e, he, rfl⟩ := List.mem_map.mp later
    exact .inr ⟨e, he, rfl⟩

/-- What `asIndex?` finds is a file, and a path a search may try. -/
theorem isCandidate_of_asIndex? (normal : p.IsNormal) (h : asIndex? w extensions p = some q) :
    w.isFile q = true ∧ IsCandidate extensions q := by
  refine ⟨List.find?_some h, p.join ⟨indexName⟩, normal.join isName_indexName, ?_⟩
  obtain ⟨e, he, rfl⟩ := List.mem_map.mp (List.mem_of_find?_eq_some h)
  exact .inr ⟨e, he, rfl⟩

/-- What `asFolder?` finds is a file, and a path a search may try. -/
theorem isCandidate_of_asFolder? (normal : p.IsNormal) (h : asFolder? w extensions p = some q) :
    w.isFile q = true ∧ IsCandidate extensions q := by
  unfold asFolder? at h
  split at h
  · rename_i main _
    -- the main file of a manifest may lead out of the folder, so it is normalized again
    have inner : (p.join ⟨main⟩).normalize.IsNormal :=
      Path.isNormal_normalize (Path.isAbsolute_join _ normal.isAbsolute)
    rcases Option.or_eq_some_iff.mp h with found | ⟨-, h⟩
    · exact isCandidate_of_asFile? inner found
    · rcases Option.or_eq_some_iff.mp h with found | ⟨-, found⟩
      · exact isCandidate_of_asIndex? inner found
      · exact isCandidate_of_asIndex? normal found
  · exact isCandidate_of_asIndex? normal h

/-- What `asPath?` finds is a file, and a path a search may try. -/
theorem isCandidate_of_asPath? {folderOnly : Bool} (rooted : target.isAbsolute = true)
    (h : asPath? w extensions target folderOnly = some q) :
    w.isFile q = true ∧ IsCandidate extensions q := by
  have normal := Path.isNormal_normalize rooted
  unfold asPath? at h
  split at h
  · exact isCandidate_of_asFolder? normal h
  · rcases Option.or_eq_some_iff.mp h with found | ⟨-, found⟩
    · exact isCandidate_of_asFile? normal found
    · exact isCandidate_of_asFolder? normal found

/-- What `lookup?` finds is a file, and a path a search may try, whatever the kind of the specifier is.
-/
theorem isCandidate_of_lookup? (normal : folder.IsNormal)
    (h : lookup? w extensions specifier folder = some q) :
    w.isFile q = true ∧ IsCandidate extensions q := by
  unfold lookup? at h
  -- relative, absolute and bare specifiers; the last are looked for from folder to folder
  split at h
  · exact isCandidate_of_asPath? (Path.isAbsolute_join _ normal.isAbsolute) h
  · exact isCandidate_of_asPath? (Path.isAbsolute_join _ normal.isAbsolute) h
  · obtain ⟨dependencies, hmem, found⟩ := List.exists_of_findSome?_eq_some h
    obtain ⟨above, habove, rfl⟩ := List.mem_map.mp hmem
    have rooted := (normal.of_mem_ancestors habove).isAbsolute
    exact isCandidate_of_asPath? (Path.isAbsolute_join _ (Path.isAbsolute_join _ rooted)) found

/-- **A file that is found** is a regular one, and a path the search tries. -/
theorem isCandidate_of_resolve (h : resolve w extensions specifier folder = .ok (.file q)) :
    w.isFile q = true ∧ IsCandidate extensions q := by
  unfold resolve at h
  split at h
  · simp at h
  · split at h
    · simp at h
    · rename_i start rooted
      split at h
      · rename_i path found
        cases h
        exact isCandidate_of_lookup? (isNormal_of_absolute rooted) found
      · simp at h

/-- **A file that is found is tight**, where no extension spells an idle piece. -/
theorem isTight_of_resolve (tight : ∀ e ∈ extensions, IsTightExtension e)
    (h : resolve w extensions specifier folder = .ok (.file q)) : q.IsTight := by
  obtain ⟨file, p, normal, rfl | ⟨e, he, rfl⟩⟩ := isCandidate_of_resolve h
  · exact normal.isTight
  · exact isTight_append normal (tight e he) file

/-- **A file that is found is reduced**, where no extension spells a step up. -/
theorem isReduced_of_resolve (level : ∀ e ∈ extensions, IsLevelExtension e)
    (h : resolve w extensions specifier folder = .ok (.file q)) : q.IsReduced := by
  obtain ⟨file, p, normal, rfl | ⟨e, he, rfl⟩⟩ := isCandidate_of_resolve h
  · exact normal.isReduced
  · exact isReduced_append normal (level e he) file

/-! ## Identities -/

/-- **The path from one absolute path to another** does not depend on their spelling. -/
theorem Path.relative_eq_of_parts_eq {base : Path} (rooted : base.isAbsolute = true)
    (hp : p.isAbsolute = true) (h : p.parts = q.parts) :
    Path.relative base p = Path.relative base q := by
  obtain ⟨above, base_parts, -⟩ := Path.exists_parts_of_isAbsolute rooted
  obtain ⟨below, parts, -⟩ := Path.exists_parts_of_isAbsolute hp
  -- absolute paths share the root, so the path between them is spelled by the parts alone
  have shared : Path.sharedParts base.parts q.parts ≠ 0 := by
    rw [← h, base_parts, parts]
    simp [Path.sharedParts]
  unfold Path.relative
  rw [h, if_neg shared, if_neg shared]

/-- The folder of a normal `entry` script is absolute. -/
theorem Project.isAbsolute_base {P : Project} (normal : P.entry.IsNormal) :
    P.base.isAbsolute = true := by
  cases above : P.entry.parent? with
  | none => simp [Project.base, above, Path.isAbsolute, Path.chars]
  | some folder =>
      rw [Project.base, above]
      exact (normal.of_mem_ancestors (List.mem_of_getElem? above)).isAbsolute

/-- **The identity of a file** does not depend on the spelling of its path. -/
theorem Project.identityOf_eq_of_parts_eq {P : Project} (normal : P.entry.IsNormal)
    (hp : p.isAbsolute = true) (h : p.parts = q.parts) : P.identityOf p = P.identityOf q := by
  rw [identityOf, identityOf, Identity.ofLocation, Identity.ofLocation,
    Path.relative_eq_of_parts_eq (Project.isAbsolute_base normal) hp h]

/-! ## Manifests -/

/-- The nearest manifest above an absolute path is absolute. -/
theorem isAbsolute_of_manifestAbove? (rooted : p.isAbsolute = true)
    (h : w.manifestAbove? p = some q) : q.isAbsolute = true := by
  obtain ⟨above, habove, rfl⟩ := List.mem_map.mp (List.mem_of_find?_eq_some h)
  exact Path.isAbsolute_join _ (Path.isAbsolute_of_mem_ancestors rooted (List.mem_of_mem_tail habove))

/-- The nearest manifest above a tight path is tight. -/
theorem isTight_of_manifestAbove? (tight : p.IsTight) (h : w.manifestAbove? p = some q) :
    q.IsTight := by
  obtain ⟨above, habove, rfl⟩ := List.mem_map.mp (List.mem_of_find?_eq_some h)
  exact (tight.of_mem_ancestors (List.mem_of_mem_tail habove)).join isName_manifestName

/-- The nearest manifest above a reduced path is reduced. -/
theorem isReduced_of_manifestAbove? (reduced : p.IsReduced) (h : w.manifestAbove? p = some q) :
    q.IsReduced := by
  obtain ⟨above, habove, rfl⟩ := List.mem_map.mp (List.mem_of_find?_eq_some h)
  exact (reduced.of_mem_ancestors (List.mem_of_mem_tail habove)).join isName_manifestName

/-- **The nearest manifest above a manifest is that manifest.** -/
theorem manifestAbove?_self (rooted : p.isAbsolute = true) (h : w.manifestAbove? p = some q) :
    w.manifestAbove? q = some q := by
  have file := Workspace.isFile_of_manifestAbove? h
  obtain ⟨above, habove, rfl⟩ := List.mem_map.mp (List.mem_of_find?_eq_some h)
  obtain ⟨names, folder, rfl, -⟩ := Path.exists_texts_of_mem_ancestors rooted habove
  have first : (Path.ofNames names).ancestors = .ofNames names :: (Path.ofNames names).ancestors.tail :=
    rfl
  -- the folder of the manifest is the first that is searched
  rw [Path.join_of_spellFolder folder isName_manifestName] at file ⊢
  rw [Workspace.manifestAbove?,
    Path.ancestors_ofNames_concat folder.1 folder.1 isName_manifestName folder.2, List.tail_cons,
    first, List.map_cons, Path.join_of_spellFolder folder isName_manifestName,
    List.find?_cons_of_pos file]

end ScriptBundle
