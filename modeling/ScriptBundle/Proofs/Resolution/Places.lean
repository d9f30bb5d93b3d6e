import ScriptBundle.Proofs.Resolution.Found

/-! # Places of a tree

A file tree is finite, and so are the files a search can return from it: whatever the specifier is
and whichever folder it is asked from, the parts of what is found are in one list that is made from
the tree and the extensions alone. An extension may hold slashes, so that what is behind the first
of them leads on from a place of the tree.

* **`FileTree.places`** — the places of the files and folders of a tree; `mem_places_of_find` says
  that a path made of names leads to none but these;
* **`FileTree.locations`** — the parts of what a search may return, and `FileTree.reachable` — the
  same with those of the manifests above;
* **`mem_locations_of_resolve`, `mem_reachable_of_manifestAbove?`** — whatever is found is listed.
  -/

namespace ScriptBundle

/-- **The parts behind the first slash** of a text. -/
def Part.behindSlash (e : String) : List Part :=
  (e.toList.splitOn '/').tail.filterMap Part.ofPiece?

namespace FileTree

/-- **The places of a `tree`**: those of its files and folders, and of the folders these are in. -/
def places (tree : FileTree) : List Place :=
  (tree.files.map (·.1) ++ tree.folders).flatMap List.inits

/-- **The `parts` of what a search may return.** Behind the root a whole extension counts, behind
another place what follows its first slash. -/
def locations (tree : FileTree) (extensions : List String) : List (List Part) :=
  ("" :: extensions).flatMap fun e =>
    (Path.mk ("/" ++ e)).parts ::
      tree.places.map fun place => .root :: place.map .name ++ Part.behindSlash e

/-- **The `parts` of what a search may return**, and of the manifests above. -/
def reachable (tree : FileTree) (extensions : List String) : List (List Part) :=
  (tree.locations extensions).flatMap fun parts =>
    parts :: parts.inits.map fun folder => folder ++ [.name Package.manifestName]

variable {tree : FileTree} {extensions : List String} {place : Place} {names : List String}
  {s e : String} {spot : Spot}

/-! ## Following names -/

/-- The `place` of a file is a place of the tree. -/
theorem mem_places_of_content? {content : Content} (h : tree.content? place = some content) :
    place ∈ tree.places := by
  obtain ⟨front, back, listed, -⟩ := List.lookup_eq_some_iff.mp h
  refine List.mem_flatMap.mpr ⟨place, List.mem_append_left _ ?_, ?_⟩
  · exact List.mem_map.mpr ⟨(place, content), by simp [listed], rfl⟩
  · exact (List.mem_inits ..).mpr List.prefix_rfl

/-- A folder other than the root is a `place` of the tree. -/
theorem mem_places_of_hasFolder (some_name : place ≠ []) (h : tree.hasFolder place = true) :
    place ∈ tree.places := by
  rw [hasFolder, Bool.or_eq_true, Bool.or_eq_true, List.any_eq_true, List.any_eq_true] at h
  rcases h with (root | ⟨folder, listed, leads⟩) | ⟨file, listed, leads⟩
  · exact absurd (List.isEmpty_iff.mp root) some_name
  · refine List.mem_flatMap.mpr ⟨folder, List.mem_append_right _ listed, ?_⟩
    exact (List.mem_inits ..).mpr (List.isPrefixOf_iff_prefix.mp leads)
  · refine List.mem_flatMap.mpr ⟨file.1, List.mem_append_left _ (List.mem_map_of_mem listed), ?_⟩
    have inner : place <+: file.1 :=
      List.isPrefixOf_iff_prefix.mp ((Bool.and_eq_true ..).mp leads).1
    exact (List.mem_inits ..).mpr inner

/-- **A step along a name** leads to a `place` of the tree, one name further. -/
theorem step_name (hs : Part.IsName s) (h : tree.step (.folder place) s.toList = .ok spot) :
    place ++ [s] ∈ tree.places ∧
      ((∃ content, spot = .file (place ++ [s]) content) ∨ spot = .folder (place ++ [s])) := by
  rw [step, hs.ofPiece?_toList] at h
  dsimp only at h
  split at h
  · simp at h
  · split at h
    · rename_i content found
      exact ⟨mem_places_of_content? found, .inl ⟨content, (Except.ok.inj h).symm⟩⟩
    · split at h
      · rename_i found
        exact ⟨mem_places_of_hasFolder (by simp) found, .inr (Except.ok.inj h).symm⟩
      · simp at h

/-- What comes first in a chain that succeeds has succeeded. -/
theorem exists_ok_of_bind {α β : Type} {first : Except AccessError α}
    {further : α → Except AccessError β} {result : β} (h : first >>= further = .ok result) :
    ∃ between, first = .ok between ∧ further between = .ok result := by
  cases first with
  | error cause => simp [bind, Except.bind] at h
  | ok between => exact ⟨between, rfl, h⟩

/-- There is no way on from a file. -/
theorem foldlM_step_file {content : Content} {pieces : List (List Char)}
    (h : pieces.foldlM tree.step (.file place content) = .ok spot) : pieces = [] := by
  cases pieces with
  | nil => rfl
  | cons piece rest => simp [FileTree.step, bind, Except.bind] at h

/-- **Following names from a folder** leads one name further with each of them. -/
theorem foldlM_step_names (hs : ∀ q ∈ names ++ [s], Part.IsName q)
    (h : ((names ++ [s]).map String.toList).foldlM tree.step (.folder place) = .ok spot) :
    place ++ names ++ [s] ∈ tree.places := by
  -- on the names; only the last of them may lead to a file
  induction names generalizing place with
  | nil =>
      rw [List.nil_append, List.map_singleton, List.foldlM_cons] at h
      obtain ⟨between, first, -⟩ := exists_ok_of_bind h
      rw [List.append_nil]
      exact (step_name (hs s (by simp)) first).1
  | cons t rest ih =>
      have later : ∀ q ∈ rest ++ [s], Part.IsName q := fun q hq => hs q (List.mem_cons_of_mem _ hq)
      rw [List.cons_append, List.map_cons, List.foldlM_cons] at h
      obtain ⟨between, first, further⟩ := exists_ok_of_bind h
      obtain ⟨-, ⟨content, rfl⟩ | rfl⟩ := step_name (hs t (by simp)) first
      · have nothing := foldlM_step_file further
        simp at nothing
      · have inner := ih later further
        rwa [List.append_assoc place [t] rest, List.singleton_append] at inner

end FileTree

/-! ## Candidates -/

section Candidates

open FileTree

variable {w : Workspace} {extensions names : List String} {folder p q a : Path} {specifier s e : String}

/-- **What is tried and is a file** is listed. -/
theorem mem_locations_of_isCandidate (file : w.isFile q = true) (h : IsCandidate extensions q) :
    q.parts ∈ w.tree.locations extensions := by
  -- a path without an extension has the empty text behind it
  obtain ⟨names, hs, e, he, rfl⟩ : ∃ names, (∀ s ∈ names, Part.IsName s) ∧
      ∃ e ∈ "" :: extensions, q = (Path.ofNames names).append e := by
    obtain ⟨p, ⟨names, hs, rfl⟩, rfl | ⟨e, he, rfl⟩⟩ := h
    · exact ⟨names, hs, "", List.mem_cons_self, by simp [Path.append]⟩
    · exact ⟨names, hs, e, List.mem_cons_of_mem _ he, rfl⟩
  refine List.mem_flatMap.mpr ⟨e, he, ?_⟩
  rcases List.eq_nil_or_concat' names with rfl | ⟨front, s, rfl⟩
  · have spelled : (Path.ofNames []).append e = ⟨"/" ++ e⟩ := by
      simp [Path.append, Path.text_ofNames]
    rw [spelled]
    exact List.mem_cons_self
  · obtain ⟨t, ht, pieces⟩ := Path.pieces_append_ofNames hs e
    have rooted : ((Path.ofNames (front ++ [s])).append e).isAbsolute = true :=
      Path.isAbsolute_append e (Path.isAbsolute_ofNames _)
    have named : ∀ q ∈ front ++ [t], Part.IsName q := by
      intro q hq
      rcases List.mem_append.mp hq with inner | last
      · exact hs q (List.mem_append_left _ inner)
      · exact List.mem_singleton.mp last ▸ ht
    -- the names lead to a place of the tree, whatever comes behind them
    obtain ⟨place, content, found⟩ := exists_of_isFile file
    have walked := foldlM_of_find found
    rw [rooted, if_pos rfl, pieces, List.foldlM_append, List.foldlM_cons] at walked
    obtain ⟨between, led, -⟩ := exists_ok_of_bind walked
    have first : w.tree.step (.folder []) [] = .ok (.folder []) := by simp [FileTree.step]
    rw [first] at led
    have reached := foldlM_step_names named led
    refine List.mem_cons_of_mem _ (List.mem_map.mpr ⟨[] ++ front ++ [t], reached, ?_⟩)
    have read : ((front ++ [t]).map String.toList).filterMap Part.ofPiece? =
        (front ++ [t]).map Part.name := by
      rw [List.filterMap_map, ← List.filterMap_eq_map]
      exact List.filterMap_congr fun q hq => (named q hq).ofPiece?_toList
    rw [Path.parts, rooted, if_pos rfl, pieces, List.filterMap_append, ← Part.behindSlash,
      List.filterMap_cons, Part.ofPiece?_nil, read]
    rfl

/-- **Whatever is found is listed**, for every `specifier` and every folder it is asked from. -/
theorem mem_locations_of_resolve (h : resolve w extensions specifier folder = .ok (.file q)) :
    q.parts ∈ w.tree.locations extensions := by
  obtain ⟨file, candidate⟩ := isCandidate_of_resolve h
  exact mem_locations_of_isCandidate file candidate

/-- What a search may return is listed with the manifests. -/
theorem mem_reachable_of_mem_locations (h : q.parts ∈ w.tree.locations extensions) :
    q.parts ∈ w.tree.reachable extensions :=
  List.mem_flatMap.mpr ⟨q.parts, h, List.mem_cons_self⟩

/-- **The nearest manifest above** what a search may return is listed. -/
theorem mem_reachable_of_manifestAbove? (rooted : q.isAbsolute = true)
    (listed : q.parts ∈ w.tree.locations extensions) (h : w.manifestAbove? q = some a) :
    a.parts ∈ w.tree.reachable extensions := by
  obtain ⟨folder, above, rfl⟩ := List.mem_map.mp (List.mem_of_find?_eq_some h)
  have inner : folder ∈ q.ancestors := List.mem_of_mem_tail above
  have read : (Path.mk Package.manifestName).pieces.filterMap Part.ofPiece? =
      [.name Package.manifestName] := by
    decide +kernel
  refine List.mem_flatMap.mpr ⟨q.parts, listed, List.mem_cons_of_mem _ (List.mem_map.mpr ?_)⟩
  refine ⟨folder.parts, (List.mem_inits ..).mpr (Path.parts_prefix_of_mem_ancestors rooted inner), ?_⟩
  rw [Path.parts_join (Path.isAbsolute_of_mem_ancestors rooted inner)
    (Path.isAbsolute_of_isName isName_manifestName), read]

end Candidates

end ScriptBundle
