import ScriptBundle.Proofs.Compiler.Dispatch
import ScriptBundle.Proofs.Compiler.Registered
import ScriptBundle.Proofs.Path.Located
import ScriptBundle.Proofs.Resolution.Places

/-! # Canonical locations

A location is compared with others by the parts of its path, so that one file should not be found
under two paths with different parts. What a search tries is a normal path, or one with an extension
behind it, and nothing is folded after that. An extension may hold slashes: then it may spell a step
up, and a file that is found by it has a second path.

* **`parts_eq_of_find`** — a path without steps up has the parts of the place it leads to;
* **`locations_are_canonical`** — what is found is reduced, and a file is found under one path only,
  unless an extension spells a step up. -/

namespace ScriptBundle

variable {e s specifier specifier' : String} {folder folder' t p q : Path} {names : List String}
  {w : Workspace} {extensions : List String} {compilers : List Compiler} {registry : Registry}
  {pieces : List (List Char)}

/-- What some pieces stand for, one after the other. -/
theorem Part.filterMap_ofPiece?_cons (piece : List Char) (rest : List (List Char)) :
    (piece :: rest).filterMap ofPiece? = (ofPiece? piece).toList ++ rest.filterMap ofPiece? := by
  cases read : ofPiece? piece with
  | none => rw [List.filterMap_cons_none read, Option.toList_none, List.nil_append]
  | some part => rw [List.filterMap_cons_some read, Option.toList_some, List.singleton_append]

/-- **No piece of a reduced path is a step up.** -/
theorem Path.IsReduced.dots_notMem_pieces (h : p.IsReduced) : ['.', '.'] ∉ p.pieces := by
  intro dots
  refine h.up_notMem_parts ?_
  rw [parts_eq_root_cons h.isAbsolute]
  exact List.mem_cons_of_mem _ (Part.up_mem_filterMap_iff.mpr dots)

/-! ## Following a path -/

/-- The `place` of what a path leads to. -/
def Spot.place : Spot → Place
  | .file place _ => place
  | .folder place => place

namespace FileTree

variable {tree : FileTree} {place : Place} {spot : Spot} {piece : List Char}

/-- A step other than up stays, or goes down by one name. -/
theorem place_of_step (level : piece ≠ ['.', '.'])
    (h : tree.step (.folder place) piece = .ok spot) :
    spot.place.map Part.name = place.map .name ++ (Part.ofPiece? piece).toList := by
  unfold step at h
  cases read : Part.ofPiece? piece with
  | none =>
      rw [read] at h
      rw [← Except.ok.inj h]
      simp [Spot.place]
  | some part =>
      obtain ⟨dots, -⟩ | rfl := Part.ofPiece?_eq_some read
      · exact absurd dots level
      · rw [read] at h
        dsimp only at h
        split at h
        · simp at h
        · split at h
          · rw [← Except.ok.inj h]
            simp [Spot.place]
          · split at h
            · rw [← Except.ok.inj h]
              simp [Spot.place]
            · simp at h

/-- **Pieces without a step up lead down** by the names they stand for. -/
theorem place_of_foldlM (level : ['.', '.'] ∉ pieces)
    (h : pieces.foldlM tree.step (.folder place) = .ok spot) :
    spot.place.map Part.name = place.map .name ++ pieces.filterMap Part.ofPiece? := by
  induction pieces generalizing place with
  | nil =>
      rw [← Except.ok.inj h]
      simp [Spot.place]
  | cons piece rest ih =>
      have here : piece ≠ ['.', '.'] := fun up => level (up ▸ List.mem_cons_self)
      have later : ['.', '.'] ∉ rest := fun up => level (List.mem_cons_of_mem _ up)
      rw [List.foldlM_cons] at h
      obtain ⟨between, first, further⟩ := exists_ok_of_bind h
      have down := place_of_step here first
      rw [Part.filterMap_ofPiece?_cons, ← List.append_assoc, ← down]
      cases between with
      | file inner content =>
          -- there is no way on from a file
          obtain rfl := foldlM_step_file further
          rw [← Except.ok.inj further]
          simp
      | folder inner => exact ih later further

end FileTree

/-- **A path without steps up has the `parts` of the place it leads to.** -/
theorem parts_eq_of_find {spot : Spot} (reduced : p.IsReduced) (found : w.find p = .ok spot) :
    p.parts = .root :: spot.place.map .name := by
  have walked := foldlM_of_find found
  rw [reduced.isAbsolute, if_pos rfl] at walked
  rw [Path.parts_eq_root_cons reduced.isAbsolute,
    FileTree.place_of_foldlM reduced.dots_notMem_pieces walked, List.map_nil, List.nil_append]

/-- **Reduced paths that lead to one `place`** have the same parts. -/
theorem parts_eq_of_find_eq {place : Place} {content : Content} (hp : p.IsReduced) (hq : q.IsReduced)
    (found : w.find p = .ok (.file place content)) (same : w.find q = w.find p) :
    q.parts = p.parts := by
  rw [parts_eq_of_find hp found, parts_eq_of_find hq (same.trans found)]

/-! ## Locations -/

/-- An extension a search tries is one of the host's, or was registered. -/
theorem mem_resolutionExtensions (registered : Bundle.registerAll .initial compilers = .ok registry)
    (he : e ∈ registry.resolutionExtensions) :
    e ∈ hostExtensions ∨ ∃ compiler ∈ compilers, e ∈ compiler.extensions := by
  have told : registry.Holds fun e _ =>
      e ∈ hostExtensions ∨ ∃ compiler ∈ compilers, e ∈ compiler.extensions := by
    refine Bundle.holds_registerAll ?_ (fun compiler mem e he => .inr ⟨compiler, mem, he⟩) registered
    intro entry hentry
    rw [List.mem_singleton.mp hentry]
    exact .inl (by decide)
  exact told.resolutionExtensions (fun _ host => .inl host) e he

/-- **A file is found canonically**, or by a registered extension that holds a slash. -/
theorem isNormal_or_exists_of_resolve (registered : Bundle.registerAll .initial compilers = .ok registry)
    (found : resolve w registry.resolutionExtensions specifier folder = .ok (.file p)) :
    p.IsNormal ∨ ∃ (t : Path) (e : String), t.IsNormal ∧ p = t.append e ∧
      (∃ compiler ∈ compilers, e ∈ compiler.extensions) ∧ '/' ∈ e.toList := by
  obtain ⟨file, t, normal, rfl | ⟨e, he, rfl⟩⟩ := isCandidate_of_resolve found
  · exact .inl normal
  · by_cases slash : '/' ∈ e.toList
    · rcases mem_resolutionExtensions registered he with host | own
      · have free : ∀ e ∈ hostExtensions, '/' ∉ e.toList := by decide
        exact absurd slash (free e host)
      · exact .inr ⟨t, e, normal, rfl, own, slash⟩
    · exact .inl (isNormal_append normal (fun h => absurd h slash) file)

/-- **Found locations are canonical.** What a search finds is absolute and a regular file. It is
reduced, that is without steps up, unless it was found by a registered extension that spells a step up;
and it is its own normal form, unless that extension spells something else than names. A file of the
tree is found under one path only, whichever `specifier` it is found by and wherever this stands, as
far as the paths are reduced. -/
theorem locations_are_canonical (registered : Bundle.registerAll .initial compilers = .ok registry)
    (found : resolve w registry.resolutionExtensions specifier folder = .ok (.file p)) :
    p.isAbsolute = true ∧ w.isFile p = true ∧
      (p.IsReduced ∨ ∃ (t : Path) (e : String), t.IsNormal ∧ p = t.append e ∧
        (∃ compiler ∈ compilers, e ∈ compiler.extensions) ∧ ¬IsLevelExtension e) ∧
      (p.normalize = p ∨ ∃ (t : Path) (e : String), t.IsNormal ∧ p = t.append e ∧
        (∃ compiler ∈ compilers, e ∈ compiler.extensions) ∧ ¬IsNamedExtension e) ∧
      ∀ specifier' folder' q,
        resolve w registry.resolutionExtensions specifier' folder' = .ok (.file q) →
        w.find q = w.find p → p.IsReduced → q.IsReduced →
        q.parts = p.parts ∧ (p.normalize = p → q.normalize = q → q = p) := by
  obtain ⟨file, candidate⟩ := isCandidate_of_resolve found
  refine ⟨candidate.isAbsolute, file, ?_, ?_, ?_⟩
  · obtain normal | ⟨t, e, normal, rfl, own, -⟩ := isNormal_or_exists_of_resolve registered found
    · exact .inl normal.isReduced
    · by_cases level : IsLevelExtension e
      · exact .inl (isReduced_append normal level file)
      · exact .inr ⟨t, e, normal, rfl, own, level⟩
  · obtain normal | ⟨t, e, normal, rfl, own, -⟩ := isNormal_or_exists_of_resolve registered found
    · exact .inl (Path.isNormal_iff.mp normal).2
    · by_cases named : IsNamedExtension e
      · exact .inl (Path.isNormal_iff.mp (isNormal_append normal named file)).2
      · exact .inr ⟨t, e, normal, rfl, own, named⟩
  · intro specifier' folder' q _ same hp hq
    obtain ⟨place, content, leads⟩ := exists_of_isFile file
    have parts := parts_eq_of_find_eq hp hq leads same
    refine ⟨parts, fun hp' hq' => ?_⟩
    rw [← hp', ← hq', Path.normalize, Path.normalize, parts]

/-! ## Extensions that spell a folder -/

/-- Scripts in the folders `a` and `a/x.d`. -/
def nestedScripts : Workspace :=
  ⟨⟨[(["a", "x.d", "k.js"], .text ""), (["a", "q.js"], .text "")], []⟩, []⟩

/-- **An extension that spells a name more**: the file is found canonically, also from elsewhere. -/
theorem locations_are_canonical_named :
    Bundle.registerAll .initial [constantCompiler ".d/k.js" ""] = .ok (registryFor ".d/k.js" "") ∧
      resolve nestedScripts (registryFor ".d/k.js" "").resolutionExtensions "./a/x" ⟨"/"⟩ =
        .ok (.file ⟨"/a/x.d/k.js"⟩) ∧
      resolve nestedScripts (registryFor ".d/k.js" "").resolutionExtensions "../a/x.d/k" ⟨"/c"⟩ =
        .ok (.file ⟨"/a/x.d/k.js"⟩) ∧
      nestedScripts.isFile ⟨"/a/x.d/k.js"⟩ = true ∧ (Path.mk "/a/x.d/k.js").IsReduced ∧
      (Path.mk "/a/x.d/k.js").normalize = ⟨"/a/x.d/k.js"⟩ := by
  have registered : Bundle.registerAll .initial [constantCompiler ".d/k.js" ""] =
      .ok (registryFor ".d/k.js" "") := rfl
  have found : resolve nestedScripts (registryFor ".d/k.js" "").resolutionExtensions "./a/x" ⟨"/"⟩ =
      .ok (.file ⟨"/a/x.d/k.js"⟩) := by decide +kernel
  have other : resolve nestedScripts (registryFor ".d/k.js" "").resolutionExtensions "../a/x.d/k"
      ⟨"/c"⟩ = .ok (.file ⟨"/a/x.d/k.js"⟩) := by decide +kernel
  -- the only extension that is registered spells names
  have level : IsLevelExtension ".d/k.js" := by decide
  have named : IsNamedExtension ".d/k.js" := by decide
  have only : ∀ e, (∃ compiler ∈ [constantCompiler ".d/k.js" ""], e ∈ compiler.extensions) →
      e = ".d/k.js" := by
    rintro e ⟨compiler, mem, own⟩
    rw [List.mem_singleton.mp mem] at own
    exact List.mem_singleton.mp own
  obtain ⟨-, file, reduced, normal, -⟩ := locations_are_canonical registered found
  refine ⟨registered, found, other, file, reduced.resolve_right ?_, normal.resolve_right ?_⟩
  · rintro ⟨t, e, -, -, own, up⟩
    exact up (only e own ▸ level)
  · rintro ⟨t, e, -, -, own, unnamed⟩
    exact unnamed (only e own ▸ named)

/-- **An extension that spells a step up**: the file is found by a path that is not normal, and by a
second one. -/
theorem locations_are_not_canonical :
    Bundle.registerAll .initial [constantCompiler ".d/../q.js" ""] =
        .ok (registryFor ".d/../q.js" "") ∧
      resolve nestedScripts (registryFor ".d/../q.js" "").resolutionExtensions "./a/x" ⟨"/"⟩ =
        .ok (.file ⟨"/a/x.d/../q.js"⟩) ∧
      (Path.mk "/a/x.d/../q.js").normalize.parts ≠ (Path.mk "/a/x.d/../q.js").parts ∧
      resolve nestedScripts (registryFor ".d/../q.js" "").resolutionExtensions "./a/q" ⟨"/"⟩ =
        .ok (.file ⟨"/a/q.js"⟩) ∧
      nestedScripts.find ⟨"/a/q.js"⟩ = nestedScripts.find ⟨"/a/x.d/../q.js"⟩ ∧
      (Path.mk "/a/q.js").parts ≠ (Path.mk "/a/x.d/../q.js").parts := by
  refine ⟨rfl, ?_, ?_, ?_, ?_, ?_⟩ <;> decide +kernel

end ScriptBundle
