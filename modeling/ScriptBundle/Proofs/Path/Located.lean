import ScriptBundle.Proofs.Path.Identity

/-! # Locations from identities

An identity is the way from a folder to a file, and the way can be walked: joined to the folder and
folded, it is the file again. This asks that neither path is itself spelled with steps up, which is
what a path that is compared with its normal form by its parts comes to.

* **`Identity.way`** — an identity without the slash in front;
* **`Path.normalize_join_relative`** — the way from a folder to a file leads to the file;
* **`Path.exists_parent?`** — the folder of a path with a last name, however the path is spelled;
* **`identities_determine_locations`** — identities and locations determine each other. -/

namespace ScriptBundle

namespace Path

variable {p q base location : Path} {s : String}

/-! ## Walking the way -/

/-- **The way from a folder to a file leads to the file**, from a folder that is spelled without steps
up. -/
theorem normalize_join_relative (rooted : base.isAbsolute = true) (level : Part.up ∉ base.parts)
    (far : location.isAbsolute = true) :
    (base.join (relative base location)).normalize = location.normalize := by
  have below := areBelow_wayParts rooted far
  rw [relative_eq_ofParts rooted far, normalize, normalize, normalParts, normalParts,
    parts_join rooted (isAbsolute_ofParts below), filterMap_pieces_ofParts below,
    foldl_parts_append_wayParts rooted level far]

/-- **Different files are not reached in the same way** from one folder. -/
theorem IsReduced.parts_eq_of_relative_eq (rooted : base.isAbsolute = true) (hp : p.IsReduced)
    (hq : q.IsReduced) (same : relative base p = relative base q) : p.parts = q.parts := by
  rw [relative_eq_ofParts rooted hp.isAbsolute, relative_eq_ofParts rooted hq.isAbsolute] at same
  refine parts_eq_of_wayParts_eq (fun up => ?_) (fun up => ?_)
    (ofParts_injective (areBelow_wayParts rooted hp.isAbsolute)
      (areBelow_wayParts rooted hq.isAbsolute) same)
  · exact hp.up_notMem_parts (List.mem_of_mem_drop up)
  · exact hq.up_notMem_parts (List.mem_of_mem_drop up)

/-! ## The folder of a path -/

/-- The pieces that are dropped on the way up stand for no part. -/
theorem filterMap_dropIdle (reversed : List (List Char)) :
    (dropIdle true reversed).filterMap Part.ofPiece? = reversed.filterMap Part.ofPiece? := by
  induction reversed with
  | nil => rfl
  | cons piece rest ih =>
      rw [dropIdle]
      split
      · rename_i idle
        have none : Part.ofPiece? piece = none := by
          rcases idle with rfl | ⟨rfl, -⟩
          · exact Part.ofPiece?_nil
          · exact Part.ofPiece?_dot
        rw [ih, List.filterMap_cons_none none]
      · rfl

/-- A piece that is not dropped stands for a `part`. -/
theorem exists_ofPiece?_of_dropIdle {reversed rest : List (List Char)} {piece : List Char}
    (h : dropIdle true reversed = piece :: rest) : ∃ part, Part.ofPiece? piece = some part := by
  have kept := h ▸ dropIdle_dropIdle true reversed
  by_cases idle : piece = [] ∨ piece = ['.']
  · -- it would have been dropped, with all that is shorter behind it
    have short := length_dropIdle_le true rest
    rw [dropIdle, if_pos (by simpa using idle)] at kept
    rw [kept, List.length_cons] at short
    omega
  · rw [Part.ofPiece?, if_neg idle]
    split
    · exact ⟨_, rfl⟩
    · exact ⟨_, rfl⟩

/-- **The folder of a path that ends in a name** has its `parts` but the last, however the path is
spelled. -/
theorem exists_parent? (rooted : p.isAbsolute = true) (named : p.fileName? = some s) :
    ∃ folder, p.parent? = some folder ∧ folder.isAbsolute = true ∧
      p.parts = folder.parts ++ [.name s] := by
  have last : p.parts.getLast? = some (.name s) := by
    unfold fileName? at named
    split at named
    · simpa [← Option.some.inj named] using ‹p.parts.getLast? = _›
    · exact absurd named (by simp)
  have whole : p.parts =
      .root :: ((dropIdle true p.pieces.tail.reverse).filterMap Part.ofPiece?).reverse := by
    rw [filterMap_dropIdle, ← List.filterMap_reverse, List.reverse_reverse, parts_of_isAbsolute rooted]
  cases kept : dropIdle true p.pieces.tail.reverse with
  | nil =>
      rw [whole, kept] at last
      exact absurd last (by simp)
  | cons piece rest =>
      obtain ⟨part, read⟩ := exists_ofPiece?_of_dropIdle kept
      -- the folder is spelled by the pieces in front of the name, without idle ones at their end
      have first : p.parent? =
          some (ofNames ((dropIdle true rest).reverse.map String.ofList)) := by
        rw [parent?, ancestors, rooted, if_pos rfl, if_pos rfl, ascend_of_dropIdle kept,
          ← mk_intercalate]
        simp [Function.comp_def]
      have free : ∀ q ∈ (dropIdle true rest).reverse.map String.ofList, '/' ∉ q.toList := by
        intro q hq
        obtain ⟨piece', hpiece', rfl⟩ := List.mem_map.mp hq
        have among : piece' ∈ p.pieces.tail.reverse :=
          (dropIdle_suffix true _).subset (kept ▸ List.mem_cons_of_mem _
            ((dropIdle_suffix true rest).subset (List.mem_reverse.mp hpiece')))
        simpa using notMem_of_mem_splitOn (List.mem_of_mem_tail (List.mem_reverse.mp among))
      refine ⟨_, first, isAbsolute_ofNames _, ?_⟩
      have parts_folder : (ofNames ((dropIdle true rest).reverse.map String.ofList)).parts =
          .root :: (rest.filterMap Part.ofPiece?).reverse := by
        rw [parts_ofNames_of_free free, List.map_map, ← filterMap_dropIdle rest,
          ← List.filterMap_reverse]
        simp [Function.comp_def]
      rw [whole, kept, List.filterMap_cons_some read, List.reverse_cons] at last ⊢
      rw [← List.cons_append, List.getLast?_concat] at last
      rw [parts_folder, Option.some.inj last, List.cons_append]

end Path

namespace Identity

variable {base location entry p q : Path} {name : String}

/-! ## Identities -/

/-- **The way an `identity` spells**: its text without the slash in front. -/
def way (identity : Identity) : Path := ⟨String.ofList identity.text.toList.tail⟩

/-- An identity is a slash and its way. -/
theorem text_ofLocation (base location : Path) :
    (ofLocation base location).text = "/" ++ (ofLocation base location).way.text := by
  simp [ofLocation, way]

/-- The `way` of an identity is the relative path it was made of. -/
@[simp] theorem way_ofLocation (base location : Path) :
    (ofLocation base location).way = Path.relative base location := by
  simp [ofLocation, way]

/-- **The way of an identity leads to its file.** -/
theorem normalize_join_way (hb : base.IsReduced) (hl : location.IsReduced) :
    (base.join (ofLocation base location).way).normalize = location.normalize := by
  rw [way_ofLocation]
  exact Path.normalize_join_relative hb.isAbsolute hb.up_notMem_parts hl.isAbsolute

/-- **Files with the same identity are the same.** -/
theorem parts_eq_of_ofLocation_eq (rooted : base.isAbsolute = true) (hp : p.IsReduced)
    (hq : q.IsReduced) (same : ofLocation base p = ofLocation base q) : p.parts = q.parts := by
  have ways := congrArg way same
  rw [way_ofLocation, way_ofLocation] at ways
  exact hp.parts_eq_of_relative_eq rooted hq ways

/-- **The identity of an `entry` script** is the one it has as a file, seen from its folder. -/
theorem exists_ofEntry_eq (rooted : entry.isAbsolute = true) (named : entry.fileName? = some name) :
    ∃ folder, entry.parent? = some folder ∧ ofEntry entry = ofLocation folder entry := by
  obtain ⟨folder, above, far, whole⟩ := Path.exists_parent? rooted named
  refine ⟨folder, above, ?_⟩
  rw [ofEntry, ofLocation, Path.relative_of_parts_append far whole, named, Option.getD_some]

end Identity

/-- **Identities and locations determine each other.** From a folder that is absolute and lexically
normal, the identity of a file leads back to the file, so different files have different identities.
The identity of an `entry` script is the one of its file, seen from its folder. Paths are compared by
their parts; where they are normal spellings themselves, they are the same texts. -/
theorem identities_determine_locations :
    (∀ base location : Path, base.IsReduced → location.IsReduced →
      (Identity.ofLocation base location).text =
          "/" ++ (Identity.ofLocation base location).way.text ∧
        (base.join (Identity.ofLocation base location).way).normalize.parts = location.parts ∧
        (location.normalize = location →
          (base.join (Identity.ofLocation base location).way).normalize = location)) ∧
      (∀ base p q : Path, base.IsReduced → p.IsReduced → q.IsReduced →
        Identity.ofLocation base p = Identity.ofLocation base q →
        p.parts = q.parts ∧ (p.normalize = p → q.normalize = q → p = q)) ∧
      ∀ (entry : Path) (name : String), entry.IsReduced → entry.fileName? = some name →
        ∃ folder, entry.parent? = some folder ∧
          Identity.ofEntry entry = Identity.ofLocation folder entry := by
  refine ⟨fun base location hb hl => ?_, fun base p q hb hp hq same => ?_,
    fun entry name reduced named => Identity.exists_ofEntry_eq reduced.isAbsolute named⟩
  · have back := Identity.normalize_join_way hb hl
    refine ⟨Identity.text_ofLocation base location, ?_, fun normal => back.trans normal⟩
    rw [back, hl.parts_normalize]
  · have parts := Identity.parts_eq_of_ofLocation_eq hb.isAbsolute hp hq same
    refine ⟨parts, fun hp' hq' => ?_⟩
    -- the normal form is made of the parts
    rw [← hp', ← hq', Path.normalize, Path.normalize, parts]

/-- A file beside the folder: the way goes up from it, and leads back. -/
theorem identities_determine_locations_beside :
    (Path.mk "/a/b").IsReduced ∧ (Path.mk "/a/c.js").IsReduced ∧
      (Identity.ofLocation ⟨"/a/b"⟩ ⟨"/a/c.js"⟩).text = "/../c.js" ∧
      ((Path.mk "/a/b").join (Identity.ofLocation ⟨"/a/b"⟩ ⟨"/a/c.js"⟩).way).normalize =
        ⟨"/a/c.js"⟩ ∧
      ∃ folder, (Path.mk "/a/c.js").parent? = some folder ∧
        Identity.ofEntry ⟨"/a/c.js"⟩ = Identity.ofLocation folder ⟨"/a/c.js"⟩ := by
  obtain ⟨back, -, entries⟩ := identities_determine_locations
  have hb : (Path.mk "/a/b").IsReduced := ⟨by decide, by decide⟩
  have hl : (Path.mk "/a/c.js").IsReduced := ⟨by decide, by decide⟩
  obtain ⟨-, -, same⟩ := back _ _ hb hl
  exact ⟨hb, hl, by decide, same (by decide), entries _ "c.js" hl (by decide)⟩

end ScriptBundle
