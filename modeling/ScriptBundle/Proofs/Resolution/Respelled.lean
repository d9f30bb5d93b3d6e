import ScriptBundle.Proofs.Path.Idle
import ScriptBundle.Proofs.Resolution.Canonical

/-! # Paths in their normal form

A path that is spelled without steps up may hold idle pieces, which its normal form does not. They lead
nowhere, so the normal form leads to the same place; and it is no longer than the path, so that it is
not too long where the path is not.

* **`Path.exists_texts_of_isAbsolute`** — an absolute path by the texts between its slashes;
* **`FileTree.foldlM_step_filterMap`** — pieces are followed by the names they stand for;
* **`find_normalize`** — the normal form of a path leads to what the path leads to. -/

namespace ScriptBundle

namespace Path

variable {p : Path} {names texts : List String}

/-- **An absolute path is spelled by `texts`**, empty ones included. -/
theorem exists_texts_of_isAbsolute (rooted : p.isAbsolute = true) :
    ∃ texts, texts ≠ [] ∧ p = ofNames texts ∧ p.pieces = [] :: texts.map String.toList := by
  obtain ⟨rest, spelled⟩ : ∃ rest, p.chars = '/' :: rest :=
    List.head?_eq_some_iff.mp (by simpa [isAbsolute] using rooted)
  have read : ((rest.splitOn '/').map String.ofList).map String.toList = rest.splitOn '/' := by
    simp [Function.comp_def]
  refine ⟨(rest.splitOn '/').map String.ofList, by simp, ?_, ?_⟩
  · rw [← mk_intercalate, read, List.intercalate_splitOn]
    have whole : p.text.toList = '/' :: rest := spelled
    refine congrArg Path.mk (String.toList_injective ?_)
    simp [whole]
  · rw [read, pieces, spelled]
    exact splitOn_append_slash [] rest

/-- The names some `texts` stand for are among the texts. -/
theorem sublist_of_filterMap (read : (texts.map String.toList).filterMap Part.ofPiece? =
    names.map .name) : names.Sublist texts := by
  induction texts generalizing names with
  | nil =>
      obtain rfl := List.map_eq_nil_iff.mp read.symm
      exact List.Sublist.refl []
  | cons t rest ih =>
      rw [List.map_cons] at read
      cases one : Part.ofPiece? t.toList with
      | none =>
          rw [List.filterMap_cons_none one] at read
          exact (ih read).cons t
      | some part =>
          rw [List.filterMap_cons_some one] at read
          obtain ⟨s, later, rfl, named, behind⟩ := List.map_eq_cons_iff.mp read.symm
          obtain rfl := String.toList_injective (Part.eq_toList_of_ofPiece? (named ▸ one))
          exact (ih behind.symm).cons_cons _

/-- Fewer `texts` take less room. -/
theorem spelledLength_le_of_sublist (h : names.Sublist texts) :
    spelledLength names ≤ spelledLength texts := by
  induction h with
  | slnil => exact Nat.le_refl 0
  | cons t _ ih => exact ih.trans (Nat.le_add_left ..)
  | cons_cons s _ ih => exact Nat.add_le_add_left ih _

end Path

namespace FileTree

variable {tree : FileTree} {start place : Place} {p : Path} {spot : Spot} {names : List String}
  {pieces : List (List Char)}

/-- **What a path leads to**, by the checks it passes and the `pieces` that are followed. -/
theorem find_eq_ok_iff : tree.find start p = .ok spot ↔
    '\x00' ∉ p.chars ∧ p.text ≠ "" ∧ p.text.utf8ByteSize ≤ 4095 ∧
      p.pieces.foldlM tree.step (.folder (if p.isAbsolute then [] else start)) = .ok spot := by
  rw [find, ← List.contains_iff_mem]
  split
  · simp_all
  · split
    · simp_all
    · split <;> rename_i size
      · simp [Nat.not_le.mpr size]
      · simp_all [Nat.not_lt.mp size]

/-- **Pieces are followed by the names they stand for**, as a folder stays where it is along the
others. -/
theorem foldlM_step_filterMap (read : pieces.filterMap Part.ofPiece? = names.map .name)
    (h : pieces.foldlM tree.step (.folder place) = .ok spot) :
    (names.map String.toList).foldlM tree.step (.folder place) = .ok spot := by
  induction pieces generalizing place names with
  | nil =>
      obtain rfl := List.map_eq_nil_iff.mp read.symm
      exact h
  | cons piece rest ih =>
      rw [List.foldlM_cons] at h
      obtain ⟨between, first, further⟩ := exists_ok_of_bind h
      cases one : Part.ofPiece? piece with
      | none =>
          rw [List.filterMap_cons_none one] at read
          have stays : between = .folder place := by
            simpa [step, one, eq_comm] using first
          exact ih read (stays ▸ further)
      | some part =>
          rw [List.filterMap_cons_some one] at read
          obtain ⟨s, later, rfl, named, behind⟩ := List.map_eq_cons_iff.mp read.symm
          obtain rfl := Part.eq_toList_of_ofPiece? (named ▸ one)
          rw [List.map_cons, List.foldlM_cons, first]
          cases between with
          | folder inner => exact ih behind.symm further
          | file inner content =>
              -- there is no way on from a file, so this was the last piece
              obtain rfl := foldlM_step_file further
              obtain rfl := List.map_eq_nil_iff.mp behind
              exact further

end FileTree

/-- **The normal form of a path** that is spelled without steps up leads to what the path leads to. -/
theorem find_normalize {w : Workspace} {p : Path} {spot : Spot} (reduced : p.IsReduced)
    (found : w.find p = .ok spot) : w.find p.normalize = .ok spot := by
  obtain ⟨names, named, normal⟩ := Path.isNormal_normalize reduced.isAbsolute
  obtain ⟨texts, some_text, spelled, cut⟩ := Path.exists_texts_of_isAbsolute reduced.isAbsolute
  obtain ⟨clean, -, short, walked⟩ := FileTree.find_eq_ok_iff.mp found
  have read : p.pieces.filterMap Part.ofPiece? = names.map .name := by
    have parts := reduced.parts_normalize
    rw [normal, Path.parts_ofNames named, Path.parts_eq_root_cons reduced.isAbsolute] at parts
    exact (List.cons.inj parts).2.symm
  rw [reduced.isAbsolute, if_pos rfl] at walked
  have followed := FileTree.foldlM_step_filterMap read walked
  have kept : names.Sublist texts :=
    Path.sublist_of_filterMap (by rwa [cut, List.filterMap_cons_none Part.ofPiece?_nil] at read)
  have written : (Path.ofNames names).text ≠ "" := by simp [Path.text_ofNames]
  rw [normal]
  refine FileTree.find_eq_ok_iff.mpr ⟨fun nul => clean ?_, written, ?_, ?_⟩
  · rw [spelled, Path.mem_chars_ofNames]
    refine (Path.mem_chars_ofNames.mp nul).imp_right fun ⟨s, hs, inner⟩ => ?_
    exact ⟨s, kept.subset hs, inner⟩
  · by_cases some_name : names = []
    · rw [some_name]
      decide
    · rw [Path.utf8ByteSize_ofNames some_name]
      rw [spelled, Path.utf8ByteSize_ofNames some_text] at short
      exact (Path.spelledLength_le_of_sublist kept).trans short
  · rw [Path.isAbsolute_ofNames, if_pos rfl]
    by_cases some_name : names = []
    · subst some_name
      rw [Path.pieces_ofNames_nil]
      exact followed
    · rw [Path.pieces_ofNames (fun s hs => (named s hs).slash_notMem) some_name]
      exact followed

end ScriptBundle
