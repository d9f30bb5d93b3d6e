import ScriptBundle.Proofs.Path.Folders
import ScriptBundle.Proofs.Path.Joining

/-! # Reduced and tight paths

A normal path is spelled by names alone. Two weaker notions do where a path is only compared with
others:

* **`Path.IsReduced`** — spelled without steps up, so that the path has the parts of its normal form;
* **`Path.IsTight`** — spelled without idle pieces, so that the path is told by its parts.

Both are passed on from a path to the folders above it and from a folder to its entries
(`IsReduced.of_mem_ancestors`, `IsTight.join`), and `isNormal_iff`, `isReduced_iff` say what they are in
terms of `Path.normalize` and of the parts. -/

namespace ScriptBundle

namespace Part

variable {s : String}

/-- **A text that spells a part**: it is not idle, and holds no slash. Such are the names and `..`. -/
def IsText (s : String) : Prop := s ≠ "" ∧ s ≠ "." ∧ '/' ∉ s.toList

/-- A name spells a part. -/
theorem IsName.isText (h : IsName s) : IsText s := ⟨h.1, h.2.1, h.2.2.2⟩

/-- A text that spells a part is not cut by a slash. -/
theorem IsText.slash_notMem (h : IsText s) : '/' ∉ s.toList := h.2.2

/-- **A text that spells a `part`** is read as that part, and is its spelling. -/
theorem IsText.exists_ofPiece? (h : IsText s) :
    ∃ part, ofPiece? s.toList = some part ∧ part.text = s := by
  obtain ⟨some_char, no_dot, -⟩ := h
  have busy : ¬(s.toList = [] ∨ s.toList = ['.']) := by
    rintro (nothing | dot)
    · exact some_char (by simpa using nothing)
    · exact no_dot (by rw [← String.ofList_toList (s := s), dot])
  rw [ofPiece?, if_neg busy]
  split
  · rename_i dots
    exact ⟨up, rfl, by rw [← String.ofList_toList (s := s), dots]; rfl⟩
  · exact ⟨_, rfl, String.ofList_toList⟩

end Part

namespace Path

variable {p q : Path} {names : List String} {s : String}

/-! ## Reduced paths -/

/-- A normal path is spelled without steps up. -/
theorem IsNormal.up_notMem_parts (h : p.IsNormal) : Part.up ∉ p.parts := by
  obtain ⟨names, named, rfl⟩ := h
  rw [parts_ofNames named]
  simp

/-- The `parts` of an absolute path are the root and what its pieces stand for. -/
theorem parts_eq_root_cons (rooted : p.isAbsolute = true) :
    p.parts = .root :: p.pieces.filterMap Part.ofPiece? := by
  rw [parts, if_pos rooted]

/-- An absolute path spelled without steps up is spelled by texts alone, behind the root. -/
theorem exists_parts_of_level (rooted : p.isAbsolute = true) (level : Part.up ∉ p.parts) :
    ∃ names : List String, p.parts = .root :: names.map .name := by
  obtain ⟨rest, whole, below⟩ := exists_parts_of_isAbsolute rooted
  refine ⟨rest.map Part.text, ?_⟩
  rw [whole, List.map_map]
  congr 1
  refine (List.map_id rest).symm.trans (List.map_congr_left fun part hpart => ?_)
  rcases below part hpart with rfl | ⟨s, -, rfl⟩
  · exact absurd (whole ▸ List.mem_cons_of_mem _ hpart) level
  · rfl

/-- **An absolute path that is in normal form by its `parts`.** Its spelling may hold idle pieces. -/
structure IsReduced (p : Path) : Prop where
  /-- It starts at the root. -/
  isAbsolute : p.isAbsolute = true
  /-- Its normal form has the same parts. -/
  parts_normalize : p.normalize.parts = p.parts

/-- **A path is a normal spelling** exactly if it is absolute and its own normal form. -/
theorem isNormal_iff : p.IsNormal ↔ p.isAbsolute = true ∧ p.normalize = p := by
  constructor
  · rintro ⟨names, named, rfl⟩
    refine ⟨isAbsolute_ofNames names, ?_⟩
    rw [normalize, normalParts, foldl_parts_ofNames named, ofNames]
    simp
  · rintro ⟨rooted, same⟩
    exact same ▸ isNormal_normalize rooted

/-- A normal spelling is reduced: `IsNormal` asks for one text, `IsReduced` for its parts. -/
theorem IsNormal.isReduced (h : p.IsNormal) : p.IsReduced := by
  obtain ⟨rooted, same⟩ := isNormal_iff.mp h
  exact ⟨rooted, congrArg parts same⟩

/-- **An absolute path is reduced** exactly if it is spelled without steps up. -/
theorem isReduced_iff : p.IsReduced ↔ p.isAbsolute = true ∧ Part.up ∉ p.parts := by
  constructor
  · rintro ⟨rooted, same⟩
    exact ⟨rooted, same ▸ (isNormal_normalize rooted).up_notMem_parts⟩
  · rintro ⟨rooted, level⟩
    obtain ⟨names, whole⟩ := exists_parts_of_level rooted level
    obtain ⟨others, named, folded, normal⟩ := exists_foldl_parts rooted
    -- names are folded as they come, so the normal form has them all
    have kept : p.parts.foldl foldPart [] = names.reverse.map .name ++ [.root] := by
      rw [whole]
      exact foldl_foldPart_names names [.root]
    have same : (others.reverse.map .name : List Part) = names.reverse.map .name :=
      List.append_cancel_right (folded.symm.trans kept)
    refine ⟨rooted, ?_⟩
    rw [normal, parts_ofNames named, whole]
    simpa using same

/-- No part of a reduced path is a step up. -/
theorem IsReduced.up_notMem_parts (h : p.IsReduced) : Part.up ∉ p.parts :=
  (isReduced_iff.mp h).2

/-- **The folders above a reduced path are reduced**: their parts are the first of its parts. -/
theorem IsReduced.of_mem_ancestors (h : p.IsReduced) (hq : q ∈ p.ancestors) : q.IsReduced := by
  obtain ⟨rooted, level⟩ := isReduced_iff.mp h
  exact isReduced_iff.mpr ⟨isAbsolute_of_mem_ancestors rooted hq,
    fun up => level ((parts_prefix_of_mem_ancestors rooted hq).subset up)⟩

/-- An entry of a reduced folder is reduced. -/
theorem IsReduced.join (h : p.IsReduced) (hs : Part.IsName s) : (p.join ⟨s⟩).IsReduced := by
  obtain ⟨rooted, level⟩ := isReduced_iff.mp h
  have one : (Path.mk s).pieces.filterMap Part.ofPiece? = [.name s] := by
    rw [pieces, chars, splitOn_of_notMem hs.slash_notMem, List.filterMap_cons_some hs.ofPiece?_toList,
      List.filterMap_nil]
  refine isReduced_iff.mpr ⟨isAbsolute_join _ rooted, ?_⟩
  rw [parts_join rooted (isAbsolute_of_isName hs), one, List.mem_append]
  rintro (up | up)
  · exact level up
  · simp at up

/-! ## Tight paths -/

/-- **A path spelled without idle pieces**, from the root. -/
def IsTight (p : Path) : Prop := ∃ names, (∀ s ∈ names, Part.IsText s) ∧ p = ofNames names

/-- A name spells a part: `IsNormal` asks for names, `IsTight` allows for `..` among them. -/
theorem IsNormal.isTight (h : p.IsNormal) : p.IsTight := by
  obtain ⟨names, named, rfl⟩ := h
  exact ⟨names, fun s hs => (named s hs).isText, rfl⟩

/-- A tight path starts at the root. -/
theorem IsTight.isAbsolute (h : p.IsTight) : p.isAbsolute = true := by
  obtain ⟨names, -, rfl⟩ := h
  exact isAbsolute_ofNames names

/-- Texts that spell parts are the spellings of these parts. -/
theorem map_text_filterMap (texts : ∀ s ∈ names, Part.IsText s) :
    ((names.map String.toList).filterMap Part.ofPiece?).map Part.text = names := by
  induction names with
  | nil => rfl
  | cons s rest ih =>
      obtain ⟨part, read, spelled⟩ := (texts s List.mem_cons_self).exists_ofPiece?
      rw [List.map_cons, List.filterMap_cons_some read, List.map_cons, spelled,
        ih fun q hq => texts q (List.mem_cons_of_mem _ hq)]

/-- **A tight path is spelled by its `parts`.** -/
theorem IsTight.ofParts_parts (h : p.IsTight) : ofParts p.parts = p := by
  obtain ⟨names, texts, rfl⟩ := h
  rw [parts_ofNames_of_free fun s hs => (texts s hs).slash_notMem, ofParts, map_text_filterMap texts,
    ← text_ofNames]

/-- **Tight spellings are decided by the `parts`.** -/
theorem IsTight.eq_of_parts_eq (hp : p.IsTight) (hq : q.IsTight) (same : p.parts = q.parts) :
    p = q := by
  rw [← hp.ofParts_parts, same, hq.ofParts_parts]

/-- Texts that spell parts spell a folder: there is no idle piece at their end. -/
theorem spellFolder_of_isText (texts : ∀ q ∈ names, Part.IsText q) : SpellFolder names := by
  refine ⟨fun q hq => (texts q hq).slash_notMem, ?_⟩
  rcases List.eq_nil_or_concat' names with rfl | ⟨front, s, rfl⟩
  · rfl
  · obtain ⟨part, read, -⟩ := (texts s (by simp)).exists_ofPiece?
    rw [List.reverse_append, List.reverse_singleton, List.singleton_append, List.map_cons,
      dropIdle_of_ofPiece? true read]

/-- **The folders above a tight path are tight**: they are spelled by the first of its texts. -/
theorem IsTight.of_mem_ancestors (h : p.IsTight) (hq : q ∈ p.ancestors) : q.IsTight := by
  obtain ⟨names, texts, rfl⟩ := h
  rcases eq_or_ne names [] with rfl | some_name
  · rw [ancestors_ofNames_nil, List.mem_singleton] at hq
    exact hq ▸ ⟨[], texts, rfl⟩
  rcases List.mem_cons.mp hq with rfl | above
  · exact ⟨names, texts, rfl⟩
  obtain ⟨kept, -, rfl, begins⟩ := exists_texts_of_mem_ancestors (isAbsolute_ofNames names) above
  rw [pieces_ofNames (fun s hs => (texts s hs).slash_notMem) some_name, List.tail_cons] at begins
  refine ⟨kept, fun s hs => ?_, rfl⟩
  obtain ⟨t, ht, same⟩ := List.mem_map.mp (begins.subset (List.mem_map_of_mem hs))
  exact String.toList_injective same ▸ texts t ht

/-- An entry of a tight folder is tight. -/
theorem IsTight.join (h : p.IsTight) (hs : Part.IsName s) : (p.join ⟨s⟩).IsTight := by
  obtain ⟨names, texts, rfl⟩ := h
  rw [join_of_spellFolder (spellFolder_of_isText texts) hs]
  exact ⟨names ++ [s],
    List.forall_mem_append.mpr ⟨texts, List.forall_mem_singleton.mpr hs.isText⟩, rfl⟩

end Path

end ScriptBundle
