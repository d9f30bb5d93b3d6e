import ScriptBundle.Proofs.Path.Relative
import ScriptBundle.Proofs.Resolution.Found

/-! # Identities and locations

An identity is the way from the folder of the entry script to a file, behind a slash. The way tells
the file: it goes up as far as the two paths share no parts, and what is left of the file comes down
from there. So files with the same identity are the same, unless one of them is itself spelled with
steps up.

* **`Path.parts_eq_of_wayParts_eq`** — the way from a folder tells the file;
* **`Path.mem_wayParts_iff`** — the names on the way are those of the file below what both share;
* **`Project.wayParts_eq_of_identityOf_eq`** — an identity tells the way;
* **`Project.identityOf_entry`** — the identity of an entry script is its name;
* **`Project.isDependency_identityOf`** — an identity lies in a dependency folder exactly if the way
  goes through one. -/

namespace ScriptBundle

namespace Path

variable {folder p q : Path} {as bs : List Part}

/-! ## Ways -/

/-- Paths that are spelled by the same texts below a folder have the same parts there. -/
theorem ofParts_injective (below : AreBelow as) (below' : AreBelow bs)
    (same : ofParts as = ofParts bs) : as = bs := by
  rw [← filterMap_pieces_ofParts below, same, filterMap_pieces_ofParts below']

/-- The steps up in front of other parts are counted by the whole. -/
theorem replicate_up_append_inj {m n : Nat} (level : Part.up ∉ as) (level' : Part.up ∉ bs)
    (same : List.replicate m Part.up ++ as = List.replicate n Part.up ++ bs) : m = n ∧ as = bs := by
  induction m generalizing n with
  | zero =>
      cases n with
      | zero => exact ⟨rfl, same⟩
      | succ n =>
          have whole : as = List.replicate (n + 1) Part.up ++ bs := same
          exact absurd (whole ▸ List.mem_cons_self) level
  | succ m ih =>
      cases n with
      | zero =>
          have whole : bs = List.replicate (m + 1) Part.up ++ as := same.symm
          exact absurd (whole ▸ List.mem_cons_self) level'
      | succ n =>
          obtain ⟨count, rest⟩ := ih (List.cons.inj same).2
          exact ⟨congrArg Nat.succ count, rest⟩

/-- **The way from a folder tells the file**, if it goes up only in front. -/
theorem parts_eq_of_wayParts_eq
    (level : Part.up ∉ p.parts.drop (sharedParts folder.parts p.parts))
    (level' : Part.up ∉ q.parts.drop (sharedParts folder.parts q.parts))
    (same : wayParts folder p = wayParts folder q) : p.parts = q.parts := by
  obtain ⟨ups, down⟩ := replicate_up_append_inj level level' same
  -- as many steps up lead to as many shared parts
  have shared : sharedParts folder.parts p.parts = sharedParts folder.parts q.parts := by
    have le_p := sharedParts_le folder.parts p.parts
    have le_q := sharedParts_le folder.parts q.parts
    omega
  rw [← List.take_append_drop (sharedParts folder.parts p.parts) p.parts, ← take_sharedParts, down,
    shared, take_sharedParts, List.take_append_drop]

/-- Lists share what both start with. -/
theorem prefix_iff_length_le_sharedParts {cs : List Part} (h : cs <+: bs) :
    cs <+: as ↔ cs.length ≤ sharedParts as bs := by
  obtain ⟨rest, rfl⟩ := h
  constructor
  · rintro ⟨other, rfl⟩
    induction cs with
    | nil => exact Nat.zero_le _
    | cons c cs ih =>
        rw [List.cons_append, List.cons_append, sharedParts, if_pos rfl]
        exact Nat.succ_le_succ ih
  · intro few
    have front : cs = ((cs ++ rest).take (sharedParts as (cs ++ rest))).take cs.length := by
      rw [List.take_take, Nat.min_eq_left few, List.take_left]
    rw [front, ← take_sharedParts, List.take_take]
    exact List.take_prefix ..

/-- A list behind some of its values, by what stands in front of a value. -/
theorem mem_drop_iff_append {part : Part} {n : Nat} :
    part ∈ bs.drop n ↔ ∃ front back, bs = front ++ part :: back ∧ n ≤ front.length := by
  constructor
  · intro h
    obtain ⟨i, hi, rfl⟩ := List.mem_drop_iff_getElem.mp h
    refine ⟨bs.take (n + i), bs.drop (n + i + 1), by simp, ?_⟩
    rw [List.length_take]
    omega
  · rintro ⟨front, back, rfl, few⟩
    rw [List.drop_append_of_le_length few]
    exact List.mem_append_right _ List.mem_cons_self

/-- **A name on the way** from a folder to a file stands in the path of the file, and ends no part of
the path of the folder. -/
theorem mem_wayParts_iff {s : String} :
    Part.name s ∈ wayParts folder p ↔
      ∃ front back, p.parts = front ++ .name s :: back ∧ ¬front ++ [.name s] <+: folder.parts := by
  have down : Part.name s ∈ wayParts folder p ↔
      Part.name s ∈ p.parts.drop (sharedParts folder.parts p.parts) := by
    rw [wayParts, List.mem_append]
    refine or_iff_right fun up => ?_
    exact Part.noConfusion (List.eq_of_mem_replicate up)
  rw [down, mem_drop_iff_append]
  -- what stands behind the shared parts is not reached by the folder
  refine exists_congr fun front => exists_congr fun back => and_congr_right fun whole => ?_
  have reached : front ++ [.name s] <+: p.parts := ⟨back, by simp [whole]⟩
  rw [prefix_iff_length_le_sharedParts reached, List.length_append, List.length_singleton]
  omega

/-- A name is a part of a path below a folder exactly if it is one of its `pieces`. -/
theorem toList_mem_pieces_ofParts {s : String} (below : AreBelow as) (hs : Part.IsName s) :
    s.toList ∈ (ofParts as).pieces ↔ Part.name s ∈ as := by
  have read := filterMap_pieces_ofParts below
  constructor
  · intro h
    rw [← read]
    exact List.mem_filterMap.mpr ⟨s.toList, h, hs.ofPiece?_toList⟩
  · intro h
    rw [← read] at h
    obtain ⟨piece, hpiece, same⟩ := List.mem_filterMap.mp h
    rwa [← Part.eq_toList_of_ofPiece? same]

end Path

namespace Project

open ScriptBundle.Path (wayParts)

variable {P : Project} {w : Workspace} {p q : Path}

/-! ## Identities -/

/-- An identity starts with a slash. -/
theorem toList_identityOf (P : Project) (p : Path) :
    (P.identityOf p).text.toList = '/' :: (Path.relative P.base p).chars := by
  rw [identityOf, Identity.ofLocation, String.toList_append]
  rfl

/-- **An identity tells the way** from the folder of the `entry` script. -/
theorem wayParts_eq_of_identityOf_eq (normal : P.entry.IsNormal) (hp : p.isAbsolute = true)
    (hq : q.isAbsolute = true) (same : P.identityOf p = P.identityOf q) :
    wayParts P.base p = wayParts P.base q := by
  have rooted := isAbsolute_base normal
  have chars : (Path.relative P.base p).chars = (Path.relative P.base q).chars := by
    have behind := congrArg (fun identity => identity.text.toList) same
    simp only [toList_identityOf] at behind
    exact (List.cons.inj behind).2
  have relative : Path.relative P.base p = Path.relative P.base q :=
    congrArg Path.mk (String.toList_injective chars)
  rw [Path.relative_eq_ofParts rooted hp, Path.relative_eq_ofParts rooted hq] at relative
  exact Path.ofParts_injective (Path.areBelow_wayParts rooted hp) (Path.areBelow_wayParts rooted hq)
    relative

/-- **Files with the same identity are the same**, if their paths are spelled without steps up. -/
theorem parts_eq_of_identityOf_eq (normal : P.entry.IsNormal) (hp : p.isAbsolute = true)
    (hq : q.isAbsolute = true) (level : Part.up ∉ p.parts) (level' : Part.up ∉ q.parts)
    (same : P.identityOf p = P.identityOf q) : p.parts = q.parts :=
  Path.parts_eq_of_wayParts_eq (fun up => level (List.mem_of_mem_drop up))
    (fun up => level' (List.mem_of_mem_drop up)) (wayParts_eq_of_identityOf_eq normal hp hq same)

/-- **An identity lies in a dependency folder** exactly if the way to its file goes through one. -/
theorem isDependency_identityOf (normal : P.entry.IsNormal) (hp : p.isAbsolute = true) :
    (P.identityOf p).isDependency = true ↔
      Part.name Package.dependencyFolder ∈ wayParts P.base p := by
  have rooted := isAbsolute_base normal
  have folder : Part.IsName Package.dependencyFolder := by
    refine ⟨?_, ?_, ?_, ?_⟩ <;> decide
  rw [← Path.toList_mem_pieces_ofParts (Path.areBelow_wayParts rooted hp) folder,
    ← Path.relative_eq_ofParts rooted hp, Identity.isDependency, List.contains_iff_mem,
    toList_identityOf, List.splitOn_cons_eq_if_modifyHead, if_pos (by rfl), List.mem_cons]
  exact or_iff_right folder.toList_ne_nil

/-! ## Entry scripts -/

/-- The path of an `entry` script and of its folder, spelled by names. -/
theorem exists_names_of_entry (normal : P.entry.IsNormal) (file : w.isFile P.entry = true) :
    ∃ names s, (∀ q ∈ names ++ [s], Part.IsName q) ∧ P.entry = .ofNames (names ++ [s]) ∧
      P.base = .ofNames names := by
  obtain ⟨names, s, hs, e⟩ := exists_names_of_isFile normal file
  refine ⟨names, s, hs, e, ?_⟩
  rw [base, e, Path.parent?_ofNames_append hs]
  rfl

/-- **The identity of an `entry` script** is its name behind a slash. -/
theorem identityOf_entry (normal : P.entry.IsNormal) (file : w.isFile P.entry = true) :
    P.identityOf P.entry = .ofEntry P.entry := by
  obtain ⟨names, s, hs, e, base⟩ := exists_names_of_entry normal file
  rw [identityOf, Identity.ofLocation, Identity.ofEntry, base, e, Path.relative_folder hs,
    Path.fileName?_ofNames_append hs]
  rfl

/-- **The way to an `entry` script** is its name. -/
theorem exists_wayParts_entry (normal : P.entry.IsNormal) (file : w.isFile P.entry = true) :
    ∃ s, P.entry.fileName? = some s ∧ wayParts P.base P.entry = [.name s] := by
  obtain ⟨names, s, hs, e, base⟩ := exists_names_of_entry normal file
  have rooted := isAbsolute_base normal
  have name : Part.IsName s := hs s (by simp)
  have named : Path.AreBelow [.name s] := by
    intro part hpart
    exact .inr ⟨s, name, List.mem_singleton.mp hpart⟩
  have spelled : Path.ofParts (wayParts P.base P.entry) = Path.ofParts [.name s] := by
    rw [← Path.relative_eq_ofParts rooted normal.isAbsolute, base, e, Path.relative_folder hs]
    rfl
  refine ⟨s, ?_, Path.ofParts_injective (Path.areBelow_wayParts rooted normal.isAbsolute) named
    spelled⟩
  rw [e, Path.fileName?_ofNames_append hs]

/-- **No other file has the identity of an `entry` script**, however its path is spelled. -/
theorem parts_eq_entry_of_identityOf_eq (normal : P.entry.IsNormal) (file : w.isFile P.entry = true)
    (hp : p.isAbsolute = true) (same : P.identityOf p = P.identityOf P.entry) :
    p.parts = P.entry.parts := by
  have way := wayParts_eq_of_identityOf_eq normal hp normal.isAbsolute same
  have level : Part.up ∉ wayParts P.base P.entry := by
    obtain ⟨s, -, only⟩ := exists_wayParts_entry normal file
    simp [only]
  refine Path.parts_eq_of_wayParts_eq (fun up => ?_) (fun up => ?_) way
  · exact level (way ▸ List.mem_append_right _ up)
  · exact level (List.mem_append_right _ up)

end Project

end ScriptBundle
