import Mathlib.Data.List.Find
import ScriptBundle.Proofs.Compiler.Registered
import ScriptBundle.Proofs.Resolution.Candidates
import ScriptBundle.Proofs.Resolution.Canonical
import ScriptBundle.Proofs.Table

/-! # A file that is written to

The files of a run with one more of them, or with another content of one of them. Paths that do not
lead there lead where they did before, and a search that tries only such paths finds what it found
before.

* **`Workspace.holding`** — the files with given bytes at a place;
* **`FileTree.put_put`, `FileTree.content?_put`, `FileTree.overwrite_append`** — a file written to
  again;
* **`Path.GoesPast`, `Workspace.find_holding`** — where a path leads that does not go through the
  place;
* **`Compiler.LooksAtFile`** — says that a compiler looks at its file alone;
* **`Workspace.probed`, `resolve_congr`** — the paths a search looks at, and what is found where they
  lead to the same. -/

namespace ScriptBundle

namespace FileTree

variable {tree : FileTree} {place other : Place} {content later : Content} {raw piece : List UInt8}

/-- A content that was set stands in the table of the files. -/
theorem files_put (tree : FileTree) (place : Place) (content : Content) :
    (tree.put place content).files = Table.put tree.files place content := by
  have known : tree.files.any (·.1 == place) = true ↔ place ∈ tree.files.map (·.1) := by
    simp
  by_cases present : place ∈ tree.files.map (·.1)
  · rw [put, if_pos (known.mpr present), Table.put, if_pos present]
    simp [Table.replace]
  · rw [put, if_neg (mt known.mp present), Table.put, if_neg present]

/-- A content that was set leaves the list of folders. -/
theorem folders_put (tree : FileTree) (place : Place) (content : Content) :
    (tree.put place content).folders = tree.folders := by
  unfold put
  split <;> rfl

/-- **A file set twice** has its latest content. -/
theorem put_put (tree : FileTree) (place : Place) (content later : Content) :
    (tree.put place content).put place later = tree.put place later := by
  have files : ((tree.put place content).put place later).files = (tree.put place later).files := by
    rw [files_put, files_put, files_put, Table.put_put]
  have folders : ((tree.put place content).put place later).folders =
      (tree.put place later).folders := by
    rw [folders_put, folders_put, folders_put]
  calc (tree.put place content).put place later
      = ⟨((tree.put place content).put place later).files,
          ((tree.put place content).put place later).folders⟩ := rfl
    _ = tree.put place later := by rw [files, folders]

/-- **The content of a file that was set**, and of all others. -/
theorem content?_put (tree : FileTree) (place other : Place) (content : Content) :
    (tree.put place content).content? other =
      if other = place then some content else tree.content? other := by
  rw [content?, files_put, Table.lookup_put, content?]

/-- **Bytes set one behind the other** are set at once. -/
theorem overwritten_append (raw : List UInt8) (offset : Nat) (piece next : List UInt8) :
    overwritten (overwritten raw offset piece) (offset + piece.length) next =
      overwritten raw offset (piece ++ next) := by
  cases piece with
  | nil => rfl
  | cons byte piece =>
      -- everything up to the end of the first piece, which the next one is set behind
      let front := raw.take offset ++ List.replicate (offset - raw.length) 0 ++ byte :: piece
      have size : front.length = offset + (byte :: piece).length := by
        simp only [front, List.length_append, List.length_take, List.length_replicate]
        omega
      calc overwritten (overwritten raw offset (byte :: piece)) (offset + (byte :: piece).length) next
          = overwritten (front ++ raw.drop (offset + (byte :: piece).length)) front.length next := by
            rw [size]
            rfl
        _ = front ++ next ++ raw.drop (offset + (byte :: piece ++ next).length) := by
            rw [overwritten_append_length, List.drop_drop, List.length_append, Nat.add_assoc]
        _ = overwritten raw offset (byte :: piece ++ next) := by
            simp [overwritten, front]

/-- **A file written to from a position on, and again behind that**, is as if written to once. -/
theorem overwrite_append (tree : FileTree) (place : Place) (offset : Nat)
    (piece next : List UInt8) :
    (tree.overwrite place offset piece).overwrite place (offset + piece.length) next =
      tree.overwrite place offset (piece ++ next) := by
  unfold overwrite
  cases held : tree.content? place with
  | none => simp [held]
  | some content =>
      simp only [content?_put, if_true, put_put]
      rw [Content.raw, overwritten_append]

/-! ## Folders -/

/-- **What makes a folder exist**: it is the root, a listed folder lies in it, or a file does. -/
theorem hasFolder_iff :
    tree.hasFolder place = true ↔ place = [] ∨ (∃ folder ∈ tree.folders, place <+: folder) ∨
      ∃ q ∈ tree.files.map (·.1), place <+: q ∧ place.length < q.length := by
  rw [hasFolder, Bool.or_eq_true, Bool.or_eq_true, List.isEmpty_iff, List.any_eq_true,
    List.any_eq_true, or_assoc]
  simp [List.isPrefixOf_iff_prefix]

/-- A folder lies in folders. -/
theorem hasFolder_of_prefix (h : tree.hasFolder place = true) (above : other <+: place) :
    tree.hasFolder other = true := by
  rw [hasFolder_iff] at h ⊢
  rcases h with rfl | ⟨folder, listed, inside⟩ | ⟨q, listed, inside, shorter⟩
  · exact .inl (List.prefix_nil.mp above)
  · exact .inr (.inl ⟨folder, listed, above.trans inside⟩)
  · exact .inr (.inr ⟨q, listed, above.trans inside, Nat.lt_of_le_of_lt above.length_le shorter⟩)

/-- **A file in a folder makes no folder more.** -/
theorem hasFolder_put (folder : tree.hasFolder place.dropLast = true) (content : Content)
    (other : Place) : (tree.put place content).hasFolder other = tree.hasFolder other := by
  rw [Bool.eq_iff_iff]
  constructor
  · intro h
    rw [hasFolder_iff, folders_put, files_put] at h
    rcases h with root | listed | ⟨q, listed, inside, shorter⟩
    · exact hasFolder_iff.mpr (.inl root)
    · exact hasFolder_iff.mpr (.inr (.inl listed))
    · rcases Table.mem_map_fst_put.mp listed with rfl | old
      · -- what is above the file is its folder, or above that
        obtain ⟨rest, rfl⟩ := inside
        have behind : rest ≠ [] := by
          rintro rfl
          simp at shorter
        rw [List.dropLast_append_of_ne_nil behind] at folder
        exact hasFolder_of_prefix folder (List.prefix_append ..)
      · exact hasFolder_iff.mpr (.inr (.inr ⟨q, old, inside, shorter⟩))
  · intro h
    rw [hasFolder_iff, folders_put, files_put]
    rcases hasFolder_iff.mp h with root | listed | ⟨q, listed, inside, shorter⟩
    · exact .inl root
    · exact .inr (.inl listed)
    · exact .inr (.inr ⟨q, Table.mem_map_fst_put.mpr (.inr listed), inside, shorter⟩)

/-! ## Following a path -/

/-- A step along a piece leads to the same where it does not lead to the file. -/
theorem step_put {start : Place} {piece : List Char} (folder : tree.hasFolder place.dropLast = true)
    (content : Content)
    (apart : ∀ s, Part.ofPiece? piece = some (.name s) → start ++ [s] ≠ place) :
    (tree.put place content).step (.folder start) piece = tree.step (.folder start) piece := by
  unfold step
  cases read : Part.ofPiece? piece with
  | none => rfl
  | some part =>
      cases part with
      | name s =>
          dsimp only
          rw [content?_put, if_neg (apart s read), hasFolder_put folder]
      | _ => rfl

/-- **Pieces without a step up** lead to the same where they do not lead through the file. -/
theorem foldlM_step_put {start : Place} {pieces : List (List Char)}
    (folder : tree.hasFolder place.dropLast = true) (content : Content)
    (level : ['.', '.'] ∉ pieces)
    (apart : ¬place.map Part.name <+: start.map Part.name ++ pieces.filterMap Part.ofPiece?) :
    pieces.foldlM (tree.put place content).step (.folder start) =
      pieces.foldlM tree.step (.folder start) := by
  induction pieces generalizing start with
  | nil => rfl
  | cons piece rest ih =>
      have later : ['.', '.'] ∉ rest := fun up => level (List.mem_cons_of_mem _ up)
      have first : (tree.put place content).step (.folder start) piece =
          tree.step (.folder start) piece := by
        refine step_put folder content fun s read same => apart ?_
        rw [← same, Part.filterMap_ofPiece?_cons, read, List.map_append, Option.toList_some,
          List.map_singleton, ← List.append_assoc]
        exact List.prefix_append ..
      rw [List.foldlM_cons, List.foldlM_cons, first]
      cases led : tree.step (.folder start) piece with
      | error cause => rfl
      | ok spot =>
          cases spot with
          | file inner old =>
              -- there is no way on from a file
              cases rest with
              | nil => rfl
              | cons => rfl
          | folder inner =>
              have here : piece ≠ ['.', '.'] := fun up => level (up ▸ List.mem_cons_self)
              have down := place_of_step here led
              refine ih later ?_
              rwa [Part.filterMap_ofPiece?_cons, ← List.append_assoc, ← down] at apart

end FileTree

/-! ## Workspaces -/

/-- **A path that goes past a `place`**: it is spelled without steps up behind a name, and does not lead
through the place. -/
structure Path.GoesPast (p : Path) (place : Place) : Prop where
  /-- It leads where it is spelled to. -/
  reduced : p.IsReduced
  /-- It does not lead through the place. -/
  apart : ¬Part.root :: place.map .name <+: p.parts

instance (p : Path) (place : Place) : Decidable (p.GoesPast place) :=
  decidable_of_iff ((p.isAbsolute = true ∧ Part.up ∉ p.parts) ∧
    ¬Part.root :: place.map .name <+: p.parts) (by
      rw [← Path.isReduced_iff]
      exact ⟨fun ⟨reduced, apart⟩ => ⟨reduced, apart⟩, fun past => ⟨past.reduced, past.apart⟩⟩)

namespace Workspace

variable {w w' : Workspace} {place : Place} {raw later : List UInt8} {p : Path}

/-- **The files with given `bytes` at a place.** -/
def holding (w : Workspace) (place : Place) (raw : List UInt8) : Workspace :=
  { w with tree := w.tree.put place (.bytes raw) }

/-- **Where a path leads** does not depend on a file that it goes past. -/
theorem find_holding (folder : w.tree.hasFolder place.dropLast = true) (raw : List UInt8)
    (past : p.GoesPast place) : (w.holding place raw).find p = w.find p := by
  have rooted := past.reduced.isAbsolute
  have apart := past.apart
  have walked : p.pieces.foldlM (w.tree.put place (.bytes raw)).step (.folder []) =
      p.pieces.foldlM w.tree.step (.folder []) := by
    refine FileTree.foldlM_step_put folder _ past.reduced.dots_notMem_pieces ?_
    rwa [Path.parts_eq_root_cons rooted, List.cons_prefix_cons, and_iff_right rfl] at apart
  rw [find, find, FileTree.find, FileTree.find, rooted, if_pos rfl, if_pos rfl, ← walked]
  rfl

/-- What can be said of a path by where it leads. -/
theorem isFile_congr (same : w'.find p = w.find p) : w'.isFile p = w.isFile p := by
  rw [isFile, isFile, same]

/-- Where a path leads to the same file, `readText` gives the same text. -/
theorem readText_congr (same : w'.find p = w.find p) : w'.readText p = w.readText p := by
  rw [readText, readText, read, read, same]

end Workspace

/-! ## Compilers -/

/-- **A `compiler` that looks at its file** and at nothing else. -/
def Compiler.LooksAtFile (compiler : Compiler) : Prop :=
  ∀ ⦃w w' : Workspace⦄ ⦃p : Path⦄, w'.find p = w.find p →
    (compiler.compile w' p).1 = (compiler.compile w p).1

/-- The compiler of scripts looks at nothing but the file it compiles. -/
theorem Compiler.looksAtFile_source : source.LooksAtFile := by
  intro w w' p same
  rw [compile_source, compile_source, readSource, readSource, Workspace.readText_congr same]

/-- The compiler of JSON documents looks at nothing but the file it compiles. -/
theorem Compiler.looksAtFile_document : document.LooksAtFile := by
  intro w w' p same
  have read : readSource w' p = readSource w p := looksAtFile_source same
  exact show readDocument w' p = readDocument w p by rw [readDocument, readDocument, read]

/-- **The registry looks at the file** where all its compilers do. -/
theorem Registry.compile_congr {r : Registry} {w w' : Workspace} {p : Path}
    (h : r.Holds fun _ compiler => compiler.LooksAtFile) (same : w'.find p = w.find p) :
    (r.compile w' p).1 = (r.compile w p).1 :=
  h.compilerFor Compiler.looksAtFile_source p.extension same

/-! ## Searches -/

section Searches

variable {w w' : Workspace} {extensions : List String} {specifier : String} {folder target : Path}

/-- **The paths a `specifier` stands for**, in their normal form: one, or one in each dependency folder
above. -/
def sought (specifier : String) (folder : Path) : List Path :=
  match Specifier.kind specifier with
  | .relative | .absolute => [(folder.join ⟨specifier⟩).normalize]
  | .bare => folder.ancestors.map fun a =>
      ((a.join ⟨Package.dependencyFolder⟩).join ⟨specifier⟩).normalize

/-- **The paths a search looks at**: for each path the `specifier` stands for, the manifest in it and
the candidates. -/
def Workspace.probed (w : Workspace) (extensions : List String) (specifier : String)
    (folder : Path) : List Path :=
  (sought specifier folder).flatMap fun target =>
    target.join ⟨Package.manifestName⟩ ::
      candidates w extensions (Specifier.isFolderOnly specifier) target

/-- **The paths that are searched** are the `candidates` of each target that is sought. -/
theorem searched_eq_flatMap : searched w extensions specifier folder folder.ancestors =
    (sought specifier folder).flatMap
      (candidates w extensions (Specifier.isFolderOnly specifier)) := by
  rw [searched, sought]
  cases Specifier.kind specifier with
  | bare =>
      dsimp only
      rw [List.flatMap_map]
  | _ => simp

/-- The `main` of a manifest is told by where the manifest leads. -/
theorem manifestMain?_congr (same : w'.find (folder.join ⟨Package.manifestName⟩) =
    w.find (folder.join ⟨Package.manifestName⟩)) : manifestMain? w' folder = manifestMain? w folder := by
  rw [manifestMain?, manifestMain?, Workspace.isFile_congr same, Workspace.readText_congr same]

/-- **A search finds the same** where the paths it looks at lead to the same. -/
theorem lookup?_congr
    (same : ∀ p ∈ w.probed extensions specifier folder, w'.find p = w.find p) :
    lookup? w' extensions specifier folder = lookup? w extensions specifier folder := by
  have looked : ∀ target ∈ sought specifier folder,
      ∀ p ∈ target.join ⟨Package.manifestName⟩ ::
        candidates w extensions (Specifier.isFolderOnly specifier) target, w'.find p = w.find p :=
    fun target ht p hp => same p (List.mem_flatMap.mpr ⟨target, ht, hp⟩)
  have candidates_eq : ∀ target ∈ sought specifier folder,
      candidates w' extensions (Specifier.isFolderOnly specifier) target =
        candidates w extensions (Specifier.isFolderOnly specifier) target := by
    intro target ht
    rw [candidates, candidates, mainCandidates, mainCandidates,
      manifestMain?_congr (looked target ht _ List.mem_cons_self)]
  have searched_eq : searched w' extensions specifier folder folder.ancestors =
      searched w extensions specifier folder folder.ancestors := by
    rw [searched_eq_flatMap, searched_eq_flatMap]
    exact List.flatMap_congr candidates_eq
  rw [lookup?_eq_find?, lookup?_eq_find?, searched_eq, searched_eq_flatMap]
  refine List.find?_congr fun p hp => Workspace.isFile_congr ?_
  obtain ⟨target, ht, hp⟩ := List.mem_flatMap.mp hp
  exact looked target ht p (List.mem_cons_of_mem _ hp)

/-- **A `specifier` means the same** where the paths a search looks at lead to the same. -/
theorem resolve_congr (rooted : folder.isAbsolute = true)
    (same : ∀ p ∈ w.probed extensions specifier folder.normalize, w'.find p = w.find p) :
    resolve w' extensions specifier folder = resolve w extensions specifier folder := by
  rw [resolve, resolve, absolute_of_isAbsolute rooted, absolute_of_isAbsolute rooted]
  dsimp only
  rw [lookup?_congr same]

/-- **The manifests a search upwards looks at.** -/
def manifestsAbove (location : Path) : List Path :=
  location.ancestors.tail.map (·.join ⟨Package.manifestName⟩)

/-- The nearest manifest is the same where those above lead to the same. -/
theorem manifestAbove?_congr {location : Path}
    (same : ∀ p ∈ manifestsAbove location, w'.find p = w.find p) :
    w'.manifestAbove? location = w.manifestAbove? location :=
  List.find?_congr fun p hp => Workspace.isFile_congr (same p hp)

end Searches

end ScriptBundle
