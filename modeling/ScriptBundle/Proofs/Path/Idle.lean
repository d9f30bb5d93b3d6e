import ScriptBundle.Proofs.Path.Folders
import ScriptBundle.Workspace

/-! # Idle pieces

A path may have more slashes than it needs. The pieces between them stand for no part: the path is the
same one by its parts, and it leads to the same file, but its spelling is longer, and so are those of
the folders above it. A spelling that is too long leads nowhere.

* **`Path.idle`** — idle pieces, to be put among the names of a path;
* **`parts_ofNames_idle`, `ancestors_ofNames_idle`, `ancestors_ofNames_idle_cons`** — the parts of such
  a path, and the folders above it;
* **`spelledLength`, `utf8ByteSize_ofNames`** — the length of a spelling;
* **`find_ofNames_idle`** — where such a path leads, if it is not too long. -/

namespace ScriptBundle.Path

variable {names front back : List String} {s t : String} {k : Nat}

/-- **Idle pieces**, as they stand between neighbouring slashes. -/
def idle (k : Nat) : List String := List.replicate k ""

/-- One idle piece more is an empty text more in front. -/
theorem idle_succ (k : Nat) : idle (k + 1) = "" :: idle k := rfl

/-- Texts without slashes stay so with idle pieces among them. -/
theorem slash_notMem_idle (hf : ∀ q ∈ front, Part.IsName q) (hb : ∀ q ∈ back, Part.IsName q) :
    ∀ q ∈ front ++ idle k ++ back, '/' ∉ q.toList := by
  intro q hq
  rcases List.mem_append.mp hq with hq | hq
  · rcases List.mem_append.mp hq with hq | hq
    · exact (hf q hq).slash_notMem
    · rw [List.eq_of_mem_replicate hq]
      simp
  · exact (hb q hq).slash_notMem

/-! ## Parts and folders -/

/-- **Idle pieces stand for no part.** -/
theorem parts_ofNames_idle (hf : ∀ q ∈ front, Part.IsName q) (hb : ∀ q ∈ back, Part.IsName q)
    (some_name : back ≠ []) :
    (ofNames (front ++ idle k ++ back)).parts = (ofNames (front ++ back)).parts := by
  have none : ((idle k).map String.toList).filterMap Part.ofPiece? = [] := by
    induction k with
    | zero => rfl
    | succ k ih => simp [idle_succ, ih]
  have free := slash_notMem_idle (k := k) hf hb
  have plain := slash_notMem_idle (k := 0) hf hb
  rw [show idle 0 = [] from rfl, List.append_nil] at plain
  rw [parts, parts, pieces_ofNames free (by simp [some_name]),
    pieces_ofNames plain (by simp [some_name]), List.map_append, List.map_append]
  simp only [isAbsolute_ofNames, if_true, List.filterMap_cons, List.filterMap_append, none,
    List.append_nil, List.map_append]

/-- Idle pieces are dropped on the way up. -/
theorem dropIdle_idle (k : Nat) (rest : List (List Char)) :
    dropIdle true ((idle k).map String.toList ++ rest) = dropIdle true rest := by
  induction k with
  | zero => rfl
  | succ k ih =>
      rw [idle_succ, List.map_cons, List.cons_append, dropIdle, if_pos (by simp)]
      exact ih

/-- The folder in front of idle pieces is spelled without them. -/
theorem ancestors_ofNames_idle (hf : ∀ q ∈ front, Part.IsName q) (hs : Part.IsName s) :
    (ofNames (front ++ idle k ++ [s])).ancestors =
      ofNames (front ++ idle k ++ [s]) :: (ofNames front).ancestors := by
  have none : ∀ q ∈ ([] : List String), Part.IsName q := by simp
  have free : ∀ q ∈ front ++ idle k, '/' ∉ q.toList := by
    simpa using slash_notMem_idle (k := k) hf none
  refine ancestors_ofNames_concat free (fun q hq => (hf q hq).slash_notMem) hs ?_
  have turned : (idle k).reverse = idle k := List.reverse_replicate
  rw [List.reverse_append, turned, List.map_append, dropIdle_idle]
  exact dropIdle_map_toList true fun q hq => hf q (List.mem_reverse.mp hq)

/-- The folder behind idle pieces keeps them. -/
theorem ancestors_ofNames_idle_cons (hf : ∀ q ∈ front, Part.IsName q) (hs : Part.IsName s)
    (ht : Part.IsName t) :
    (ofNames (front ++ idle k ++ [s, t])).ancestors =
      ofNames (front ++ idle k ++ [s, t]) :: (ofNames (front ++ idle k ++ [s])).ancestors := by
  have last : ∀ q ∈ [s], Part.IsName q := List.forall_mem_singleton.mpr hs
  have free := slash_notMem_idle (k := k) hf last
  rw [List.append_cons _ s [t]]
  refine ancestors_ofNames_concat free free ht ?_
  rw [List.reverse_append, List.reverse_singleton, List.singleton_append, List.map_cons]
  exact dropIdle_toList true hs _

/-! ## Spellings -/

/-- The characters of a path spelled by texts. -/
theorem mem_chars_ofNames {c : Char} :
    c ∈ (ofNames names).chars ↔ c = '/' ∨ ∃ s ∈ names, c ∈ s.toList := by
  -- on the names from the back, where `text_ofNames_append` puts one more
  induction names using List.reverseRecOn with
  | nil => simp [chars, text_ofNames]
  | append_singleton front s ih =>
      by_cases first : front = []
      · simp [chars, text_ofNames, first]
      · have spelled : (ofNames (front ++ [s])).chars = (ofNames front).chars ++ '/' :: s.toList := by
          simp [chars, text_ofNames_append first]
        rw [spelled, List.mem_append, ih, List.mem_cons]
        simp only [List.mem_append, List.mem_singleton, or_and_right, exists_or, exists_eq_left]
        by_cases slash : c = '/' <;> simp [slash]

/-- The lengths of some texts, each with a slash. -/
def spelledLength : List String → Nat
  | [] => 0
  | s :: rest => s.utf8ByteSize + 1 + spelledLength rest

/-- The `spelledLength` of texts one after the other is the sum of both. -/
theorem spelledLength_append (front back : List String) :
    spelledLength (front ++ back) = spelledLength front + spelledLength back := by
  induction front with
  | nil => simp [spelledLength]
  | cons s rest ih =>
      rw [List.cons_append, spelledLength, spelledLength, ih]
      omega

/-- Each idle piece takes one byte, which is its slash. -/
theorem spelledLength_idle (k : Nat) : spelledLength (idle k) = k := by
  induction k with
  | zero => rfl
  | succ k ih =>
      have empty : "".utf8ByteSize = 0 := by decide
      rw [idle_succ, spelledLength, ih, empty]
      omega

/-- **The length of a spelling**: each text takes its own length and a slash. -/
theorem utf8ByteSize_ofNames (some_name : names ≠ []) :
    (ofNames names).text.utf8ByteSize = spelledLength names := by
  induction names using List.reverseRecOn with
  | nil => exact absurd rfl some_name
  | append_singleton front s ih =>
      have slash : "/".utf8ByteSize = 1 := by decide
      by_cases first : front = []
      · simp [text_ofNames, first, slash, spelledLength]
        omega
      · rw [text_ofNames_append first, String.utf8ByteSize_append, String.utf8ByteSize_append, ih first,
          slash, spelledLength_append, spelledLength, spelledLength]
        omega

/-- Each idle piece makes a spelling one slash longer. -/
theorem utf8ByteSize_ofNames_idle (some_name : back ≠ []) :
    (ofNames (front ++ idle k ++ back)).text.utf8ByteSize =
      (ofNames (front ++ back)).text.utf8ByteSize + k := by
  rw [utf8ByteSize_ofNames (by simp [some_name]), utf8ByteSize_ofNames (by simp [some_name]),
    spelledLength_append, spelledLength_append, spelledLength_append, spelledLength_idle]
  omega

/-- A path below another is spelled with the texts of both. -/
theorem le_utf8ByteSize_join (base : Path) {tail : Path} (relative : tail.isAbsolute = false) :
    base.text.utf8ByteSize + tail.text.utf8ByteSize ≤ (base.join tail).text.utf8ByteSize := by
  rw [join, if_neg (by simp [relative])]
  split <;> simp only [String.utf8ByteSize_append] <;> omega

/-! ## Where they lead -/

/-- A step along an idle piece in front of another piece changes nothing: a folder stays where it is,
and behind a file there is no way on. -/
theorem foldlM_step_idle (tree : FileTree) (spot : Spot) {rest : List (List Char)}
    (some_piece : rest ≠ []) :
    ((idle k).map String.toList ++ rest).foldlM tree.step spot = rest.foldlM tree.step spot := by
  induction k with
  | zero => rfl
  | succ k ih =>
      obtain ⟨piece, later, rfl⟩ := List.exists_cons_of_ne_nil some_piece
      rw [idle_succ, List.map_cons, List.cons_append, List.foldlM_cons]
      -- a step from a file fails whatever comes next; a step within a folder along an idle piece
      -- stays
      cases spot with
      | file place content => rfl
      | folder place => exact ih

/-- **Idle pieces do not change where a path leads**, if it is not too long with them. -/
theorem find_ofNames_idle (tree : FileTree) (start : Place) (hf : ∀ q ∈ front, Part.IsName q)
    (hb : ∀ q ∈ back, Part.IsName q) (some_name : back ≠ [])
    (short : (ofNames (front ++ idle k ++ back)).text.utf8ByteSize ≤ 4095) :
    tree.find start (ofNames (front ++ idle k ++ back)) = tree.find start (ofNames (front ++ back)) := by
  have free := slash_notMem_idle (k := k) hf hb
  have plain := slash_notMem_idle (k := 0) hf hb
  rw [show idle 0 = [] from rfl, List.append_nil] at plain
  have same : (ofNames (front ++ idle k ++ back)).chars.contains '\x00' =
      (ofNames (front ++ back)).chars.contains '\x00' := by
    rw [Bool.eq_iff_iff, List.contains_iff_mem, List.contains_iff_mem, mem_chars_ofNames,
      mem_chars_ofNames]
    simp [idle, or_and_right, exists_or]
  have grown : (ofNames (front ++ idle k ++ back)).text.utf8ByteSize =
      (ofNames (front ++ back)).text.utf8ByteSize + k := utf8ByteSize_ofNames_idle some_name
  have written : ∀ names, (ofNames names).text ≠ "" := fun names => by simp [text_ofNames]
  have walked : ([] :: (front ++ idle k ++ back).map String.toList).foldlM tree.step (.folder []) =
      ([] :: (front ++ back).map String.toList).foldlM tree.step (.folder []) := by
    have some_piece : back.map String.toList ≠ [] := by simpa using some_name
    rw [List.map_append, List.map_append, List.map_append, ← List.cons_append, ← List.cons_append,
      ← List.cons_append, List.append_assoc, List.foldlM_append, List.foldlM_append]
    congr 1
    funext spot
    exact foldlM_step_idle tree spot some_piece
  have fits : ¬4095 < (ofNames (front ++ idle k ++ back)).text.utf8ByteSize := Nat.not_lt.mpr short
  have fits_plain : ¬4095 < (ofNames (front ++ back)).text.utf8ByteSize := by omega
  -- both paths pass the same checks, and then lead to the same place
  simp only [FileTree.find, same, written, fits, fits_plain, if_false, if_true, isAbsolute_ofNames,
    pieces_ofNames free (by simp [some_name]), pieces_ofNames plain (by simp [some_name]), walked]

/-- **A spelling that is too long** is that of no file. -/
theorem isFile_of_long {w : Workspace} {p : Path} (long : 4095 < p.text.utf8ByteSize) :
    w.isFile p = false := by
  unfold Workspace.isFile Workspace.find FileTree.find
  by_cases nul : p.chars.contains '\x00' = true
  · rw [if_pos nul]
  · by_cases empty : p.text = ""
    · rw [if_neg nul, if_pos empty]
    · rw [if_neg nul, if_neg empty, if_pos long]

end ScriptBundle.Path
