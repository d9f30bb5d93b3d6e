import Mathlib.Data.List.Induction
import Mathlib.Data.List.Infix
import ScriptBundle.Proofs.Path.Spelling

/-! # Folders of normal paths

The folder a normal path lies in is spelled by its names but the last, and so on up to the root:

* **`ancestors_ofNames_append`, `ancestors_ofNames_eq_inits`** — the path and the folders above it,
  innermost first;
* **`SpellFolder`, `exists_texts_of_mem_ancestors`** — the texts that spell the folders above a path,
  which need not be names;
* **`join_of_spellFolder`, `join_ofNames`, `append_ofNames`** — an entry of a folder, and a path with a
  longer last name;
* **`relative_of_parts_append`, `relative_folder`** — from its folder, a file is reached by its name. -/

namespace ScriptBundle.Path

variable {names : List String} {s e : String}

/-- A piece that stands for a `part` is not idle. -/
theorem dropIdle_of_ofPiece? (absolute : Bool) {piece : List Char} {part : Part}
    (read : Part.ofPiece? piece = some part) (rest : List (List Char)) :
    dropIdle absolute (piece :: rest) = piece :: rest := by
  rw [dropIdle, if_neg]
  rintro (nothing | ⟨dot, -⟩)
  · simp [nothing] at read
  · simp [dot] at read

/-- A name is no idle piece. -/
theorem dropIdle_toList (absolute : Bool) (hs : Part.IsName s) (rest : List (List Char)) :
    dropIdle absolute (s.toList :: rest) = s.toList :: rest :=
  dropIdle_of_ofPiece? absolute hs.ofPiece?_toList rest

/-- Names are no idle pieces. -/
theorem dropIdle_map_toList (absolute : Bool) (hs : ∀ s ∈ names, Part.IsName s) :
    dropIdle absolute (names.map String.toList) = names.map String.toList := by
  cases names with
  | nil => rfl
  | cons s rest => exact dropIdle_toList absolute (hs s (List.mem_cons_self ..)) _

/-- From no pieces there is no step up. -/
theorem ascend_nil (absolute : Bool) : ascend absolute [] = [] := by
  rw [ascend]
  rfl

/-- One step up from a part leads to the pieces in front of it. -/
theorem ascend_of_dropIdle {absolute : Bool} {reversed rest : List (List Char)} {piece : List Char}
    (h : dropIdle absolute reversed = piece :: rest) :
    ascend absolute reversed = dropIdle absolute rest :: ascend absolute (dropIdle absolute rest) := by
  rw [ascend]
  split
  · rename_i nothing
    rw [h] at nothing
    simp at nothing
  · rename_i something
    rw [h] at something
    obtain ⟨-, rfl⟩ := List.cons.inj something
    rfl

/-- One step up from a name leads to the pieces in front of it. -/
theorem ascend_cons (absolute : Bool) (hs : Part.IsName s) (rest : List (List Char)) :
    ascend absolute (s.toList :: rest) =
      dropIdle absolute rest :: ascend absolute (dropIdle absolute rest) :=
  ascend_of_dropIdle (dropIdle_toList absolute hs rest)

/-- The spelling of a folder above, from its reversed pieces. -/
theorem mk_intercalate (names : List String) :
    (⟨"/" ++ String.ofList (['/'].intercalate (names.map String.toList))⟩ : Path) =
      ofNames names := by
  have inner : String.ofList (['/'].intercalate (names.map String.toList)) =
      "/".intercalate names := by
    apply String.toList_injective
    simp
  rw [inner, ← text_ofNames]

/-- **The `ancestors` of a path spelled by texts without slashes**, in terms of the reversed texts. -/
theorem ancestors_ofNames (free : ∀ s ∈ names, '/' ∉ s.toList) :
    (ofNames names).ancestors = ofNames names ::
      (ascend true (names.reverse.map String.toList)).map fun reversed =>
        ⟨"/" ++ String.ofList (['/'].intercalate reversed.reverse)⟩ := by
  -- the root is spelled by one slash, and the pieces around it are both empty
  by_cases some_name : names = []
  · subst some_name
    have nothing : ascend true [[]] = [] := by
      rw [ascend]
      rfl
    simp [ancestors, pieces_ofNames_nil, nothing, ascend_nil]
  · simp [ancestors, pieces_ofNames free some_name]

/-- The root is its only ancestor. -/
theorem ancestors_ofNames_nil : (ofNames []).ancestors = [ofNames []] := by
  have free : ∀ s ∈ ([] : List String), '/' ∉ s.toList := by simp
  simp [ancestors_ofNames free, ascend_nil]

/-- **One step up from a name**, the folder being spelled without the idle pieces it ends in. -/
theorem ancestors_ofNames_concat {kept : List String} (free : ∀ q ∈ names, '/' ∉ q.toList)
    (free_kept : ∀ q ∈ kept, '/' ∉ q.toList) (hs : Part.IsName s)
    (drop : dropIdle true (names.reverse.map String.toList) = kept.reverse.map String.toList) :
    (ofNames (names ++ [s])).ancestors =
      ofNames (names ++ [s]) :: (ofNames kept).ancestors := by
  have all : ∀ q ∈ names ++ [s], '/' ∉ q.toList :=
    List.forall_mem_append.mpr ⟨free, List.forall_mem_singleton.mpr hs.slash_notMem⟩
  rw [ancestors_ofNames all, ancestors_ofNames free_kept, List.reverse_append,
    List.reverse_singleton, List.singleton_append, List.map_cons, ascend_cons true hs, drop,
    List.map_cons]
  congr 2
  rw [← mk_intercalate kept, List.map_reverse, List.reverse_reverse]

/-- **The path and the folders above it**, innermost first. -/
theorem ancestors_ofNames_append (hs : ∀ q ∈ names ++ [s], Part.IsName q) :
    (ofNames (names ++ [s])).ancestors =
      ofNames (names ++ [s]) :: (ofNames names).ancestors := by
  obtain ⟨front, last⟩ := List.forall_mem_append.mp hs
  have free : ∀ q ∈ names, '/' ∉ q.toList := fun q hq => (front q hq).slash_notMem
  refine ancestors_ofNames_concat free free (last s (List.mem_singleton_self s)) ?_
  exact dropIdle_map_toList true fun q hq => front q (List.mem_reverse.mp hq)

/-- **The folders above a path spelled by names** are spelled by its first names, down to none. -/
theorem ancestors_ofNames_eq_inits (hs : ∀ q ∈ names, Part.IsName q) :
    (ofNames names).ancestors = names.inits.reverse.map ofNames := by
  -- on the names from the back, as a step up takes the last one off
  induction names using List.reverseRecOn with
  | nil => exact ancestors_ofNames_nil
  | append_singleton names s ih =>
      rw [ancestors_ofNames_append hs, ih fun q hq => hs q (List.mem_append_left _ hq),
        List.inits_append]
      simp

/-- The folder of a path spelled by names. -/
theorem parent?_ofNames_append (hs : ∀ q ∈ names ++ [s], Part.IsName q) :
    (ofNames (names ++ [s])).parent? = some (ofNames names) := by
  have first : (ofNames names).ancestors[0]? = some (ofNames names) := rfl
  simp [parent?, ancestors_ofNames_append hs, first]

/-- The last name of a path spelled by names. -/
theorem fileName?_ofNames_append (hs : ∀ q ∈ names ++ [s], Part.IsName q) :
    (ofNames (names ++ [s])).fileName? = some s := by
  rw [fileName?, parts_ofNames hs, List.map_append, ← List.cons_append, List.map_singleton,
    List.getLast?_concat]

/-- The folders above an absolute path are absolute. -/
theorem isAbsolute_of_mem_ancestors {p q : Path} (hp : p.isAbsolute = true)
    (hq : q ∈ p.ancestors) : q.isAbsolute = true := by
  rcases List.mem_cons.mp hq with rfl | above
  · exact hp
  · rw [hp, if_pos rfl] at above
    obtain ⟨reversed, -, rfl⟩ := List.mem_map.mp above
    simp [isAbsolute, chars]

/-- What is dropped stands in front. -/
theorem dropIdle_suffix (absolute : Bool) (reversed : List (List Char)) :
    dropIdle absolute reversed <:+ reversed := by
  induction reversed with
  | nil => exact List.suffix_rfl
  | cons piece rest ih =>
      rw [dropIdle]
      split
      · exact ih.trans (List.suffix_cons piece rest)
      · exact List.suffix_rfl

/-- The folders above take pieces off, of the reversed ones in front. -/
theorem suffix_of_mem_ascend {absolute : Bool} {reversed above : List (List Char)}
    (h : above ∈ ascend absolute reversed) : above <:+ reversed := by
  -- along the recursion: each time the idle pieces, one part, and the idle pieces behind it go
  induction reversed using ascend.induct absolute with
  | case1 reversed nothing =>
      rw [ascend] at h
      split at h
      · exact absurd h List.not_mem_nil
      · rename_i something
        rw [nothing] at something
        exact absurd something (by simp)
  | case2 reversed piece rest something below ih =>
      rw [ascend] at h
      split at h
      · exact absurd h List.not_mem_nil
      · rename_i head tail same
        obtain ⟨rfl, rfl⟩ := List.cons.inj (something.symm.trans same)
        have taken : dropIdle absolute rest <:+ reversed :=
          (dropIdle_suffix absolute rest).trans
            ((List.suffix_cons piece rest).trans (something ▸ dropIdle_suffix absolute reversed))
        rcases List.mem_cons.mp h with rfl | further
        · exact taken
        · exact (ih further).trans taken

/-- No more pieces are dropped than stand in front. -/
theorem dropIdle_dropIdle (absolute : Bool) (reversed : List (List Char)) :
    dropIdle absolute (dropIdle absolute reversed) = dropIdle absolute reversed := by
  induction reversed with
  | nil => rfl
  | cons piece rest ih =>
      by_cases idle : piece = [] ∨ (piece = ['.'] ∧ (absolute = true ∨ rest ≠ []))
      · rw [dropIdle, if_pos idle]
        exact ih
      · rw [dropIdle, if_neg idle, dropIdle, if_neg idle]

/-- The folders above are without idle pieces at their ends. -/
theorem dropIdle_of_mem_ascend {absolute : Bool} {reversed above : List (List Char)}
    (h : above ∈ ascend absolute reversed) : dropIdle absolute above = above := by
  induction reversed using ascend.induct absolute with
  | case1 reversed nothing =>
      rw [ascend] at h
      split at h
      · exact absurd h List.not_mem_nil
      · rename_i something
        rw [nothing] at something
        exact absurd something (by simp)
  | case2 reversed piece rest something below ih =>
      rw [ascend] at h
      split at h
      · exact absurd h List.not_mem_nil
      · rename_i head tail same
        obtain ⟨rfl, rfl⟩ := List.cons.inj (something.symm.trans same)
        rcases List.mem_cons.mp h with rfl | further
        · exact dropIdle_dropIdle ..
        · exact ih further

/-- **Texts that spell a folder**: they hold no slash, and no idle piece stands behind the others. -/
def SpellFolder (names : List String) : Prop :=
  (∀ s ∈ names, '/' ∉ s.toList) ∧
    dropIdle true (names.reverse.map String.toList) = names.reverse.map String.toList

/-- **A folder above an absolute path** is spelled by texts that spell a folder, and by the first
`pieces` of the path. -/
theorem exists_texts_of_mem_ancestors {p a : Path} (hp : p.isAbsolute = true)
    (ha : a ∈ p.ancestors.tail) :
    ∃ names, SpellFolder names ∧ a = ofNames names ∧ names.map String.toList <+: p.pieces.tail := by
  rw [ancestors, List.tail_cons, hp, if_pos rfl, if_pos rfl] at ha
  obtain ⟨reversed, hreversed, rfl⟩ := List.mem_map.mp ha
  -- what is left of the pieces is a beginning of them
  have begins : reversed.reverse <+: p.pieces.tail := by
    have behind := List.reverse_prefix.mpr (suffix_of_mem_ascend hreversed)
    rwa [List.reverse_reverse] at behind
  have read : (reversed.reverse.map String.ofList).map String.toList = reversed.reverse := by
    simp [Function.comp_def]
  have turned : (reversed.reverse.map String.ofList).reverse.map String.toList = reversed := by
    rw [List.map_reverse, read, List.reverse_reverse]
  refine ⟨reversed.reverse.map String.ofList, ⟨fun s hs => ?_, ?_⟩, ?_, ?_⟩
  · obtain ⟨piece, hpiece, rfl⟩ := List.mem_map.mp hs
    have apart := notMem_of_mem_splitOn (List.mem_of_mem_tail (begins.subset hpiece))
    simpa using apart
  · rw [turned]
    exact dropIdle_of_mem_ascend hreversed
  · rw [← mk_intercalate, read]
  · rw [read]
    exact begins

/-- **The `parts` of an absolute path** are the root and what the pieces behind the first slash stand
for. -/
theorem parts_of_isAbsolute {p : Path} (hp : p.isAbsolute = true) :
    p.parts = .root :: p.pieces.tail.filterMap Part.ofPiece? := by
  obtain ⟨cs, first⟩ := List.head?_eq_some_iff.mp (by simpa [isAbsolute] using hp)
  simp [parts, hp, pieces, first, List.splitOn_cons_eq_if_modifyHead]

/-- **The `parts` of a folder above** are the first parts of the path, however the path is spelled. -/
theorem parts_prefix_of_mem_ancestors {p a : Path} (hp : p.isAbsolute = true)
    (ha : a ∈ p.ancestors) : a.parts <+: p.parts := by
  rcases List.mem_cons.mp ha with rfl | above
  · exact List.prefix_rfl
  obtain ⟨names, ⟨free, -⟩, rfl, rest, cut⟩ := exists_texts_of_mem_ancestors hp above
  rw [parts_ofNames_of_free free, parts_of_isAbsolute hp, ← cut, List.filterMap_append]
  exact List.prefix_append ..

/-- The folders above a normal path are normal. -/
theorem IsNormal.of_mem_ancestors {p q : Path} (hp : p.IsNormal) (hq : q ∈ p.ancestors) :
    q.IsNormal := by
  obtain ⟨names, hs, rfl⟩ := hp
  -- on the names from the back, as a step up takes the last one off
  induction names using List.reverseRecOn with
  | nil =>
      rw [ancestors_ofNames_nil, List.mem_singleton] at hq
      exact ⟨[], hs, hq⟩
  | append_singleton names s ih =>
      rw [ancestors_ofNames_append hs] at hq
      rcases List.mem_cons.mp hq with rfl | above
      · exact ⟨_, hs, rfl⟩
      · exact ih (fun q hq => hs q (List.mem_append_left _ hq)) above

/-! ## Entries -/

/-- The spelling of one name more. -/
theorem text_ofNames_append (some_name : names ≠ []) (s : String) :
    (ofNames (names ++ [s])).text = (ofNames names).text ++ "/" ++ s := by
  rw [text_ofNames, text_ofNames, String.intercalate_append_of_ne_nil some_name (by simp),
    String.intercalate_singleton, String.append_assoc, String.append_assoc, String.append_assoc]

/-- A path whose last text is not idle does not end in a slash, unless it is the root. -/
theorem getLast?_chars_of_spellFolder (folder : SpellFolder names) (some_name : names ≠ []) :
    (ofNames names).chars.getLast? ≠ some '/' := by
  obtain ⟨front, t, rfl⟩ := (List.eq_nil_or_concat' names).resolve_left some_name
  obtain ⟨free, drop⟩ := folder
  have apart : '/' ∉ t.toList := free t (by simp)
  have written : t.toList ≠ [] := by
    intro idle
    rw [List.reverse_append, List.reverse_singleton, List.singleton_append, List.map_cons, idle,
      dropIdle, if_pos (.inl rfl)] at drop
    have short := length_dropIdle_le true (front.reverse.map String.toList)
    rw [drop, List.length_cons] at short
    omega
  have ending : ∃ cs, (ofNames (front ++ [t])).chars = cs ++ t.toList := by
    by_cases h : front = []
    · exact ⟨['/'], by simp [chars, text_ofNames, h]⟩
    · exact ⟨(ofNames front).chars ++ ['/'], by simp [chars, text_ofNames_append h]⟩
  obtain ⟨cs, e⟩ := ending
  rw [e, List.getLast?_append_of_ne_nil _ written]
  exact fun last => apart (List.mem_of_getLast? last)

/-- Names spell a folder. -/
theorem spellFolder_of_isName (hs : ∀ q ∈ names, Part.IsName q) : SpellFolder names :=
  ⟨fun q hq => (hs q hq).slash_notMem,
    dropIdle_map_toList true fun q hq => hs q (List.mem_reverse.mp hq)⟩

/-- A name is no absolute path. -/
theorem isAbsolute_of_isName (hs : Part.IsName s) : (Path.mk s).isAbsolute = false := by
  have notFirst : s.toList.head? ≠ some '/' := fun h => hs.slash_notMem (List.mem_of_head? h)
  simpa [isAbsolute, chars] using notFirst

/-- **An entry of a folder**: one name more. -/
theorem join_of_spellFolder (folder : SpellFolder names) (hs : Part.IsName s) :
    (ofNames names).join ⟨s⟩ = ofNames (names ++ [s]) := by
  rw [join, if_neg (by simp [isAbsolute_of_isName hs])]
  by_cases some_name : names = []
  · subst some_name
    rw [if_pos (.inr (by simp [chars, text_ofNames]))]
    show (⟨(ofNames []).text ++ s⟩ : Path) = ⟨(ofNames [s]).text⟩
    simp [text_ofNames]
  · have written : (ofNames names).text ≠ "" := by
      simp [text_ofNames]
    rw [if_neg (not_or.mpr ⟨written, getLast?_chars_of_spellFolder folder some_name⟩),
      ← text_ofNames_append some_name]

/-- **An entry of a folder spelled by names** is spelled by one name more. -/
theorem join_ofNames (h : ∀ q ∈ names, Part.IsName q) (hs : Part.IsName s) :
    (ofNames names).join ⟨s⟩ = ofNames (names ++ [s]) :=
  join_of_spellFolder (spellFolder_of_isName h) hs

/-- A name with a text without slashes behind it is a name. -/
theorem isName_append (hs : Part.IsName s) (free : '/' ∉ e.toList) : Part.IsName (s ++ e) := by
  obtain ⟨c, cs, hcs⟩ := List.exists_cons_of_ne_nil hs.toList_ne_nil
  -- a longer text could only be dots if the name itself was
  have dot := hs.toList_ne_dot
  have dots := hs.toList_ne_dots
  have spelled : (s ++ e).toList = c :: (cs ++ e.toList) := by simp [hcs]
  rw [hcs] at dot dots
  refine ⟨fun h => ?_, fun h => ?_, fun h => ?_, by simp [hs.slash_notMem, free]⟩ <;>
    rw [h] at spelled
  · simp at spelled
  · obtain ⟨rfl, h⟩ := List.cons.inj (spelled.symm.trans (by rfl : ".".toList = ['.']))
    exact dot (by rw [(List.append_eq_nil_iff.mp h).1])
  · obtain ⟨rfl, h⟩ := List.cons.inj (spelled.symm.trans (by rfl : "..".toList = ['.', '.']))
    rcases List.append_eq_singleton_iff.mp h with ⟨rfl, -⟩ | ⟨rfl, -⟩
    · exact dot rfl
    · exact dots rfl

/-- **A path with a longer last name.** -/
theorem append_ofNames (names : List String) (s e : String) :
    (ofNames (names ++ [s])).append e = ofNames (names ++ [s ++ e]) := by
  by_cases some_name : names = []
  · subst some_name
    show (⟨(ofNames [s]).text ++ e⟩ : Path) = ⟨(ofNames [s ++ e]).text⟩
    simp [text_ofNames, String.append_assoc]
  · show (⟨(ofNames (names ++ [s])).text ++ e⟩ : Path) = ⟨(ofNames (names ++ [s ++ e])).text⟩
    simp [text_ofNames_append some_name, String.append_assoc]

/-- A list shares all its `parts` with one that goes on behind it. -/
theorem sharedParts_append (parts rest : List Part) :
    sharedParts parts (parts ++ rest) = parts.length := by
  induction parts with
  | nil => cases rest <;> rfl
  | cons part parts ih => simp [sharedParts, ih]

/-- **From its folder, a file is reached by its name**, however both are spelled. -/
theorem relative_of_parts_append {folder p : Path} (rooted : folder.isAbsolute = true)
    (whole : p.parts = folder.parts ++ [.name s]) : relative folder p = ⟨s⟩ := by
  have some_part : folder.parts.length ≠ 0 := by simp [parts_of_isAbsolute rooted]
  rw [relative, whole, sharedParts_append, if_neg some_part, Nat.sub_self, List.drop_left]
  simp [ofParts, Part.text]

/-- From its folder, a file spelled by names is reached by the last of them. -/
theorem relative_folder (hs : ∀ q ∈ names ++ [s], Part.IsName q) :
    relative (ofNames names) (ofNames (names ++ [s])) = ⟨s⟩ := by
  have front : ∀ q ∈ names, Part.IsName q := fun q hq => hs q (List.mem_append_left _ hq)
  refine relative_of_parts_append (isAbsolute_ofNames names) ?_
  rw [parts_ofNames hs, parts_ofNames front, List.map_append, List.map_singleton, List.cons_append]

end ScriptBundle.Path
