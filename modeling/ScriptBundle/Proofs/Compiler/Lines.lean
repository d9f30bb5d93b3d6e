import ScriptBundle.Compiler.Definition
import ScriptBundle.Proofs.Path.Joining
import ScriptBundle.Proofs.Text.Words

/-! # Lines of compiler definitions

A line gives a definition by its extensions, which are written with commas, and by its words. Every line
with an equals sign and a word behind it gives one, whatever blanks and empty items it holds, and the
rendered line of a definition gives the definition again:

* **`Listed`, `items_intercalate`, `items_eq_iff`** — the items of a list that is written with commas;
* **`Definition.IsGivenBy`** — the lines that give a definition;
* **`Definition.ofText_eq_ok_iff`, `Definition.ofText_eq_error_iff`** — what a line gives, and which
  lines give nothing;
* **`Definition.IsWritable`** — the definitions that can be written;
* **`Definition.lines_round_trip`** — lines and definitions, each from the other. -/

namespace ScriptBundle.Compiler

open Text (isBlank IsTrimmed IsWord Spaced trim trim_eq_iff trim_eq_nil_iff)

variable {cs piece item : List Char} {pieces its : List (List Char)}

/-! ## Items -/

/-- **What `pieces` list**: each is an item with any blanks around it, or blank. -/
inductive Listed : List (List Char) → List (List Char) → Prop
  /-- No piece lists no item. -/
  | nil : Listed [] []
  /-- A blank piece lists nothing. -/
  | idle {piece : List Char} {pieces its : List (List Char)} (blank : ∀ c ∈ piece, isBlank c = true)
      (listed : Listed pieces its) : Listed (piece :: pieces) its
  /-- A piece lists the item it has blanks around. -/
  | item {front item back : List Char} {pieces its : List (List Char)}
      (blank : ∀ c ∈ front, isBlank c = true) (trimmed : IsTrimmed item) (full : item ≠ [])
      (blank' : ∀ c ∈ back, isBlank c = true) (listed : Listed pieces its) :
      Listed ((front ++ item ++ back) :: pieces) (item :: its)

/-- **What `pieces` list** is what is left of them. -/
theorem listed_iff :
    Listed pieces its ↔ (pieces.map trim).filter (fun item => !item.isEmpty) = its := by
  constructor
  · intro listed
    induction listed with
    | nil => rfl
    | idle blank _ ih => simp [trim_eq_nil_iff.mpr blank, ih]
    | item blank trimmed full blank' _ ih =>
        have left := Text.trim_surrounded trimmed blank blank'
        rw [List.map_cons, left, List.filter_cons_of_pos (by simpa using full), ih]
  · rintro rfl
    induction pieces with
    | nil => exact .nil
    | cons piece pieces ih =>
        rw [List.map_cons]
        by_cases empty : trim piece = []
        · rw [List.filter_cons_of_neg (by simp [empty])]
          exact .idle (trim_eq_nil_iff.mp empty) ih
        · rw [List.filter_cons_of_pos (by simpa using empty)]
          obtain ⟨trimmed, front, back, whole, blank, blank'⟩ := trim_eq_iff.mp (Eq.refl (trim piece))
          have listed := Listed.item blank trimmed empty blank' ih
          rwa [← whole] at listed

/-- **The `items` of pieces with commas between them**, none of which holds a comma. -/
theorem items_intercalate (free : ∀ piece ∈ pieces, ',' ∉ piece) (some_piece : pieces ≠ []) :
    items ([','].intercalate pieces) =
      (pieces.map trim).filter (fun item => !item.isEmpty) := by
  rw [items, List.splitOn_intercalate ',' free some_piece]

/-- **A text that lists items**: its `pieces` between commas do. -/
def Lists (cs : List Char) (its : List (List Char)) : Prop :=
  ∃ pieces, pieces ≠ [] ∧ (∀ piece ∈ pieces, ',' ∉ piece) ∧ cs = [','].intercalate pieces ∧
    Listed pieces its

/-- **The `items` of a text** are those it lists. -/
theorem items_eq_iff : items cs = its ↔ Lists cs its := by
  constructor
  · rintro rfl
    exact ⟨cs.splitOn ',', List.splitOn_ne_nil ',' cs, fun piece => notMem_of_mem_splitOn,
      (List.intercalate_splitOn ',').symm, listed_iff.mpr rfl⟩
  · rintro ⟨pieces, some_piece, free, rfl, listed⟩
    rw [items_intercalate free some_piece, listed_iff.mp listed]

/-- An item is trimmed, is not empty, and stands in one of the `pieces`. -/
theorem Listed.of_mem (h : Listed pieces its) (mem : item ∈ its) :
    IsTrimmed item ∧ item ≠ [] ∧ ∃ piece ∈ pieces, item ⊆ piece := by
  induction h with
  | nil => simp at mem
  | idle _ _ ih =>
      obtain ⟨trimmed, full, piece, among, part⟩ := ih mem
      exact ⟨trimmed, full, piece, List.mem_cons_of_mem _ among, part⟩
  | item _ trimmed full _ _ ih =>
      rcases List.mem_cons.mp mem with rfl | later
      · refine ⟨trimmed, full, _, List.mem_cons_self, fun c hc => ?_⟩
        exact List.mem_append_left _ (List.mem_append_right _ hc)
      · obtain ⟨trimmed, full, piece, among, part⟩ := ih later
        exact ⟨trimmed, full, piece, List.mem_cons_of_mem _ among, part⟩

/-- Trimmed pieces list themselves. -/
theorem listed_self (trimmed : ∀ item ∈ its, IsTrimmed item ∧ item ≠ []) : Listed its its := by
  induction its with
  | nil => exact .nil
  | cons item its ih =>
      obtain ⟨⟨edges, full⟩, later⟩ := List.forall_mem_cons.mp trimmed
      have listed := Listed.item (List.forall_mem_nil _) edges full (List.forall_mem_nil _) (ih later)
      simpa using listed

/-- Pieces with separators between them hold what the `pieces` hold and, from two pieces on, what the
separator holds. -/
theorem mem_intercalate {c : Char} {separator : List Char} : c ∈ separator.intercalate pieces ↔
    (∃ piece ∈ pieces, c ∈ piece) ∨ (c ∈ separator ∧ 2 ≤ pieces.length) := by
  induction pieces with
  | nil => simp
  | cons first rest ih =>
      cases rest with
      | nil => simp
      | cons second rest =>
          have two : 2 ≤ (first :: second :: rest).length := by simp
          rw [List.intercalate_cons_cons, List.mem_append, List.mem_append, ih,
            List.exists_mem_cons_iff _ first]
          grind

/-- **An item of a text** is trimmed, is not empty, holds no comma, and is part of the text. -/
theorem Lists.of_mem (h : Lists cs its) (mem : item ∈ its) :
    IsTrimmed item ∧ item ≠ [] ∧ ',' ∉ item ∧ item ⊆ cs := by
  obtain ⟨pieces, -, free, rfl, listed⟩ := h
  obtain ⟨trimmed, full, piece, among, part⟩ := listed.of_mem mem
  refine ⟨trimmed, full, fun comma => free piece among (part comma), fun c hc => ?_⟩
  exact mem_intercalate.mpr (.inl ⟨piece, among, part hc⟩)

/-- **Items with commas between them** are listed. -/
theorem lists_intercalate (trimmed : ∀ item ∈ its, IsTrimmed item ∧ item ≠ [])
    (free : ∀ item ∈ its, ',' ∉ item) : Lists ([','].intercalate its) its := by
  cases its with
  | nil => exact ⟨[[]], by simp, by simp, rfl, .idle (List.forall_mem_nil _) .nil⟩
  | cons item its => exact ⟨item :: its, by simp, free, rfl, listed_self trimmed⟩

namespace Definition

variable {line : String} {d : Definition} {front behind : List Char}

/-! ## Lines -/

/-- **A `line` that gives a definition**: it lists the extensions in front of its first equals sign, and
has the words behind it. -/
def IsGivenBy (d : Definition) (line : String) : Prop :=
  ∃ front behind, line.toList = front ++ '=' :: behind ∧ '=' ∉ front ∧
    Lists front (d.extensions.map String.toList) ∧
    Spaced behind ((d.program :: d.arguments).map String.toList)

/-- **A `line` without a program**: behind its first equals sign are only blanks. -/
def NamesNothing (line : String) : Prop :=
  ∃ front behind, line.toList = front ++ '=' :: behind ∧ '=' ∉ front ∧ ∀ c ∈ behind, isBlank c = true

/-- A `line` is cut at its first equals sign. -/
theorem cut_line (whole : line.toList = front ++ '=' :: behind) (first : '=' ∉ front) :
    line.toList.takeWhile (· ≠ '=') = front ∧ line.toList.dropWhile (· ≠ '=') = '=' :: behind := by
  have other : ∀ c ∈ front, decide (c ≠ '=') = true := by
    intro c hc
    simpa using fun e : c = '=' => first (e ▸ hc)
  rw [whole, List.takeWhile_append_of_pos other, List.dropWhile_append_of_pos other]
  simp

/-- **A `line` with words** behind its first equals sign gives the items in front of it and these words. -/
theorem ofText_of_words {program : List Char} {arguments : List (List Char)}
    (whole : line.toList = front ++ '=' :: behind) (first : '=' ∉ front)
    (words : Text.words behind = program :: arguments) :
    ofText line =
      .ok ⟨(items front).map String.ofList, String.ofList program, arguments.map String.ofList⟩ := by
  obtain ⟨before, rest⟩ := cut_line whole first
  simp only [ofText, before, rest, words]

/-- **A `line` without words** behind its first equals sign gives nothing. -/
theorem ofText_of_no_words (whole : line.toList = front ++ '=' :: behind) (first : '=' ∉ front)
    (words : Text.words behind = []) : ofText line = .error (.noProgram line) := by
  obtain ⟨-, rest⟩ := cut_line whole first
  simp only [ofText, rest, words]

/-- Texts are told by their characters. -/
theorem map_ofList_eq_iff {css : List (List Char)} {texts : List String} :
    css.map String.ofList = texts ↔ css = texts.map String.toList := by
  constructor
  · rintro rfl
    simp
  · rintro rfl
    simp

/-- A `line` that is cut gives a definition exactly if its items and words are those of it. -/
theorem ofText_eq_ok_iff_of_cut (whole : line.toList = front ++ '=' :: behind) (first : '=' ∉ front) :
    ofText line = .ok d ↔ Lists front (d.extensions.map String.toList) ∧
      Spaced behind ((d.program :: d.arguments).map String.toList) := by
  rw [← items_eq_iff, ← Text.words_eq_iff, ← map_ofList_eq_iff, ← map_ofList_eq_iff]
  obtain ⟨extensions, program, arguments⟩ := d
  cases words : Text.words behind with
  | nil => simp [ofText_of_no_words whole first words]
  | cons w ws => simp [ofText_of_words whole first words]

/-- **What a `line` gives**: exactly the definitions it is a line of. -/
theorem ofText_eq_ok_iff : ofText line = .ok d ↔ d.IsGivenBy line := by
  constructor
  · intro h
    by_cases sign : '=' ∈ line.toList
    · obtain ⟨front, behind, whole, first⟩ := List.eq_append_cons_of_mem sign
      exact ⟨front, behind, whole, first, (ofText_eq_ok_iff_of_cut whole first).mp h⟩
    · rw [ofText_of_notMem sign] at h
      cases h
  · rintro ⟨front, behind, whole, first, given⟩
    exact (ofText_eq_ok_iff_of_cut whole first).mpr given

/-- **A `line` is rejected** exactly if it has no equals sign or names nothing behind the first. -/
theorem ofText_eq_error_iff {e : DefinitionError} : ofText line = .error e ↔
    (e = .noSign line ∧ '=' ∉ line.toList) ∨ (e = .noProgram line ∧ NamesNothing line) := by
  by_cases sign : '=' ∈ line.toList
  · obtain ⟨front, behind, whole, first⟩ := List.eq_append_cons_of_mem sign
    have nothing : NamesNothing line ↔ Text.words behind = [] := by
      rw [Text.words_eq_nil_iff]
      constructor
      · rintro ⟨front', behind', whole', first', blank⟩
        -- the first equals sign stands in one place only
        have same := (cut_line whole first).2.symm.trans (cut_line whole' first').2
        obtain ⟨-, rfl⟩ := List.cons.inj same
        exact blank
      · intro blank
        exact ⟨front, behind, whole, first, blank⟩
    rw [nothing]
    cases words : Text.words behind with
    | nil => simp [ofText_of_no_words whole first words, sign, eq_comm]
    | cons w ws => simp [ofText_of_words whole first words, sign]
  · have no_cut : ¬ NamesNothing line := by
      rintro ⟨front, behind, whole, -, -⟩
      exact sign (by simp [whole])
    rw [ofText_of_notMem sign]
    simp [sign, no_cut, eq_comm]

/-! ## Definitions that can be written -/

/-- **A definition that can be written**: its `extensions` are trimmed and hold neither commas nor equals
signs, and its program and arguments are words. -/
structure IsWritable (d : Definition) : Prop where
  /-- The extensions are trimmed and not empty. -/
  trimmed : ∀ e ∈ d.extensions, IsTrimmed e.toList ∧ e.toList ≠ []
  /-- No extension holds a comma. -/
  no_comma : ∀ e ∈ d.extensions, ',' ∉ e.toList
  /-- No extension holds an equals sign. -/
  no_sign : ∀ e ∈ d.extensions, '=' ∉ e.toList
  /-- The program and the arguments are words. -/
  words : ∀ w ∈ d.program :: d.arguments, IsWord w.toList

/-- **What a `line` gives** can be written. -/
theorem IsGivenBy.isWritable (h : d.IsGivenBy line) : d.IsWritable := by
  obtain ⟨front, behind, -, first, lists, spaced⟩ := h
  have of_mem (e : String) (he : e ∈ d.extensions) := lists.of_mem (List.mem_map_of_mem he)
  constructor
  · intro e he
    obtain ⟨trimmed, full, -, -⟩ := of_mem e he
    exact ⟨trimmed, full⟩
  · intro e he
    obtain ⟨-, -, comma, -⟩ := of_mem e he
    exact comma
  · intro e he sign
    obtain ⟨-, -, -, part⟩ := of_mem e he
    exact first (part sign)
  · intro w hw
    exact spaced.isWord _ (List.mem_map_of_mem hw)

/-- **The rendered line** of a definition that can be written gives it. -/
theorem IsWritable.isGivenBy_render (h : d.IsWritable) : d.IsGivenBy d.render := by
  have whole : d.render.toList = [','].intercalate (d.extensions.map String.toList) ++
      '=' :: [' '].intercalate ((d.program :: d.arguments).map String.toList) := by
    simp [render]
  refine ⟨_, _, whole, ?_, lists_intercalate ?_ ?_, Text.spaced_intercalate ?_⟩
  · intro sign
    -- the first equals sign of the line is the one between the two halves
    rcases mem_intercalate.mp sign with ⟨piece, among, held⟩ | ⟨comma, -⟩
    · obtain ⟨e, he, rfl⟩ := List.mem_map.mp among
      exact h.no_sign e he held
    · simp at comma
  · exact List.forall_mem_map.mpr h.trimmed
  · exact List.forall_mem_map.mpr h.no_comma
  · exact List.forall_mem_map.mpr h.words

/-- **Lines and definitions.** The `line` of a definition that can be written gives that definition. What
a line gives are the extensions it lists and the words it has, whatever blanks and empty items stand
between them. It is rejected exactly if it has no equals sign, or only blanks behind the first. What it
gives can be written, and its rendered line gives the same again. -/
theorem lines_round_trip :
    (∀ extensions program arguments, IsWritable ⟨extensions, program, arguments⟩ →
      ofText (",".intercalate extensions ++ "=" ++ " ".intercalate (program :: arguments)) =
        .ok ⟨extensions, program, arguments⟩) ∧
    (∀ line d, ofText line = .ok d ↔ d.IsGivenBy line) ∧
    (∀ line e, ofText line = .error e ↔
      (e = .noSign line ∧ '=' ∉ line.toList) ∨ (e = .noProgram line ∧ NamesNothing line)) ∧
    ∀ line d, ofText line = .ok d → d.IsWritable ∧ ofText d.render = .ok d := by
  have rendered (d : Definition) (h : d.IsWritable) : ofText d.render = .ok d :=
    ofText_eq_ok_iff.mpr h.isGivenBy_render
  refine ⟨?_, fun line d => ofText_eq_ok_iff, fun line e => ofText_eq_error_iff, ?_⟩
  · intro extensions program arguments writable
    exact rendered ⟨extensions, program, arguments⟩ writable
  · intro line d given
    have writable := (ofText_eq_ok_iff.mp given).isWritable
    exact ⟨writable, rendered d writable⟩

/-- A definition with two extensions and an argument that holds an equals sign, from a line with blanks
and an empty item. -/
theorem lines_round_trip_coffee :
    let d : Definition := ⟨[".coffee", ".litcoffee"], "coffee", ["-b", "--map=inline"]⟩
    IsWritable d ∧ d.IsGivenBy " .coffee ,, .litcoffee = coffee  -b --map=inline" ∧
      ofText ".coffee,.litcoffee=coffee -b --map=inline" = .ok d ∧ NamesNothing ".coffee= " := by
  intro d
  obtain ⟨written, given, rejected, again⟩ := lines_round_trip
  have read : ofText " .coffee ,, .litcoffee = coffee  -b --map=inline" = .ok d := by decide +kernel
  obtain ⟨writable, -⟩ := again _ d read
  have empty : ofText ".coffee= " = .error (.noProgram ".coffee= ") := by decide +kernel
  obtain ⟨no_sign, -⟩ | ⟨-, nothing⟩ := (rejected _ _).mp empty
  · cases no_sign
  · have joined := written d.extensions d.program d.arguments writable
    have line : ",".intercalate d.extensions ++ "=" ++ " ".intercalate (d.program :: d.arguments) =
        ".coffee,.litcoffee=coffee -b --map=inline" := by decide +kernel
    rw [line] at joined
    exact ⟨writable, (given _ d).mp read, joined, nothing⟩

end Definition

end ScriptBundle.Compiler
