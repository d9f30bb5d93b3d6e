import Mathlib.Data.List.Find
import ScriptBundle.Proofs.Json.Written

/-! # The loader filled in

The head of an artifact is the loader with its placeholders replaced one after the other. It should be
the loader with all of them replaced at once. The two are the same unless the name of the entry script
holds a placeholder that is looked for later: this one is replaced within the name, and brings brackets
into it.

* **`Loader.fillAtOnce`** — all placeholders of a text replaced at once;
* **`Text.count_lt_substitute`** — a text in which a pattern occurs gets the characters that are put in;
* **`Loader.fill_eq_self_iff`** — filling in leaves a text as it is if no placeholder occurs in it, and
  only then, if what is put in brings a new character;
* **`Loader.toList_text_eq`** — the loader, cut at its placeholders; **`Loader.IsFilling.text`** — it is
  filled in there, whichever way, and nowhere else;
* **`Artifact.header_fills_loader`** — the head, and when it is the loader filled in at once. -/

namespace ScriptBundle

namespace Text

variable {pattern replacement cs : List Char} {c : Char}

/-- What is put in takes away no character that is not in the pattern. -/
theorem count_le_substitute (some_char : pattern ≠ []) (apart : c ∉ pattern) (cs : List Char) :
    cs.count c ≤ (substitute pattern replacement cs).count c := by
  induction cs using substitute_induction some_char with
  | ended => exact Nat.zero_le _
  | occurrence rest ih =>
      rw [substitute_append some_char, List.count_append, List.count_append,
        List.count_eq_zero_of_not_mem apart]
      omega
  | char d cs none ih =>
      rw [substitute_cons none, List.count_cons, List.count_cons]
      omega

/-- **Where a pattern occurs, the characters of what is put in become more.** -/
theorem count_lt_substitute (apart : c ∉ pattern) (brought : c ∈ replacement) (some_char : pattern ≠ [])
    (occurs : pattern <:+: cs) : cs.count c < (substitute pattern replacement cs).count c := by
  induction cs using substitute_induction some_char with
  | ended => exact absurd (List.infix_nil.mp occurs) some_char
  | occurrence rest ih =>
      have later : rest.count c ≤ (substitute pattern replacement rest).count c :=
        count_le_substitute some_char apart rest
      have some_here := List.count_pos_iff.mpr brought
      rw [substitute_append some_char, List.count_append, List.count_append,
        List.count_eq_zero_of_not_mem apart]
      omega
  | char d cs none ih =>
      have later := ih ((List.infix_cons_iff.mp occurs).resolve_left none)
      rw [substitute_cons none, List.count_cons, List.count_cons]
      omega

end Text

/-! ## Placeholders in JSON texts -/

namespace Json

variable {pattern : List Char} {c : Char} {s : String} {items : List String}

/-- Characters of placeholders are written as themselves. -/
theorem quoteChar_of_isMarkChar (mark : isMarkChar c = true) : quoteChar c = [c] := by
  have letter : 0x20 ≤ c.toNat := by
    rcases Bool.or_eq_true_iff.mp mark with low_line | upper
    · obtain rfl : c = '_' := by simpa using low_line
      decide
    · have range : 65 ≤ c.toNat := UInt32.le_iff_toNat_le.mp (of_decide_eq_true upper).1
      omega
  unfold quoteChar
  split_ifs with quote slash b f n r t control
  · subst quote
    exact absurd mark (by decide)
  · subst slash
    exact absurd mark (by decide)
  · subst b
    exact absurd mark (by decide)
  · subst f
    exact absurd mark (by decide)
  · subst n
    exact absurd mark (by decide)
  · subst r
    exact absurd mark (by decide)
  · subst t
    exact absurd mark (by decide)
  · omega
  · rfl

/-- **A placeholder occurs in the JSON text of a string exactly if it does in the string.** -/
theorem infix_quote_iff (some_char : pattern ≠ []) (marks : ∀ c ∈ pattern, isMarkChar c = true) :
    pattern <:+: (quote s).toList ↔ pattern <:+: s.toList := by
  have spelled : (quote s).toList = [] ++ '\x22' :: (s.toList.flatMap quoteChar ++ '\x22' :: []) := by
    simp [quote]
  have apart : '\x22' ∉ pattern := fun h => absurd (marks _ h) (by decide)
  rw [spelled, Text.infix_append_cons_iff apart, Text.infix_append_cons_iff apart]
  constructor
  · rintro (nothing | inner | nothing)
    · exact absurd (List.infix_nil.mp nothing) some_char
    · exact infix_of_infix_quoted some_char marks inner
    · exact absurd (List.infix_nil.mp nothing) some_char
  · rintro ⟨front, back, whole⟩
    have itself : pattern.flatMap quoteChar = pattern := by
      clear some_char apart whole
      induction pattern with
      | nil => rfl
      | cons c pattern ih =>
          obtain ⟨here, later⟩ := List.forall_mem_cons.mp marks
          rw [List.flatMap_cons, quoteChar_of_isMarkChar here, ih later, List.singleton_append]
    refine .inr (.inl ⟨front.flatMap quoteChar, back.flatMap quoteChar, ?_⟩)
    rw [← whole, List.flatMap_append, List.flatMap_append, itself]

/-- A placeholder in the JSON text of a list of strings occurs in one of them. -/
theorem exists_infix_of_infix_quoteAll (some_char : pattern ≠ [])
    (marks : ∀ c ∈ pattern, isMarkChar c = true) (h : pattern <:+: (quoteAll items).toList) :
    ∃ s ∈ items, pattern <:+: s.toList := by
  have apart {c : Char} (other : isMarkChar c = false) : c ∉ pattern := fun h =>
    absurd ((marks _ h).symm.trans other) (by decide)
  have alone {c : Char} {rest : List Char} (other : isMarkChar c = false)
      (h : pattern <:+: c :: rest) : pattern <:+: rest := by
    refine (List.infix_cons_iff.mp h).resolve_left fun first => ?_
    obtain ⟨p, letters, rfl⟩ := List.exists_cons_of_ne_nil some_char
    obtain ⟨rfl, -⟩ := List.cons_prefix_cons.mp first
    exact apart other List.mem_cons_self
  have spelled : (quoteAll items).toList =
      '[' :: ((",".intercalate (items.map quote)).toList ++ ']' :: []) := by
    simp [quoteAll]
  rw [spelled] at h
  replace h := (Text.infix_append_cons_iff (apart (by decide))).mp (alone (by decide) h)
  replace h := h.resolve_right fun nothing => some_char (List.infix_nil.mp nothing)
  rw [String.toList_intercalate] at h
  clear spelled
  induction items with
  | nil => exact absurd (List.infix_nil.mp h) some_char
  | cons s items ih =>
      cases items with
      | nil =>
          have single : pattern <:+: (quote s).toList := by simpa using h
          exact ⟨s, List.mem_cons_self, (infix_quote_iff some_char marks).mp single⟩
      | cons t items =>
          rw [List.map_cons, List.map_cons, List.map_cons, List.map_cons,
            List.intercalate_cons_cons, List.append_assoc] at h
          rcases (Text.infix_append_cons_iff (apart (by decide))).mp h with first | later
          · exact ⟨s, List.mem_cons_self, (infix_quote_iff some_char marks).mp first⟩
          · obtain ⟨u, hu, occurs⟩ := ih later
            exact ⟨u, List.mem_cons_of_mem _ hu, occurs⟩

end Json

namespace Loader

/-! ## Filling in at once -/

/-- The placeholders of the rest of a text filled in, of which some characters belong to one that has
been. -/
def fillAtOnceFrom (marks : List (String × String)) : Nat → List Char → List Char
  | _, [] => []
  | skipped + 1, _ :: cs => fillAtOnceFrom marks skipped cs
  | 0, c :: cs =>
    match marks.find? fun mark => mark.1.toList.isPrefixOf (c :: cs) with
    | some mark => mark.2.toList ++ fillAtOnceFrom marks (mark.1.toList.length - 1) cs
    | none => c :: fillAtOnceFrom marks 0 cs

/-- **A text with all placeholders filled in at once.** What has been put in is not searched. -/
def fillAtOnce (marks : List (String × String)) (cs : List Char) : List Char :=
  fillAtOnceFrom marks 0 cs

variable {marks : List (String × String)} {cs front back : List Char} {c : Char}

/-- A character with which no placeholder begins is kept. -/
theorem fillAtOnceFrom_of_none
    (unmarked : marks.find? (fun mark => mark.1.toList.isPrefixOf (c :: cs)) = none) :
    fillAtOnceFrom marks 0 (c :: cs) = c :: fillAtOnceFrom marks 0 cs := by
  simp only [fillAtOnceFrom, unmarked]

/-- A placeholder is replaced, and passed over. -/
theorem fillAtOnceFrom_of_some {mark : String × String}
    (found : marks.find? (fun mark => mark.1.toList.isPrefixOf (c :: cs)) = some mark) :
    fillAtOnceFrom marks 0 (c :: cs) =
      mark.2.toList ++ fillAtOnceFrom marks (mark.1.toList.length - 1) cs := by
  simp only [fillAtOnceFrom, found]

/-- A character that is in no placeholder cuts the rest of a text in two, behind what is skipped. -/
theorem fillAtOnceFrom_append_cons (some_char : ∀ mark ∈ marks, mark.1.toList ≠ [])
    (apart : ∀ mark ∈ marks, c ∉ mark.1.toList) {skipped : Nat} (few : skipped ≤ front.length)
    (back : List Char) : fillAtOnceFrom marks skipped (front ++ c :: back) =
      fillAtOnceFrom marks skipped front ++ c :: fillAtOnceFrom marks 0 back := by
  induction front generalizing skipped with
  | nil =>
      obtain rfl := Nat.le_zero.mp few
      refine fillAtOnceFrom_of_none (List.find?_eq_none.mpr fun mark hmark first => ?_)
      obtain ⟨p, rest, spelled⟩ := List.exists_cons_of_ne_nil (some_char mark hmark)
      rw [spelled, List.isPrefixOf_iff_prefix, List.cons_prefix_cons] at first
      exact apart mark hmark (spelled ▸ first.1 ▸ List.mem_cons_self)
  | cons d front ih =>
      cases skipped with
      | succ skipped => exact ih (Nat.le_of_succ_le_succ few)
      | zero =>
          have same : marks.find? (fun mark => mark.1.toList.isPrefixOf (d :: (front ++ c :: back))) =
              marks.find? fun mark => mark.1.toList.isPrefixOf (d :: front) :=
            List.find?_congr fun mark hmark =>
              Text.isPrefixOf_append_cons (apart mark hmark) (d :: front) back
          rw [List.cons_append]
          cases found : marks.find? fun mark => mark.1.toList.isPrefixOf (d :: front) with
          | none =>
              rw [fillAtOnceFrom_of_none (same.trans found), fillAtOnceFrom_of_none found,
                ih (Nat.zero_le _), List.cons_append]
          | some mark =>
              have first := List.find?_some
                (p := fun mark : String × String => mark.1.toList.isPrefixOf (d :: front)) found
              have short := (List.isPrefixOf_iff_prefix.mp first).length_le
              rw [List.length_cons] at short
              rw [fillAtOnceFrom_of_some (same.trans found), fillAtOnceFrom_of_some found,
                ih (by omega), List.append_assoc]

/-- A text without placeholders is left as it is. -/
theorem fillAtOnce_of_absent (absent : ∀ mark ∈ marks, ¬mark.1.toList <:+: cs) :
    fillAtOnce marks cs = cs := by
  unfold fillAtOnce
  induction cs with
  | nil => rfl
  | cons c cs ih =>
      have unmarked : marks.find? (fun mark => mark.1.toList.isPrefixOf (c :: cs)) = none :=
        List.find?_eq_none.mpr fun mark hmark first =>
          absent mark hmark (List.isPrefixOf_iff_prefix.mp first).isInfix
      rw [fillAtOnceFrom_of_none unmarked,
        ih fun mark hmark later => absent mark hmark (List.infix_cons later)]

/-- A placeholder alone is replaced. -/
theorem fillAtOnce_of_find (mark : String × String) (some_char : mark.1.toList ≠ [])
    (found : marks.find? (fun other => other.1.toList.isPrefixOf mark.1.toList) = some mark) :
    fillAtOnce marks mark.1.toList = mark.2.toList := by
  have nothing (letters : List Char) : fillAtOnceFrom marks letters.length letters = [] := by
    induction letters with
    | nil => rfl
    | cons c letters ih => exact ih
  obtain ⟨p, letters, spelled⟩ := List.exists_cons_of_ne_nil some_char
  rw [spelled] at found
  rw [fillAtOnce, spelled, fillAtOnceFrom_of_some found, spelled, List.length_cons,
    Nat.add_sub_cancel, nothing, List.append_nil]

/-! ## Filling in one after the other -/

/-- What is put in takes away no character that is in no placeholder. -/
theorem count_le_fill (some_char : ∀ mark ∈ marks, mark.1.toList ≠ [])
    (apart : ∀ mark ∈ marks, c ∉ mark.1.toList) (cs : List Char) :
    cs.count c ≤ (fill marks cs).count c := by
  induction marks generalizing cs with
  | nil => exact le_rfl
  | cons mark rest ih =>
      obtain ⟨some_here, some_later⟩ := List.forall_mem_cons.mp some_char
      obtain ⟨here, later⟩ := List.forall_mem_cons.mp apart
      exact (Text.count_le_substitute some_here here cs).trans (ih some_later later _)

/-- **A text stays as it is only if no placeholder occurs in it**, if what is put in brings a
character that is in none. -/
theorem fill_eq_self_iff (some_char : ∀ mark ∈ marks, mark.1.toList ≠ [])
    (apart : ∀ mark ∈ marks, c ∉ mark.1.toList) (brought : ∀ mark ∈ marks, c ∈ mark.2.toList) :
    fill marks cs = cs ↔ ∀ mark ∈ marks, ¬mark.1.toList <:+: cs := by
  refine ⟨fun same => ?_, fill_of_absent⟩
  induction marks with
  | nil => simp
  | cons mark rest ih =>
      obtain ⟨some_here, some_later⟩ := List.forall_mem_cons.mp some_char
      obtain ⟨here, later⟩ := List.forall_mem_cons.mp apart
      obtain ⟨brings, brought⟩ := List.forall_mem_cons.mp brought
      have absent : ¬mark.1.toList <:+: cs := by
        intro occurs
        have more := Text.count_lt_substitute here brings some_here occurs
        have behind := count_le_fill some_later later
          (Text.substitute mark.1.toList mark.2.toList cs)
        rw [fill, List.foldl_cons] at same
        rw [fill, same] at behind
        omega
      refine List.forall_mem_cons.mpr ⟨absent, ih some_later later brought ?_⟩
      rw [fill, List.foldl_cons, Text.substitute_of_not_infix absent] at same
      exact same

/-! ## The loader, cut at its placeholders -/

/-- The `placeholders` of the loader. -/
def placeholders : List String := [entryMark, hostModulesMark, extensionsMark]

/-- The loader up to its first placeholder. -/
def untilEntry : List Char :=
  "/** start of bundle */\n;(function () \x7b\nvar __enpaki_entry =".toList ++ [' ']

/-- The loader from its first placeholder to the second. -/
def untilHostModules : List Char := ';' :: ("\nvar __enpaki_builtins =".toList ++ [' '])

/-- The loader from its second placeholder to the third. -/
def untilExtensions : List Char := ';' :: ("\nvar __enpaki_extensions =".toList ++ [' '])

/-- The loader behind its last placeholder. -/
def afterExtensions : List Char :=
  ';' :: '\n' :: ((lines.drop 5).map String.toList).flatMap (· ++ ['\n'])

/-- **The loader, cut at its placeholders.** -/
theorem toList_text_eq : text.toList = untilEntry ++ (entryMark.toList ++ (untilHostModules ++
    (hostModulesMark.toList ++ (untilExtensions ++ (extensionsMark.toList ++ afterExtensions))))) := by
  have front : ["/** start of bundle */", ";(function () \x7b", "var __enpaki_entry = __ENPAKI_ENTRY__;",
      "var __enpaki_builtins = __ENPAKI_BUILTINS__;",
      "var __enpaki_extensions = __ENPAKI_EXTENSIONS__;"].flatMap (fun line => line.toList ++ ['\n']) =
      untilEntry ++ (entryMark.toList ++ (untilHostModules ++ (hostModulesMark.toList ++
        (untilExtensions ++ (extensionsMark.toList ++ [';', '\n']))))) := by decide +kernel
  have cut : lines = lines.take 5 ++ lines.drop 5 := (List.take_append_drop 5 lines).symm
  have five : lines.take 5 = ["/** start of bundle */", ";(function () \x7b",
      "var __enpaki_entry = __ENPAKI_ENTRY__;", "var __enpaki_builtins = __ENPAKI_BUILTINS__;",
      "var __enpaki_extensions = __ENPAKI_EXTENSIONS__;"] := rfl
  rw [toList_text, cut, List.map_append, List.flatMap_append, List.flatMap_map, five, front]
  simp only [afterExtensions, List.append_assoc, List.cons_append, List.nil_append]

/-- Placeholders are made of capital letters and underscores, and begin alike. -/
theorem placeholders_spelled {mark : String} (h : mark ∈ placeholders) :
    ['_', '_', 'E'] <+: mark.toList ∧ ∀ c ∈ mark.toList, Json.isMarkChar c = true := by
  have all : placeholders.all (fun mark => ['_', '_', 'E'].isPrefixOf mark.toList &&
      mark.toList.all Json.isMarkChar) = true := by decide +kernel
  obtain ⟨first, letters⟩ := Bool.and_eq_true_iff.mp (List.all_eq_true.mp all mark h)
  exact ⟨List.isPrefixOf_iff_prefix.mp first, List.all_eq_true.mp letters⟩

/-- One more `line`, given by its characters. -/
theorem cons_eq_map_ofList {line : List Char} {rest : List String} {others : List (List Char)}
    (h : rest = others.map String.ofList) :
    String.ofList line :: rest = (line :: others).map String.ofList := by
  rw [h, List.map_cons]

/-- The lines of the loader behind its placeholders, given by their characters. -/
theorem exists_later_lines : ∃ others : List (List Char), lines.drop 5 = others.map String.ofList ∧
    ∀ line ∈ others, ¬['_', '_', 'E'] <:+: line := by
  dsimp only [lines, List.drop]
  apply Exists.intro
  apply And.intro
  · -- a literal is known by its characters, while it would take long to compute them
    repeat apply cons_eq_map_ofList
    exact List.map_nil.symm
  · decide +kernel

/-- What occurs in no `line`, and does not hold the end of one, does not occur in the lines together. -/
theorem not_infix_flatMap_lines {pattern : List Char} (some_char : pattern ≠ [])
    (apart : '\n' ∉ pattern) {lines : List (List Char)}
    (absent : ∀ line ∈ lines, ¬pattern <:+: line) :
    ¬pattern <:+: lines.flatMap (· ++ ['\n']) := by
  induction lines with
  | nil => exact fun h => some_char (List.infix_nil.mp h)
  | cons line lines ih =>
      obtain ⟨here, later⟩ := List.forall_mem_cons.mp absent
      rw [List.flatMap_cons, List.append_assoc, List.singleton_append,
        Text.infix_append_cons_iff apart]
      exact not_or.mpr ⟨here, ih later⟩

/-- **No placeholder stands in the other parts of the loader.** -/
theorem absent_of_part {part : List Char}
    (h : part ∈ [untilEntry, untilHostModules, untilExtensions, afterExtensions]) :
    ∀ mark ∈ placeholders, ¬mark.toList <:+: part := by
  have short : ∀ part ∈ [untilEntry, untilHostModules, untilExtensions],
      ¬['_', '_', 'E'] <:+: part := by decide +kernel
  have long : ¬['_', '_', 'E'] <:+: afterExtensions := by
    obtain ⟨others, spelled, absent⟩ := exists_later_lines
    have chars : (lines.drop 5).map String.toList = others := by simp [spelled]
    have later := not_infix_flatMap_lines (by decide) (by decide) absent
    rw [afterExtensions, chars]
    simpa [List.infix_cons_iff, List.cons_prefix_cons] using later
  have none : ¬['_', '_', 'E'] <:+: part := by
    simp only [List.mem_cons, List.not_mem_nil, or_false] at h short
    rcases h with rfl | rfl | rfl | rfl
    · exact short _ (by simp)
    · exact short _ (by simp)
    · exact short _ (by simp)
    · exact long
  exact fun mark hmark occurs => none ((placeholders_spelled hmark).1.isInfix.trans occurs)

/-- **A way of filling in a text**: it goes past characters that are in no placeholder, and leaves a
text without `placeholders` as it is. -/
structure IsFilling (f : List Char → List Char) : Prop where
  /-- A text is filled in on both sides of such a character. -/
  cut : ∀ c, Json.isMarkChar c = false → ∀ front back, f (front ++ c :: back) = f front ++ c :: f back
  /-- Nothing is filled in where no placeholder is. -/
  keep : ∀ cs, (∀ mark ∈ placeholders, ¬mark.toList <:+: cs) → f cs = cs

variable {f : List Char → List Char}

/-- A `part` between two placeholders is kept. -/
theorem IsFilling.past (filling : IsFilling f) {part : List Char}
    (absent : ∀ mark ∈ placeholders, ¬mark.toList <:+: ';' :: (part ++ [' '])) (front back : List Char) :
    f (front ++ (';' :: (part ++ [' ']) ++ back)) = f front ++ (';' :: (part ++ [' ']) ++ f back) := by
  have inside : part <:+: ';' :: (part ++ [' ']) := ⟨[';'], [' '], rfl⟩
  have kept : f part = part := filling.keep part fun mark hmark h => absent mark hmark (h.trans inside)
  have spelled (rest : List Char) : ';' :: (part ++ [' ']) ++ rest = ';' :: (part ++ ' ' :: rest) := by
    simp
  rw [spelled, spelled, filling.cut ';' (by decide), filling.cut ' ' (by decide), kept]

/-- **The loader is filled in by filling in its placeholders.** -/
theorem IsFilling.text (filling : IsFilling f) :
    f text.toList = untilEntry ++ (f entryMark.toList ++ (untilHostModules ++
      (f hostModulesMark.toList ++ (untilExtensions ++
        (f extensionsMark.toList ++ afterExtensions))))) := by
  obtain ⟨absent₁, absent₂, absent₃, absent₄⟩ : (∀ mark ∈ placeholders, ¬mark.toList <:+: untilEntry) ∧
      (∀ mark ∈ placeholders, ¬mark.toList <:+: untilHostModules) ∧
      (∀ mark ∈ placeholders, ¬mark.toList <:+: untilExtensions) ∧
      ∀ mark ∈ placeholders, ¬mark.toList <:+: afterExtensions := by
    have all : ∀ part ∈ [untilEntry, untilHostModules, untilExtensions, afterExtensions],
        ∀ mark ∈ placeholders, ¬mark.toList <:+: part := fun part h => absent_of_part h
    simpa only [List.forall_mem_cons, List.not_mem_nil, false_implies, implies_true, and_true] using all
  -- only the marks at the ends of the parts matter, not their characters
  obtain ⟨part₁, spelled₁⟩ : ∃ part, untilEntry = part ++ [' '] := ⟨_, rfl⟩
  obtain ⟨part₂, spelled₂⟩ : ∃ part, untilHostModules = ';' :: (part ++ [' ']) := ⟨_, rfl⟩
  obtain ⟨part₃, spelled₃⟩ : ∃ part, untilExtensions = ';' :: (part ++ [' ']) := ⟨_, rfl⟩
  obtain ⟨part₄, spelled₄⟩ : ∃ part, afterExtensions = ';' :: part := ⟨_, rfl⟩
  have kept₁ := filling.keep part₁ fun mark hmark h =>
    absent₁ mark hmark (h.trans (spelled₁ ▸ (List.prefix_append _ _).isInfix))
  have kept₄ := filling.keep part₄ fun mark hmark h =>
    absent₄ mark hmark (spelled₄ ▸ List.infix_cons h)
  rw [toList_text_eq, spelled₂, spelled₃, spelled₁, spelled₄, List.append_assoc,
    List.singleton_append, filling.cut ' ' (by decide), kept₁, filling.past (spelled₂ ▸ absent₂),
    filling.past (spelled₃ ▸ absent₃), filling.cut ';' (by decide), kept₄]
  simp only [List.append_assoc, List.singleton_append]

end Loader

namespace Artifact

variable (a : Artifact)

/-- What is filled in stands for the `placeholders` of the loader. -/
theorem fst_mem_placeholders : ∀ mark ∈ a.marks, mark.1 ∈ Loader.placeholders := by
  intro mark hmark
  exact List.mem_map_of_mem (f := Prod.fst) hmark

/-- The later `placeholders` are placeholders, too. -/
theorem laterMarks_spelled : ∀ mark ∈ a.laterMarks, mark.1 ∈ Loader.placeholders ∧
    mark.1.toList ≠ [] ∧ ∀ c ∈ mark.1.toList, Json.isMarkChar c = true := by
  intro mark hmark
  have member : mark ∈ a.marks := List.mem_cons_of_mem _ hmark
  exact ⟨a.fst_mem_placeholders mark member, a.marks_spelled mark member⟩

/-- Any other character is in no later placeholder. -/
theorem notMem_laterMarks {c : Char} (other : Json.isMarkChar c = false) :
    ∀ mark ∈ a.laterMarks, c ∉ mark.1.toList := fun mark hmark =>
  a.notMem_marks other mark (List.mem_cons_of_mem _ hmark)

/-- Placeholders filled in one after the other. -/
theorem isFilling_fill : Loader.IsFilling (Loader.fill a.marks) where
  cut _ other front back :=
    Loader.fill_append_cons a.marks_ne_nil (a.notMem_marks other) front back
  keep _ absent := Loader.fill_of_absent fun mark hmark =>
    absent mark.1 (a.fst_mem_placeholders mark hmark)

/-- Placeholders filled in at once. -/
theorem isFilling_fillAtOnce : Loader.IsFilling (Loader.fillAtOnce a.marks) where
  cut _ other _ back := Loader.fillAtOnceFrom_append_cons a.marks_ne_nil (a.notMem_marks other)
    (Nat.zero_le _) back
  keep _ absent := Loader.fillAtOnce_of_absent fun mark hmark =>
    absent mark.1 (a.fst_mem_placeholders mark hmark)

/-- No host module is named like a placeholder. -/
theorem absent_of_hostModule {mark name : String} (hmark : mark ∈ Loader.placeholders)
    (hname : name ∈ HostModule.names) : ¬mark.toList <:+: name.toList := by
  obtain ⟨others, spelled, absent⟩ : ∃ others : List (List Char),
      HostModule.names = others.map String.ofList ∧ ∀ name ∈ others, ¬['_', '_', 'E'] <:+: name := by
    dsimp only [HostModule.names]
    apply Exists.intro
    apply And.intro
    · repeat apply Loader.cons_eq_map_ofList
      exact List.map_nil.symm
    · decide +kernel
  rw [spelled] at hname
  obtain ⟨letters, hletters, rfl⟩ := List.mem_map.mp hname
  rw [String.toList_ofList]
  exact fun occurs =>
    absent letters hletters ((Loader.placeholders_spelled hmark).1.isInfix.trans occurs)

/-- The last placeholder does not occur in what stands for the host modules. -/
theorem fill_quoteAll_names :
    Loader.fill [(Loader.extensionsMark, Json.quoteAll a.extensions)]
      (Json.quoteAll HostModule.names).toList = (Json.quoteAll HostModule.names).toList := by
  refine Loader.fill_of_absent fun mark hmark occurs => ?_
  obtain rfl := List.mem_singleton.mp hmark
  have named : Loader.extensionsMark ∈ Loader.placeholders := by simp [Loader.placeholders]
  obtain ⟨first, letters⟩ := Loader.placeholders_spelled named
  have some_char : Loader.extensionsMark.toList ≠ [] := by
    rintro nothing
    simp [nothing] at first
  obtain ⟨name, hname, inside⟩ := Json.exists_infix_of_infix_quoteAll some_char letters occurs
  exact absent_of_hostModule named hname inside

/-- What the placeholders of the loader become, one after the other. -/
theorem fill_placeholders :
    Loader.fill a.marks Loader.entryMark.toList =
        Loader.fill a.laterMarks (Json.quote a.entry.text).toList ∧
      Loader.fill a.marks Loader.hostModulesMark.toList = (Json.quoteAll HostModule.names).toList ∧
      Loader.fill a.marks Loader.extensionsMark.toList = (Json.quoteAll a.extensions).toList := by
  let entry := (Loader.entryMark, Json.quote a.entry.text)
  let hosts := (Loader.hostModulesMark, Json.quoteAll HostModule.names)
  let extensions := (Loader.extensionsMark, Json.quoteAll a.extensions)
  have some_char : ∀ mark ∈ [entry, hosts, extensions], mark.1.toList ≠ [] := a.marks_ne_nil
  simp only [List.forall_mem_cons] at some_char
  obtain ⟨some_entry, some_host, some_extension, -⟩ := some_char
  -- no placeholder is part of another one
  have first : ¬Loader.entryMark.toList <:+: Loader.hostModulesMark.toList := by decide +kernel
  have second : ∀ mark ∈ [Loader.entryMark, Loader.hostModulesMark],
      ¬mark.toList <:+: Loader.extensionsMark.toList := by decide +kernel
  refine ⟨Loader.fill_mark [] entry [hosts, extensions] some_entry (by simp), ?_, ?_⟩
  · exact (Loader.fill_mark [entry] hosts [extensions] some_host
      (by simpa [entry] using first)).trans a.fill_quoteAll_names
  · exact Loader.fill_mark [entry, hosts] extensions [] some_extension
      (by simpa [entry, hosts] using second)

/-- What the placeholders of the loader become at once. -/
theorem fillAtOnce_placeholders :
    Loader.fillAtOnce a.marks Loader.entryMark.toList = (Json.quote a.entry.text).toList ∧
      Loader.fillAtOnce a.marks Loader.hostModulesMark.toList =
        (Json.quoteAll HostModule.names).toList ∧
      Loader.fillAtOnce a.marks Loader.extensionsMark.toList =
        (Json.quoteAll a.extensions).toList := by
  let entry := (Loader.entryMark, Json.quote a.entry.text)
  let hosts := (Loader.hostModulesMark, Json.quoteAll HostModule.names)
  let extensions := (Loader.extensionsMark, Json.quoteAll a.extensions)
  have itself (mark : String) : mark.toList.isPrefixOf mark.toList = true :=
    List.isPrefixOf_iff_prefix.mpr List.prefix_rfl
  have first : Loader.entryMark.toList.isPrefixOf Loader.hostModulesMark.toList = false := by
    decide +kernel
  have second : Loader.entryMark.toList.isPrefixOf Loader.extensionsMark.toList = false := by
    decide +kernel
  have third : Loader.hostModulesMark.toList.isPrefixOf Loader.extensionsMark.toList = false := by
    decide +kernel
  have some_char : ∀ mark ∈ [entry, hosts, extensions], mark.1.toList ≠ [] := a.marks_ne_nil
  simp only [List.forall_mem_cons] at some_char
  obtain ⟨some_entry, some_host, some_extension, -⟩ := some_char
  refine ⟨Loader.fillAtOnce_of_find entry some_entry ?_, Loader.fillAtOnce_of_find hosts some_host ?_,
    Loader.fillAtOnce_of_find extensions some_extension ?_⟩
  · simp [marks, entry, itself]
  · simp [marks, laterMarks, hosts, itself, first]
  · simp [marks, laterMarks, extensions, itself, second, third]

/-- **The head, cut where the placeholders were.** Later placeholders are looked for in what stands for
the `entry` script. -/
theorem toList_header_eq : a.header.toList = Loader.untilEntry ++
    (Loader.fill a.laterMarks (Json.quote a.entry.text).toList ++ (Loader.untilHostModules ++
      ((Json.quoteAll HostModule.names).toList ++ (Loader.untilExtensions ++
        ((Json.quoteAll a.extensions).toList ++ Loader.afterExtensions))))) := by
  obtain ⟨entry, hosts, extensions⟩ := a.fill_placeholders
  rw [toList_header_eq_fill, a.isFilling_fill.text, entry, hosts, extensions]

/-- The loader filled in at once, cut where the placeholders were. -/
theorem fillAtOnce_text : Loader.fillAtOnce a.marks Loader.text.toList = Loader.untilEntry ++
    ((Json.quote a.entry.text).toList ++ (Loader.untilHostModules ++
      ((Json.quoteAll HostModule.names).toList ++ (Loader.untilExtensions ++
        ((Json.quoteAll a.extensions).toList ++ Loader.afterExtensions))))) := by
  obtain ⟨entry, hosts, extensions⟩ := a.fillAtOnce_placeholders
  rw [a.isFilling_fillAtOnce.text, entry, hosts, extensions]

/-- **The head is the loader filled in at once** exactly if the name of the `entry` script holds no later
placeholder. -/
theorem header_eq_fillAtOnce_iff :
    a.header.toList = Loader.fillAtOnce a.marks Loader.text.toList ↔
      ∀ mark ∈ a.laterMarks, ¬mark.1.toList <:+: a.entry.text.toList := by
  have brought : ∀ mark ∈ a.laterMarks, '[' ∈ mark.2.toList := by
    simp [laterMarks, Json.quoteAll]
  rw [toList_header_eq, fillAtOnce_text, List.append_cancel_left_eq, List.append_cancel_right_eq,
    Loader.fill_eq_self_iff (fun mark h => (a.laterMarks_spelled mark h).2.1)
      (a.notMem_laterMarks (by decide)) brought]
  refine forall₂_congr fun mark hmark => not_congr ?_
  obtain ⟨-, some_char, letters⟩ := a.laterMarks_spelled mark hmark
  exact Json.infix_quote_iff some_char letters

/-- **The head fills in the loader**, for every `entry` script and all extensions. Four texts without
placeholders make up the loader, with the three placeholders between them. Filled in at once, the
loader is the same four texts with the JSON texts of the identity, of the host modules and of the
extensions between them, from which these are read again. The head has the four texts, too, and the
JSON texts of the host modules and the extensions. It is the loader filled in at once exactly if the
name of the entry script holds none of the two later placeholders, as these are replaced in its JSON
text. -/
theorem header_fills_loader : ∃ front between behind rest : List Char,
    (∀ part ∈ [front, between, behind, rest], ∀ mark ∈ a.marks, ¬mark.1.toList <:+: part) ∧
    Loader.text.toList = front ++ (Loader.entryMark.toList ++ (between ++
      (Loader.hostModulesMark.toList ++ (behind ++ (Loader.extensionsMark.toList ++ rest))))) ∧
    Loader.fillAtOnce a.marks Loader.text.toList = front ++ ((Json.quote a.entry.text).toList ++
      (between ++ ((Json.quoteAll HostModule.names).toList ++ (behind ++
        ((Json.quoteAll a.extensions).toList ++ rest))))) ∧
    a.header.toList = front ++ (Loader.fill a.laterMarks (Json.quote a.entry.text).toList ++
      (between ++ ((Json.quoteAll HostModule.names).toList ++ (behind ++
        ((Json.quoteAll a.extensions).toList ++ rest))))) ∧
    Json.string? (Json.quote a.entry.text).toList = some a.entry.text ∧
    Json.strings? (Json.quoteAll HostModule.names).toList = some HostModule.names ∧
    Json.strings? (Json.quoteAll a.extensions).toList = some a.extensions ∧
    (a.header.toList = Loader.fillAtOnce a.marks Loader.text.toList ↔
      ∀ mark ∈ a.laterMarks, ¬mark.1.toList <:+: a.entry.text.toList) :=
  ⟨Loader.untilEntry, Loader.untilHostModules, Loader.untilExtensions, Loader.afterExtensions,
    fun _ h mark hmark => Loader.absent_of_part h mark.1 (a.fst_mem_placeholders mark hmark),
    Loader.toList_text_eq, a.fillAtOnce_text, a.toList_header_eq, Json.string?_quote _,
    Json.strings?_quoteAll _, Json.strings?_quoteAll _, a.header_eq_fillAtOnce_iff⟩

/-- An artifact whose entry script is named like a placeholder. -/
def markedArtifact : Artifact := ⟨.ofEntry ⟨"/project/__ENPAKI_BUILTINS__.js"⟩, [".js", ".json"]⟩

/-- **The name of an `entry` script can be replaced by the host modules**: the head of its artifact is not
the loader filled in at once, and sets the identity to a text with the table in it. -/
theorem header_replaces_within_name :
    markedArtifact.entry.text = "/__ENPAKI_BUILTINS__.js" ∧
    markedArtifact.header.toList ≠ Loader.fillAtOnce markedArtifact.marks Loader.text.toList ∧
    ∃ rest, markedArtifact.header.toList = Loader.untilEntry ++
      ('\x22' :: '/' :: ((Json.quoteAll HostModule.names).toList ++
        ('.' :: 'j' :: 's' :: '\x22' :: rest))) := by
  have entry : markedArtifact.entry.text = "/__ENPAKI_BUILTINS__.js" := by decide +kernel
  have inside : Loader.hostModulesMark.toList <:+: "/__ENPAKI_BUILTINS__.js".toList := by decide +kernel
  refine ⟨entry, fun same => ?_, ?_⟩
  · have free := markedArtifact.header_eq_fillAtOnce_iff.mp same
    rw [entry] at free
    exact free (Loader.hostModulesMark, Json.quoteAll HostModule.names) List.mem_cons_self inside
  · -- the placeholder stands between a slash and a point
    have spelled : (Json.quote "/__ENPAKI_BUILTINS__.js").toList =
        ['\x22'] ++ '/' :: (Loader.hostModulesMark.toList ++ '.' :: ['j', 's', '\x22']) := by
      decide +kernel
    have plain : ∀ part ∈ [['\x22'], ['j', 's', '\x22']], ∀ mark ∈ Loader.placeholders,
        ¬mark.toList <:+: part := by decide +kernel
    have kept : ∀ part ∈ [['\x22'], ['j', 's', '\x22']],
        Loader.fill markedArtifact.laterMarks part = part := fun part h =>
      Loader.fill_of_absent fun mark hmark =>
        plain part h mark.1 (markedArtifact.laterMarks_spelled mark hmark).1
    have some_char : ∀ mark ∈ markedArtifact.laterMarks, mark.1.toList ≠ [] := fun mark h =>
      (markedArtifact.laterMarks_spelled mark h).2.1
    have hosts : Loader.fill markedArtifact.laterMarks Loader.hostModulesMark.toList =
        (Json.quoteAll HostModule.names).toList :=
      (Loader.fill_mark [] (Loader.hostModulesMark, Json.quoteAll HostModule.names) _
        (some_char _ List.mem_cons_self) (by simp)).trans markedArtifact.fill_quoteAll_names
    have filled : Loader.fill markedArtifact.laterMarks
        (Json.quote markedArtifact.entry.text).toList =
          ['\x22'] ++ '/' :: ((Json.quoteAll HostModule.names).toList ++
            '.' :: ['j', 's', '\x22']) := by
      have apart {c : Char} (other : Json.isMarkChar c = false) :=
        markedArtifact.notMem_laterMarks other
      rw [entry, spelled, Loader.fill_append_cons some_char (apart (by decide)),
        Loader.fill_append_cons some_char (apart (by decide)), hosts, kept _ List.mem_cons_self,
        kept _ (List.mem_cons_of_mem _ List.mem_cons_self)]
    obtain ⟨rest, header⟩ : ∃ rest, markedArtifact.header.toList = Loader.untilEntry ++
        (Loader.fill markedArtifact.laterMarks (Json.quote markedArtifact.entry.text).toList ++ rest) :=
      ⟨_, markedArtifact.toList_header_eq⟩
    have regrouped (hosts : List Char) : ['\x22'] ++ '/' :: (hosts ++ '.' :: ['j', 's', '\x22']) ++
        rest = '\x22' :: '/' :: (hosts ++ ('.' :: 'j' :: 's' :: '\x22' :: rest)) := by simp
    exact ⟨rest, by rw [header, filled, regrouped]⟩

end Artifact

end ScriptBundle
