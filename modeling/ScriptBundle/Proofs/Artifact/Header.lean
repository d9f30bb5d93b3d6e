import Mathlib.Data.List.Infix
import ScriptBundle.Artifact.Layout

/-! # The head of an artifact

The three placeholders of the loader are filled in one after the other, so a later one is also looked
for in what was put in place of an earlier one. No line of the loader is touched but where its own
placeholder stands, and a name without placeholders in it stays as it was put in.

* **`Text.substitute_append_cons`** — a character that is not in the pattern cuts a text in two;
* **`Text.substitute_of_not_infix`** — a text without the pattern is left as it is;
* **`Json.decode?_quoted`** — the JSON text of a string stands for the string;
* **`Artifact.toList_header`** — the head is made line by line;
* **`Artifact.exists_header_eq`** — the line that installs the entry script. -/

namespace ScriptBundle

/-! ## Substitution -/

namespace Text

variable {pattern replacement cs front back : List Char} {c : Char}

/-- On characters, `replaceAll` is `substitute`. -/
theorem toList_replaceAll (pattern replacement s : String) :
    (replaceAll pattern replacement s).toList =
      substitute pattern.toList replacement.toList s.toList := String.toList_ofList

/-- Where an occurrence can begin, a text is read up to a character that is not in the pattern. -/
theorem isPrefixOf_append_cons (apart : c ∉ pattern) (front back : List Char) :
    pattern.isPrefixOf (front ++ c :: back) = pattern.isPrefixOf front := by
  induction pattern generalizing front with
  | nil => simp
  | cons p pattern ih =>
      obtain ⟨differs, later⟩ := not_or.mp (mt List.mem_cons.mpr apart)
      cases front with
      | nil => simp [List.isPrefixOf, Ne.symm differs]
      | cons d front =>
          rw [List.cons_append, List.isPrefixOf, List.isPrefixOf, ih later]

/-- A character that is not in the pattern cuts the rest of a text in two, behind what is skipped. -/
theorem substituteFrom_append_cons (some_char : pattern ≠ []) (apart : c ∉ pattern) {skipped : Nat}
    (few : skipped ≤ front.length) (back : List Char) :
    substituteFrom pattern replacement skipped (front ++ c :: back) =
      substituteFrom pattern replacement skipped front ++
        c :: substituteFrom pattern replacement 0 back := by
  induction front generalizing skipped with
  | nil =>
      obtain rfl := Nat.le_zero.mp few
      -- no occurrence begins with the character
      have first : pattern.isPrefixOf (c :: back) = false := by
        obtain ⟨p, rest, rfl⟩ := List.exists_cons_of_ne_nil some_char
        have differs : ¬p = c := fun same => apart (same ▸ List.mem_cons_self)
        simp [List.isPrefixOf, differs]
      simp [substituteFrom, first]
  | cons d front ih =>
      cases skipped with
      | succ skipped =>
          exact ih (Nat.le_of_succ_le_succ few)
      | zero =>
          have cut := isPrefixOf_append_cons apart (d :: front) back
          rw [List.cons_append] at cut ⊢
          rw [substituteFrom, substituteFrom, cut]
          by_cases occurs : pattern.isPrefixOf (d :: front) = true
          · have short := (List.isPrefixOf_iff_prefix.mp occurs).length_le
            rw [List.length_cons] at short
            rw [if_pos occurs, if_pos occurs, ih (by omega), List.append_assoc]
          · rw [if_neg occurs, if_neg occurs, ih (Nat.zero_le _), List.cons_append]

/-- **A character that is not in the pattern cuts a text in two.** -/
theorem substitute_append_cons (replacement : List Char) (some_char : pattern ≠ [])
    (apart : c ∉ pattern) (front back : List Char) :
    substitute pattern replacement (front ++ c :: back) =
      substitute pattern replacement front ++ c :: substitute pattern replacement back :=
  substituteFrom_append_cons some_char apart (Nat.zero_le _) back

/-- **A text in which the pattern does not occur is left as it is.** -/
theorem substitute_of_not_infix (absent : ¬pattern <:+: cs) :
    substitute pattern replacement cs = cs := by
  unfold substitute
  induction cs with
  | nil => rfl
  | cons c cs ih =>
      have first : ¬pattern.isPrefixOf (c :: cs) = true := fun occurs =>
        absent (List.isPrefixOf_iff_prefix.mp occurs).isInfix
      rw [substituteFrom, if_neg first, ih fun later => absent (List.infix_cons later)]

/-- What is skipped is left out. -/
theorem substituteFrom_append (pattern replacement skipped cs : List Char) :
    substituteFrom pattern replacement skipped.length (skipped ++ cs) =
      substituteFrom pattern replacement 0 cs := by
  induction skipped with
  | nil => rfl
  | cons d skipped ih => exact ih

/-- A pattern is replaced. -/
theorem substitute_self (some_char : pattern ≠ []) :
    substitute pattern replacement pattern = replacement := by
  obtain ⟨p, rest, rfl⟩ := List.exists_cons_of_ne_nil some_char
  have occurs : (p :: rest).isPrefixOf (p :: rest) = true :=
    List.isPrefixOf_iff_prefix.mpr List.prefix_rfl
  have behind := substituteFrom_append (p :: rest) replacement rest []
  rw [List.append_nil] at behind
  rw [substitute, substituteFrom, if_pos occurs, List.length_cons, Nat.add_sub_cancel, behind]
  exact List.append_nil replacement

/-- **A pattern in front of a text is replaced.** -/
theorem substitute_append (some_char : pattern ≠ []) (replacement rest : List Char) :
    substitute pattern replacement (pattern ++ rest) =
      replacement ++ substitute pattern replacement rest := by
  obtain ⟨p, letters, rfl⟩ := List.exists_cons_of_ne_nil some_char
  have occurs : (p :: letters).isPrefixOf (p :: (letters ++ rest)) = true :=
    List.isPrefixOf_iff_prefix.mpr (List.prefix_append (p :: letters) rest)
  rw [List.cons_append, substitute, substituteFrom, if_pos occurs, List.length_cons,
    Nat.add_sub_cancel, substituteFrom_append, substitute]

/-- A character with which no pattern begins is kept. -/
theorem substitute_cons (none : ¬pattern <+: c :: cs) (replacement : List Char) :
    substitute pattern replacement (c :: cs) = c :: substitute pattern replacement cs := by
  rw [substitute, substituteFrom, if_neg fun occurs => none (List.isPrefixOf_iff_prefix.mp occurs),
    substitute]

/-- **A text is gone through from left to right**: past the pattern in front of it, or past its first
character. -/
@[elab_as_elim]
theorem substitute_induction {motive : List Char → Prop} (some_char : pattern ≠ [])
    (ended : motive []) (occurrence : ∀ rest, motive rest → motive (pattern ++ rest))
    (char : ∀ c cs, ¬pattern <+: c :: cs → motive cs → motive (c :: cs)) (cs : List Char) :
    motive cs := by
  -- on the length of the text: the pattern takes some characters at once
  induction length : cs.length using Nat.strong_induction_on generalizing cs with
  | _ n ih =>
      subst length
      cases cs with
      | nil => exact ended
      | cons c cs =>
          by_cases first : pattern <+: c :: cs
          · obtain ⟨rest, same⟩ := first
            have shorter : rest.length < (c :: cs).length := by
              have some_length := List.length_pos_iff.mpr some_char
              rw [← same, List.length_append]
              omega
            rw [← same]
            exact occurrence rest (ih _ shorter rest rfl)
          · exact char c cs first (ih _ (Nat.lt_succ_self _) cs rfl)

/-- What does not hold a character occurs on one side of it. -/
theorem infix_append_cons_iff (apart : c ∉ pattern) :
    pattern <:+: front ++ c :: back ↔ pattern <:+: front ∨ pattern <:+: back := by
  constructor
  · intro h
    induction front with
    | nil =>
        rcases List.infix_cons_iff.mp h with first | later
        · cases pattern with
          | nil => exact .inl List.nil_infix
          | cons p pattern =>
              obtain ⟨rfl, -⟩ := List.cons_prefix_cons.mp first
              exact absurd List.mem_cons_self apart
        · exact .inr later
    | cons d front ih =>
        rw [List.cons_append] at h
        rcases List.infix_cons_iff.mp h with first | later
        · have cut := isPrefixOf_append_cons apart (d :: front) back
          rw [← List.isPrefixOf_iff_prefix, ← List.cons_append, cut] at first
          exact .inl (List.isPrefixOf_iff_prefix.mp first).isInfix
        · exact (ih later).imp_left List.infix_cons
  · rintro (left | right)
    · exact left.trans (List.prefix_append _ _).isInfix
    · exact right.trans ((List.suffix_cons _ _).trans (List.suffix_append _ _)).isInfix

end Text

/-! ## JSON texts -/

namespace Json

variable {pattern cs : List Char}

/-- The value of a digit that is written. -/
theorem hexValue?_hexDigit {n : Nat} (h : n < 16) : Text.hexValue? (hexDigit n) = some n := by
  have all : ∀ n : Fin 16, Text.hexValue? (hexDigit n) = some n.val := by decide
  exact all ⟨n, h⟩

/-- A code unit that is no half of a pair is a character. -/
theorem joinItems?_unit {n : Nat} (small : n < 0xD800) (items : List Item) :
    joinItems? (.unit n :: items) = (joinItems? items).map (Char.ofNat n :: ·) := by
  have trailing : isTrailingUnit n = false := by
    simp [isTrailingUnit]
    omega
  have leading : isLeadingUnit n = false := by
    simp [isLeadingUnit]
    omega
  -- by the next item, which would be the other half
  rcases items with _ | ⟨_ | _, _⟩ <;> simp [joinItems?, trailing, leading]

/-- **A character inside quotes is read as one item**, which stands for the character. -/
theorem exists_item_quoteChar (c : Char) (rest : List Char) :
    ∃ item, items? (quoteChar c ++ rest) = (items? rest).map (item :: ·) ∧
      ∀ items, joinItems? (item :: items) = (joinItems? items).map (c :: ·) := by
  unfold quoteChar
  -- in the order in which a character is quoted
  by_cases short : c = '\x22' ∨ c = '\\' ∨ c = '\x08' ∨ c = '\x0c' ∨ c = '\n' ∨ c = '\r' ∨ c = '\t'
  · refine ⟨.char c, ?_, fun items => rfl⟩
    rcases short with rfl | rfl | rfl | rfl | rfl | rfl | rfl <;>
      cases e : items? rest <;> simp [items?, shortEscape?, e]
  · simp only [not_or] at short
    obtain ⟨quote, slash, b, f, n, r, t⟩ := short
    rw [if_neg quote, if_neg slash, if_neg b, if_neg f, if_neg n, if_neg r, if_neg t]
    by_cases control : c.toNat < 0x20
    · refine ⟨.unit c.toNat, ?_, fun items => ?_⟩
      · have high := hexValue?_hexDigit (n := c.toNat / 16) (by omega)
        have low := hexValue?_hexDigit (n := c.toNat % 16) (by omega)
        have zero : Text.hexValue? '0' = some 0 := by decide
        have digits : hexUnit? '0' '0' (hexDigit (c.toNat / 16)) (hexDigit (c.toNat % 16)) =
            some c.toNat := by
          simp [hexUnit?, zero, high, low]
          omega
        rw [if_pos control]
        cases e : items? rest <;> simp [items?, digits, e]
      · rw [joinItems?_unit (by omega), Char.ofNat_toNat]
    · refine ⟨.char c, ?_, fun items => rfl⟩
      rw [if_neg control, List.singleton_append, items?, if_neg control]
      all_goals simp [slash]

/-- **The JSON text of a string stands for the string.** -/
theorem decode?_quoted (cs : List Char) : decode? (cs.flatMap quoteChar) = some cs := by
  suffices read : ∃ items, items? (cs.flatMap quoteChar) = some items ∧ joinItems? items = some cs by
    obtain ⟨items, first, second⟩ := read
    rw [decode?, first]
    exact second
  induction cs with
  | nil => exact ⟨[], rfl, rfl⟩
  | cons c cs ih =>
      obtain ⟨items, first, second⟩ := ih
      obtain ⟨item, read, joined⟩ := exists_item_quoteChar c (cs.flatMap quoteChar)
      refine ⟨item :: items, ?_, ?_⟩
      · rw [List.flatMap_cons, read, first]
        rfl
      · rw [joined, second]
        rfl

/-- A character of which the names of placeholders are made. -/
def isMarkChar (c : Char) : Bool := c == '_' || c.isUpper

/-- The digits that are written are none of these. -/
theorem isMarkChar_hexDigit {n : Nat} (h : n < 16) : isMarkChar (hexDigit n) = false := by
  have all : ∀ n : Fin 16, isMarkChar (hexDigit n) = false := by decide
  exact all ⟨n, h⟩

/-- None of the characters of a text is one of these, if a search finds none. -/
theorem isMarkChar_of_any (h : cs.any isMarkChar = false) : ∀ d ∈ cs, isMarkChar d = false :=
  fun d hd => Bool.eq_false_iff.mpr (List.any_eq_false.mp h d hd)

/-- A character inside quotes is written as itself, or without characters of placeholders. -/
theorem quoteChar_cases (c : Char) :
    quoteChar c = [c] ∨ ∀ d ∈ quoteChar c, isMarkChar d = false := by
  unfold quoteChar
  by_cases short : c = '\x22' ∨ c = '\\' ∨ c = '\x08' ∨ c = '\x0c' ∨ c = '\n' ∨ c = '\r' ∨ c = '\t'
  · right
    refine isMarkChar_of_any ?_
    rcases short with rfl | rfl | rfl | rfl | rfl | rfl | rfl <;> decide
  · simp only [not_or] at short
    obtain ⟨quote, slash, b, f, n, r, t⟩ := short
    rw [if_neg quote, if_neg slash, if_neg b, if_neg f, if_neg n, if_neg r, if_neg t]
    by_cases control : c.toNat < 0x20
    · right
      rw [if_pos control]
      intro d hd
      have fixed : ∀ e ∈ ['\\', 'u', '0', '0'], isMarkChar e = false :=
        isMarkChar_of_any (by decide)
      rcases List.mem_append.mp (show d ∈ ['\\', 'u', '0', '0'] ++
        [hexDigit (c.toNat / 16), hexDigit (c.toNat % 16)] from hd) with front | digits
      · exact fixed d front
      · rcases List.mem_pair.mp digits with rfl | rfl
        · exact isMarkChar_hexDigit (by omega)
        · exact isMarkChar_hexDigit (by omega)
    · left
      rw [if_neg control]

/-- Inside a literal of a JSON document, `quoteChar` writes something for every character. -/
theorem quoteChar_ne_nil (c : Char) : quoteChar c ≠ [] := by
  unfold quoteChar
  repeat' split
  all_goals simp

/-- What occurs in a text behind others, and shares no character with those, occurs behind them. -/
theorem infix_of_infix_append {front : List Char} (some_char : pattern ≠ [])
    (marks : ∀ c ∈ pattern, isMarkChar c = true) (none : ∀ d ∈ front, isMarkChar d = false)
    (h : pattern <:+: front ++ cs) : pattern <:+: cs := by
  induction front with
  | nil => exact h
  | cons d front ih =>
      obtain ⟨other, none⟩ := List.forall_mem_cons.mp none
      rcases List.infix_cons_iff.mp h with first | later
      · obtain ⟨p, rest, rfl⟩ := List.exists_cons_of_ne_nil some_char
        obtain ⟨rfl, -⟩ := List.cons_prefix_cons.mp first
        rw [marks p List.mem_cons_self] at other
        exact absurd other.symm Bool.false_ne_true
      · exact ih none later

/-- What begins a quoted text, and is made of characters of placeholders, begins the text. -/
theorem prefix_of_prefix_quoted (marks : ∀ c ∈ pattern, isMarkChar c = true)
    (h : pattern <+: cs.flatMap quoteChar) : pattern <+: cs := by
  induction pattern generalizing cs with
  | nil => exact List.nil_prefix
  | cons p rest ih =>
      obtain ⟨mark, marks⟩ := List.forall_mem_cons.mp marks
      cases cs with
      | nil => exact absurd (List.prefix_nil.mp h) (List.cons_ne_nil p rest)
      | cons d ds =>
          rw [List.flatMap_cons] at h
          rcases quoteChar_cases d with same | none
          · rw [same, List.singleton_append] at h
            obtain ⟨rfl, behind⟩ := List.cons_prefix_cons.mp h
            exact List.cons_prefix_cons.mpr ⟨rfl, ih marks behind⟩
          · -- the text of another character begins with none of a placeholder
            obtain ⟨e, es, spelled⟩ := List.exists_cons_of_ne_nil (quoteChar_ne_nil d)
            rw [spelled, List.cons_append] at h
            obtain ⟨rfl, -⟩ := List.cons_prefix_cons.mp h
            rw [none p (spelled ▸ List.mem_cons_self)] at mark
            exact absurd mark Bool.false_ne_true

/-- **Quoting puts no placeholder into a text.** -/
theorem infix_of_infix_quoted (some_char : pattern ≠ [])
    (marks : ∀ c ∈ pattern, isMarkChar c = true) (h : pattern <:+: cs.flatMap quoteChar) :
    pattern <:+: cs := by
  induction cs with
  | nil => exact h
  | cons d ds ih =>
      rw [List.flatMap_cons] at h
      rcases quoteChar_cases d with same | none
      · rw [same, List.singleton_append] at h
        rcases List.infix_cons_iff.mp h with first | later
        · refine (prefix_of_prefix_quoted marks ?_).isInfix
          rwa [List.flatMap_cons, same]
        · exact List.infix_cons (ih later)
      · exact List.infix_cons (ih (infix_of_infix_append some_char marks none h))

end Json

/-! ## Placeholders -/

namespace Loader

/-- A text with placeholders filled in, one after the other. -/
def fill (marks : List (String × String)) (cs : List Char) : List Char :=
  marks.foldl (fun cs mark => Text.substitute mark.1.toList mark.2.toList cs) cs

variable {marks : List (String × String)} {cs : List Char} {c : Char}

/-- **A character that is in no placeholder cuts a text in two.** -/
theorem fill_append_cons (some_char : ∀ mark ∈ marks, mark.1.toList ≠ [])
    (apart : ∀ mark ∈ marks, c ∉ mark.1.toList) (front back : List Char) :
    fill marks (front ++ c :: back) = fill marks front ++ c :: fill marks back := by
  induction marks generalizing front back with
  | nil => rfl
  | cons mark rest ih =>
      obtain ⟨some_here, some_later⟩ := List.forall_mem_cons.mp some_char
      obtain ⟨here, later⟩ := List.forall_mem_cons.mp apart
      have first := Text.substitute_append_cons mark.2.toList some_here here front back
      rw [fill, List.foldl_cons, first]
      exact ih some_later later _ _

/-- **A text without placeholders is left as it is.** -/
theorem fill_of_absent (absent : ∀ mark ∈ marks, ¬mark.1.toList <:+: cs) : fill marks cs = cs := by
  induction marks with
  | nil => rfl
  | cons mark rest ih =>
      obtain ⟨here, later⟩ := List.forall_mem_cons.mp absent
      rw [fill, List.foldl_cons, Text.substitute_of_not_infix here]
      exact ih later

/-- **A placeholder is replaced**, and the later ones are looked for in what was put in. -/
theorem fill_mark (before : List (String × String)) (mark : String × String)
    (after : List (String × String)) (some_char : mark.1.toList ≠ [])
    (absent : ∀ other ∈ before, ¬other.1.toList <:+: mark.1.toList) :
    fill (before ++ mark :: after) mark.1.toList = fill after mark.2.toList := by
  have past : fill before mark.1.toList = mark.1.toList := fill_of_absent absent
  rw [fill] at past
  rw [fill, List.foldl_append, past, List.foldl_cons, Text.substitute_self some_char, fill]

/-- **Lines are filled in one by one.** -/
theorem fill_flatMap_lines (some_char : ∀ mark ∈ marks, mark.1.toList ≠ [])
    (apart : ∀ mark ∈ marks, '\n' ∉ mark.1.toList) (lines : List (List Char)) :
    fill marks (lines.flatMap (· ++ ['\n'])) = (lines.map (fill marks)).flatMap (· ++ ['\n']) := by
  induction lines with
  | nil => exact fill_of_absent fun mark hmark nothing =>
      some_char mark hmark (List.infix_nil.mp nothing)
  | cons line lines ih =>
      rw [List.flatMap_cons, List.append_assoc, List.singleton_append,
        fill_append_cons some_char apart, ih, List.map_cons, List.flatMap_cons, List.append_assoc,
        List.singleton_append]

/-- The loader is made of its lines. -/
theorem toList_text : text.toList = (lines.map String.toList).flatMap (· ++ ['\n']) := by
  simp only [text, String.toList_join, List.flatMap_map, String.toList_append]
  rfl

end Loader

/-! ## The head -/

namespace Artifact

variable (a : Artifact)

/-- The placeholders of the loader behind the first, with what is put in their places. -/
def laterMarks : List (String × String) :=
  [(Loader.hostModulesMark, Json.quoteAll HostModule.names),
    (Loader.extensionsMark, Json.quoteAll a.extensions)]

/-- **The placeholders of the loader**, with what is put in their places. -/
def marks : List (String × String) := (Loader.entryMark, Json.quote a.entry.text) :: a.laterMarks

/-- Placeholders are made of capital letters and underscores, and are not empty. -/
theorem marks_spelled : ∀ mark ∈ a.marks, mark.1.toList ≠ [] ∧
    ∀ c ∈ mark.1.toList, Json.isMarkChar c = true := by
  simp only [marks, laterMarks, List.forall_mem_cons]
  refine ⟨⟨?_, ?_⟩, ⟨?_, ?_⟩, ⟨?_, ?_⟩, by simp⟩
  -- Names are searched as lists: over all characters there is nothing to decide.
  any_goals exact List.all_eq_true.mp (by decide +kernel)
  all_goals decide +kernel

/-- None of the `marks` in the text of the loader is empty, so each of them is found somewhere. -/
theorem marks_ne_nil : ∀ mark ∈ a.marks, mark.1.toList ≠ [] := fun mark hmark =>
  (a.marks_spelled mark hmark).1

/-- Any other character is in no placeholder. -/
theorem notMem_marks {c : Char} (other : Json.isMarkChar c = false) :
    ∀ mark ∈ a.marks, c ∉ mark.1.toList := by
  intro mark hmark hc
  rw [(a.marks_spelled mark hmark).2 c hc] at other
  exact absurd other.symm Bool.false_ne_true

/-- The head is the loader, filled in. -/
theorem toList_header_eq_fill : a.header.toList = Loader.fill a.marks Loader.text.toList := by
  rw [header, Text.toList_replaceAll, Text.toList_replaceAll, Text.toList_replaceAll, Loader.fill,
    marks, laterMarks, List.foldl_cons, List.foldl_cons, List.foldl_cons, List.foldl_nil]

/-- **The head is made `line` by line.** -/
theorem toList_header : a.header.toList =
    (Loader.lines.map fun line => Loader.fill a.marks line.toList).flatMap (· ++ ['\n']) := by
  rw [toList_header_eq_fill, Loader.toList_text,
    Loader.fill_flatMap_lines a.marks_ne_nil (a.notMem_marks (by decide)), List.map_map,
    Function.comp_def]

/-- **What stands for the identity of the `entry` script** in the head, unless its name holds another
placeholder: its JSON text. -/
theorem fill_entryMark
    (free : ∀ mark ∈ a.laterMarks, ¬mark.1.toList <:+: a.entry.text.toList) :
    Loader.fill a.marks Loader.entryMark.toList = (Json.quote a.entry.text).toList := by
  have first : Loader.fill a.marks Loader.entryMark.toList =
      Loader.fill a.laterMarks (Json.quote a.entry.text).toList :=
    Loader.fill_mark [] (Loader.entryMark, Json.quote a.entry.text) a.laterMarks
      (a.marks_ne_nil _ List.mem_cons_self) (by simp)
  have later : ∀ mark ∈ a.laterMarks, mark ∈ a.marks := fun _ => List.mem_cons_of_mem _
  have some_char : ∀ mark ∈ a.laterMarks, mark.1.toList ≠ [] := fun mark hmark =>
    a.marks_ne_nil mark (later mark hmark)
  have apart : ∀ mark ∈ a.laterMarks, '\x22' ∉ mark.1.toList := fun mark hmark =>
    a.notMem_marks (by decide) mark (later mark hmark)
  -- the quotes cut the text; between them quoting puts no placeholder into the name
  have inner : Loader.fill a.laterMarks (a.entry.text.toList.flatMap Json.quoteChar) =
      a.entry.text.toList.flatMap Json.quoteChar := by
    refine Loader.fill_of_absent fun mark hmark occurs => free mark hmark ?_
    exact Json.infix_of_infix_quoted (some_char mark hmark)
      (a.marks_spelled mark (later mark hmark)).2 occurs
  have nothing : Loader.fill a.laterMarks [] = [] := by
    refine Loader.fill_of_absent fun mark hmark occurs => some_char mark hmark ?_
    exact List.infix_nil.mp occurs
  have quoted : (Json.quote a.entry.text).toList =
      [] ++ '\x22' :: (a.entry.text.toList.flatMap Json.quoteChar ++ '\x22' :: []) := by
    simp [Json.quote]
  rw [first, quoted, Loader.fill_append_cons some_char apart, Loader.fill_append_cons some_char apart,
    nothing, inner]

/-- The beginning of the loader, up to where the entry script is installed, has no placeholder in it. -/
theorem fill_front : ∀ line ∈ ["/** start of bundle */", ";(function () \x7b", "var __enpaki_entry ="],
    Loader.fill a.marks line.toList = line.toList := by
  have absent : ∀ line ∈ ["/** start of bundle */", ";(function () \x7b", "var __enpaki_entry ="],
      ∀ mark ∈ [Loader.entryMark, Loader.hostModulesMark, Loader.extensionsMark],
        ¬mark.toList <:+: line.toList := by decide +kernel
  intro line hline
  refine Loader.fill_of_absent fun mark hmark => absent line hline mark.1 ?_
  exact List.mem_map_of_mem (f := Prod.fst) hmark

/-- **The head installs the `entry` script**: its third line sets a variable to a JSON text that stands
for the identity, unless the name of the entry script holds another placeholder. -/
theorem exists_header_eq
    (free : ∀ mark ∈ a.laterMarks, ¬mark.1.toList <:+: a.entry.text.toList) :
    ∃ quoted rest : String, a.header = "/** start of bundle */\n;(function () \x7b\n" ++
        "var __enpaki_entry = \x22" ++ quoted ++ "\x22;\n" ++ rest ∧
      Json.decode? quoted.toList = some a.entry.text.toList := by
  have apart : ∀ c ∈ [' ', ';'], ∀ mark ∈ a.marks, c ∉ mark.1.toList := by
    intro c hc
    refine a.notMem_marks ?_
    rcases List.mem_pair.mp hc with rfl | rfl <;> rfl
  have nothing : Loader.fill a.marks [] = [] := by
    refine Loader.fill_of_absent fun mark hmark occurs => a.marks_ne_nil mark hmark ?_
    exact List.infix_nil.mp occurs
  have installs : Loader.fill a.marks "var __enpaki_entry = __ENPAKI_ENTRY__;".toList =
      "var __enpaki_entry =".toList ++ ' ' :: ((Json.quote a.entry.text).toList ++ [';']) := by
    have cut : "var __enpaki_entry = __ENPAKI_ENTRY__;".toList =
        "var __enpaki_entry =".toList ++ ' ' :: (Loader.entryMark.toList ++ ';' :: []) := by
      decide +kernel
    rw [cut, Loader.fill_append_cons a.marks_ne_nil (apart _ (by simp)),
      Loader.fill_append_cons a.marks_ne_nil (apart _ (by simp)), a.fill_front _ (by simp),
      a.fill_entryMark free, nothing]
  let lines := (Loader.lines.drop 3).map fun line => Loader.fill a.marks line.toList
  refine ⟨String.ofList (a.entry.text.toList.flatMap Json.quoteChar),
    String.ofList (lines.flatMap (· ++ ['\n'])), ?_, ?_⟩
  · have cut : Loader.lines = "/** start of bundle */" :: ";(function () \x7b" ::
        "var __enpaki_entry = __ENPAKI_ENTRY__;" :: Loader.lines.drop 3 := by rfl
    apply String.toList_injective
    rw [toList_header, cut, List.map_cons, List.map_cons, List.map_cons, a.fill_front _ (by simp),
      a.fill_front _ (by simp), installs, List.flatMap_cons, List.flatMap_cons, List.flatMap_cons]
    have first : "/** start of bundle */\n;(function () \x7b\n".toList =
        "/** start of bundle */".toList ++ '\n' :: (";(function () \x7b".toList ++ ['\n']) := by
      decide +kernel
    have second : "var __enpaki_entry = \x22".toList = "var __enpaki_entry =".toList ++ [' ', '\x22'] :=
      by decide +kernel
    have third : "\x22;\n".toList = ['\x22', ';', '\n'] := by decide +kernel
    simp only [String.toList_append, String.toList_ofList, Json.quote, first, second, third,
      List.append_assoc, List.cons_append, List.nil_append, lines]
  · rw [String.toList_ofList]
    exact Json.decode?_quoted _

end Artifact

end ScriptBundle
