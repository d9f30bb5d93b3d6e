import Mathlib.Data.List.Basic
import Mathlib.Data.List.TakeWhile
import Mathlib.Data.Option.Basic
import Mathlib.Tactic.Common
import ScriptBundle.Reference

/-! # The spelling of calls

A call is told by how it is spelled, without the reader that counts its characters: the word, a
bracket, a literal between two quotes of one kind, and a bracket, with blanks between them. The reader
finds a call in front of a text exactly where one is spelled there, and no text begins with two calls:

* **`Call.Spells`** — the spelling of a call of a specifier;
* **`Call.expect?_eq_some_iff`, `Call.literal?_eq_some_iff`, `Call.ofText?_eq_some_iff`** — what the
  reader finds, part by part;
* **`Call.Spells.eq_of_append_eq`** — a text begins with one call at most. -/

namespace ScriptBundle.Call

/-- **The spelling of a call.** Its literal is not empty and holds no quote of its own kind. -/
inductive Spells (specifier : List Char) : List Char → Prop
  /-- The parts of a call, with the blanks between them. -/
  | intro (front inner behind : List Char) (mark : Char)
      (blank : ∀ c ∈ front ++ inner ++ behind, Text.isBlank c = true)
      (quote : mark = '\x22' ∨ mark = '\x27') (some_char : specifier ≠ [])
      (closed : mark ∉ specifier) :
      Spells specifier (keyword ++ (front ++ '(' ::
        (inner ++ mark :: (specifier ++ mark :: (behind ++ [')'])))))

variable {c mark : Char} {cs gap rest text front back specifier : List Char} {n : Nat} {call : Call}

/-! ## Blanks -/

/-- The blanks in front of any other character are counted. -/
theorem blanks_append_cons (blank : ∀ d ∈ gap, Text.isBlank d = true)
    (other : Text.isBlank c = false) : blanks (gap ++ c :: rest) = gap.length := by
  rw [blanks, List.takeWhile_append_of_pos blank, List.takeWhile_cons_of_neg (by simp [other]),
    List.append_nil]

/-- **A character that is expected** stands behind blanks. -/
theorem expect?_eq_some_iff (other : Text.isBlank c = false) : expect? c cs = some n ↔
    ∃ gap rest, (∀ d ∈ gap, Text.isBlank d = true) ∧ cs = gap ++ c :: rest ∧
      n = gap.length + 1 := by
  constructor
  · intro h
    simp only [expect?, Option.ite_none_right_eq_some, Option.some.injEq] at h
    obtain ⟨here, rfl⟩ := h
    -- the blanks are as many as a prefix is long
    have cut := (List.takeWhile_append_dropWhile (p := Text.isBlank) (l := cs)).symm
    have behind : (cs.dropWhile Text.isBlank)[0]? = some c := by
      rw [cut, blanks, List.getElem?_append_right (by simp)] at here
      simpa using here
    obtain ⟨rest, found⟩ : ∃ rest, cs.dropWhile Text.isBlank = c :: rest := by
      cases e : cs.dropWhile Text.isBlank with
      | nil => simp [e] at behind
      | cons d rest =>
          rw [e] at behind
          exact ⟨rest, by rw [Option.some.inj behind]⟩
    refine ⟨cs.takeWhile Text.isBlank, rest, fun d hd => List.mem_takeWhile_imp hd, ?_, rfl⟩
    rw [← found, ← cut]
  · rintro ⟨gap, rest, blank, rfl, rfl⟩
    simp [expect?, blanks_append_cons blank other]

/-! ## Literals -/

/-- **A literal** stands between two quotes of its kind, and is read up to the second. -/
theorem literal?_eq_some_iff : literal? cs = some call ↔
    ∃ mark rest, (mark = '\x22' ∨ mark = '\x27') ∧ call.specifier ≠ [] ∧ mark ∉ call.specifier ∧
      cs = mark :: (call.specifier ++ mark :: rest) ∧ call.length = call.specifier.length + 2 := by
  obtain ⟨length, specifier⟩ := call
  constructor
  · intro h
    cases cs with
    | nil => simp [literal?] at h
    | cons mark cs =>
        simp only [literal?, Option.ite_none_right_eq_some, Option.some.injEq, Call.mk.injEq] at h
        obtain ⟨quote, ⟨some_char, short⟩, rfl, rfl⟩ := h
        have cut := (List.takeWhile_append_dropWhile (p := (· ≠ mark)) (l := cs)).symm
        -- something is left, and it begins with the quote
        obtain ⟨d, rest, found⟩ : ∃ d rest, cs.dropWhile (· ≠ mark) = d :: rest := by
          refine List.exists_cons_of_ne_nil fun none => ?_
          rw [none, List.append_nil] at cut
          exact absurd (congrArg List.length cut) (Nat.ne_of_gt short)
        obtain rfl : d = mark := by
          have first := List.head?_dropWhile_not (· ≠ mark) cs
          rw [found] at first
          simpa using first
        refine ⟨d, rest, quote, some_char, fun inside => ?_, by rw [← found, ← cut], rfl⟩
        simpa using List.mem_takeWhile_imp inside
  · rintro ⟨mark, rest, quote, some_char, closed, rfl, same⟩
    obtain rfl : length = specifier.length + 2 := same
    have read : (specifier ++ mark :: rest).takeWhile (· ≠ mark) = specifier := by
      rw [List.takeWhile_append_of_pos fun d hd => by simpa using ne_of_mem_of_not_mem hd closed,
        List.takeWhile_cons_of_neg (by simp), List.append_nil]
    have short : specifier.length < (specifier ++ mark :: rest).length := by simp
    rw [literal?, if_pos quote]
    simp only [read]
    exact if_pos ⟨some_char, short⟩

/-! ## Calls -/

/-- A quote is no blank. -/
theorem isBlank_of_quote (quote : mark = '\x22' ∨ mark = '\x27') : Text.isBlank mark = false := by
  rcases quote with rfl | rfl <;> decide

/-- The blanks in front of a text, and what is left of it. -/
theorem exists_blanks (cs : List Char) : ∃ gap rest, (∀ d ∈ gap, Text.isBlank d = true) ∧
    cs = gap ++ rest ∧ blanks cs = gap.length :=
  ⟨cs.takeWhile Text.isBlank, cs.dropWhile Text.isBlank, fun _ hd => List.mem_takeWhile_imp hd,
    List.takeWhile_append_dropWhile.symm, rfl⟩

/-- What is left of a text behind what is known of it. -/
theorem drop_of_eq (front : List Char) (h : cs = front ++ back) (length : front.length = n) :
    cs.drop n = back := by
  rw [h, List.drop_left' length]

/-- **A call is read** in front of anything. -/
theorem Spells.ofText?_append (spelled : Spells specifier text) (rest : List Char) :
    ofText? (text ++ rest) = some ⟨text.length, specifier⟩ := by
  obtain ⟨front, inner, behind, mark, blank, quote, some_char, closed⟩ := spelled
  simp only [List.forall_mem_append] at blank
  obtain ⟨⟨blank_front, blank_inner⟩, blank_behind⟩ := blank
  generalize whole : keyword ++ (front ++ '(' :: (inner ++ mark :: (specifier ++ mark ::
    (behind ++ [')'])))) ++ rest = cs
  -- what is left of the text behind each part, and what is read there
  have starts : keyword.isPrefixOf cs = true := by
    simp [← whole, List.isPrefixOf_iff_prefix, List.append_assoc]
  have opened : expect? '(' (cs.drop keyword.length) = some (front.length + 1) := by
    refine (expect?_eq_some_iff (by decide)).mpr
      ⟨front, inner ++ mark :: (specifier ++ mark :: (behind ++ ')' :: rest)), blank_front,
        drop_of_eq keyword ?_ rfl, rfl⟩
    simp [← whole]
  have gap : blanks (cs.drop (keyword.length + (front.length + 1))) = inner.length := by
    have left : cs.drop (keyword.length + (front.length + 1)) =
        inner ++ mark :: (specifier ++ mark :: (behind ++ ')' :: rest)) :=
      drop_of_eq (keyword ++ front ++ ['(']) (by simp [← whole]) (by simp)
    rw [left]
    exact blanks_append_cons blank_inner (isBlank_of_quote quote)
  have quoted : literal? (cs.drop (keyword.length + (front.length + 1) + inner.length)) =
      some ⟨specifier.length + 2, specifier⟩ := by
    refine literal?_eq_some_iff.mpr
      ⟨mark, behind ++ ')' :: rest, quote, some_char, closed,
        drop_of_eq (keyword ++ front ++ '(' :: inner) ?_ ?_, rfl⟩
    · simp [← whole]
    · simp
      omega
  have ended : expect? ')' (cs.drop (keyword.length + (front.length + 1) + inner.length +
      (specifier.length + 2))) = some (behind.length + 1) := by
    refine (expect?_eq_some_iff (by decide)).mpr ⟨behind, rest, blank_behind,
      drop_of_eq (keyword ++ front ++ '(' :: inner ++ mark :: specifier ++ [mark]) ?_ ?_,
      rfl⟩
    · simp [← whole]
    · simp
      omega
  simp only [ofText?, starts, guard_true, Option.pure_def, Option.bind_eq_bind, Option.bind_some,
    opened, gap, quoted, ended]
  simp
  omega

/-- **What is read as a call is spelled as one.** -/
theorem exists_spells_of_ofText? (h : ofText? cs = some call) :
    ∃ text rest, cs = text ++ rest ∧ Spells call.specifier text ∧ call.length = text.length := by
  simp only [ofText?, Option.bind_eq_bind, Option.bind_eq_some_iff, Option.pure_def,
    Option.some.injEq, Option.guard_eq_some'] at h
  obtain ⟨-, starts, n, opened, literal, quoted, m, ended, rfl⟩ := h
  obtain ⟨after, rfl⟩ := List.isPrefixOf_iff_prefix.mp starts
  rw [List.drop_left] at opened
  obtain ⟨front, later, blank_front, rfl, rfl⟩ := (expect?_eq_some_iff (by decide)).mp opened
  obtain ⟨inner, found, blank_inner, rfl, gap⟩ := exists_blanks later
  have behind_bracket : (keyword ++ (front ++ '(' :: (inner ++ found))).drop
      (keyword.length + (front.length + 1)) = inner ++ found :=
    drop_of_eq (keyword ++ front ++ ['(']) (by simp) (by simp)
  rw [behind_bracket, gap] at quoted ended
  have at_quote : (keyword ++ (front ++ '(' :: (inner ++ found))).drop
      (keyword.length + (front.length + 1) + inner.length) = found :=
    drop_of_eq (keyword ++ front ++ '(' :: inner) (by simp) (by simp; omega)
  rw [at_quote] at quoted
  obtain ⟨mark, ending, quote, some_char, closed, rfl, length⟩ := literal?_eq_some_iff.mp quoted
  have behind_quote : (keyword ++ (front ++ '(' :: (inner ++
      mark :: (literal.specifier ++ mark :: ending)))).drop
      (keyword.length + (front.length + 1) + inner.length + literal.length) = ending := by
    refine drop_of_eq (keyword ++ front ++ '(' :: inner ++
      mark :: literal.specifier ++ [mark]) (by simp) ?_
    simp [length]
    omega
  rw [behind_quote] at ended
  obtain ⟨behind, rest, blank_behind, rfl, rfl⟩ := (expect?_eq_some_iff (by decide)).mp ended
  refine ⟨_, rest, ?_, .intro front inner behind mark ?_ quote some_char closed, ?_⟩
  · simp
  · simp only [List.forall_mem_append]
    exact ⟨⟨blank_front, blank_inner⟩, blank_behind⟩
  · simp [behind_bracket, gap, length]
    omega

/-- **The calls that are read** in front of a text. -/
theorem ofText?_eq_some_iff : ofText? cs = some call ↔
    ∃ text rest, cs = text ++ rest ∧ Spells call.specifier text ∧ call.length = text.length := by
  refine ⟨exists_spells_of_ofText?, ?_⟩
  rintro ⟨text, rest, rfl, spelled, length⟩
  rw [spelled.ofText?_append, ← length]

/-- **A text begins with one call at most.** -/
theorem Spells.eq_of_append_eq {other otherRest otherSpecifier : List Char}
    (spelled : Spells specifier text) (also : Spells otherSpecifier other)
    (same : text ++ rest = other ++ otherRest) : text = other ∧ specifier = otherSpecifier := by
  have read := spelled.ofText?_append rest
  rw [same, also.ofText?_append, Option.some.injEq, Call.mk.injEq] at read
  exact ⟨(List.append_inj same read.1.symm).1, read.2.symm⟩

end ScriptBundle.Call
