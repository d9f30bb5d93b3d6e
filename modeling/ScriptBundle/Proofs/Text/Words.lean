import Mathlib.Data.List.Basic
import ScriptBundle.Proofs.Json.Edges

/-! # Trimmed texts and words

A text is trimmed by what is left of it, and cut into words by what stands between blanks. Both
readings are told by how the text may be spelled, blanks included:

* **`IsTrimmed`, `trim_eq_iff`** — the trimmed text is the one that blanks were put around;
* **`IsWord`, `Spaced`** — words with blanks between them, and any around them;
* **`words_append_blank`** — a blank ends a word, so that a text is cut there;
* **`words_eq_iff`** — the words of a text are those it spells. -/

namespace ScriptBundle.Text

variable {cs core front back w gap : List Char} {c : Char} {ws : List (List Char)}

/-! ## Trimmed texts -/

/-- **A text that neither starts nor ends with a blank.** -/
structure IsTrimmed (cs : List Char) : Prop where
  /-- It does not start with a blank. -/
  first : ∀ c ∈ cs.head?, isBlank c = false
  /-- It does not end with a blank. -/
  last : ∀ c ∈ cs.getLast?, isBlank c = false

/-- The text without leading blanks does not start with one. -/
theorem isBlank_of_mem_head?_trimStart (h : c ∈ (trimStart cs).head?) : isBlank c = false := by
  have stops := List.head?_dropWhile_not isBlank cs
  rw [trimStart] at h
  rw [Option.mem_def.mp h] at stops
  simpa using stops

/-- **A trimmed text** neither starts nor ends with a blank. -/
theorem isTrimmed_trim (cs : List Char) : IsTrimmed (trim cs) := by
  constructor
  · intro c hc
    -- the blanks that are taken off behind are not all of the text, so it starts as before
    obtain ⟨ends, whole⟩ := List.dropWhile_suffix (l := (trimStart cs).reverse) isBlank
    have starts : trim cs ++ ends.reverse = trimStart cs := by
      rw [trim, ← List.reverse_append, trimStart, whole, List.reverse_reverse]
    have first : c ∈ (trimStart cs).head? := by
      rw [← starts, List.head?_append, Option.mem_def.mp hc]
      rfl
    exact isBlank_of_mem_head?_trimStart first
  · intro c hc
    rw [trim, List.getLast?_reverse] at hc
    exact isBlank_of_mem_head?_trimStart hc

/-- A text that does not start with a blank keeps its start. -/
theorem trimStart_eq_self (h : ∀ c ∈ cs.head?, isBlank c = false) : trimStart cs = cs := by
  cases cs with
  | nil => rfl
  | cons d ds => simp [trimStart, h d rfl]

/-- Blanks in front are taken off. -/
theorem trimStart_append_blanks (blank : ∀ c ∈ front, isBlank c = true) (cs : List Char) :
    trimStart (front ++ cs) = trimStart cs := by
  rw [trimStart, List.dropWhile_append_of_pos blank, trimStart]

/-- **Blanks around a text** are taken off. -/
theorem trim_surrounded (h : IsTrimmed core) (blank : ∀ c ∈ front, isBlank c = true)
    (blank' : ∀ c ∈ back, isBlank c = true) : trim (front ++ core ++ back) = core := by
  have reversed : ∀ c ∈ back.reverse, isBlank c = true := fun c hc =>
    blank' c (List.mem_reverse.mp hc)
  rw [trim, List.append_assoc, trimStart_append_blanks blank]
  cases core with
  | nil =>
      have nothing : trimStart back = [] := List.dropWhile_eq_nil_iff.mpr blank'
      rw [List.nil_append, nothing]
      rfl
  | cons d ds =>
      have kept : trimStart (d :: ds ++ back) = d :: ds ++ back := trimStart_eq_self h.first
      have ends : trimStart (d :: ds).reverse = (d :: ds).reverse := by
        apply trimStart_eq_self
        rw [List.head?_reverse]
        exact h.last
      rw [kept, List.reverse_append, trimStart_append_blanks reversed, ends, List.reverse_reverse]

/-- **What is left of a text** are the characters blanks were put around. -/
theorem trim_eq_iff : trim cs = core ↔ IsTrimmed core ∧ ∃ front back, cs = front ++ core ++ back ∧
    (∀ c ∈ front, isBlank c = true) ∧ ∀ c ∈ back, isBlank c = true := by
  constructor
  · rintro rfl
    exact ⟨isTrimmed_trim cs, exists_trim cs⟩
  · rintro ⟨trimmed, front, back, rfl, blank, blank'⟩
    exact trim_surrounded trimmed blank blank'

/-- A text is trimmed to nothing exactly if it is blank. -/
theorem trim_eq_nil_iff : trim cs = [] ↔ ∀ c ∈ cs, isBlank c = true := by
  constructor
  · intro nothing
    obtain ⟨front, back, whole, blank, blank'⟩ := exists_trim cs
    rw [whole, nothing, List.append_nil]
    exact List.forall_mem_append.mpr ⟨blank, blank'⟩
  · intro blank
    exact trim_eq_iff.mpr ⟨⟨by simp, by simp⟩, cs, [], by simp, blank, by simp⟩

/-! ## Words -/

/-- **A word**: a text with no blank in it that is not empty. -/
structure IsWord (w : List Char) : Prop where
  /-- It is not empty. -/
  ne_nil : w ≠ []
  /-- No character of it is a blank. -/
  solid : ∀ c ∈ w, isBlank c = false

/-- **A text of words**, with blanks between them and any around them. -/
inductive Spaced : List Char → List (List Char) → Prop
  /-- A text of blanks has no word. -/
  | blank {gap : List Char} (blank : ∀ c ∈ gap, isBlank c = true) : Spaced gap []
  /-- A word stands behind any blanks, and in front of a blank or of nothing. -/
  | word {gap w rest : List Char} {ws : List (List Char)} (blank : ∀ c ∈ gap, isBlank c = true)
      (word : IsWord w) (ends : ∀ c ∈ rest.head?, isBlank c = true) (spaced : Spaced rest ws) :
      Spaced (gap ++ w ++ rest) (w :: ws)

/-- A word may come at once. -/
theorem Spaced.first {rest : List Char} (word : IsWord w) (ends : ∀ c ∈ rest.head?, isBlank c = true)
    (spaced : Spaced rest ws) : Spaced (w ++ rest) (w :: ws) :=
  .word (List.forall_mem_nil _) word ends spaced

/-- Blanks may come in front. -/
theorem Spaced.behind (blank : ∀ c ∈ gap, isBlank c = true) (spaced : Spaced cs ws) :
    Spaced (gap ++ cs) ws := by
  cases spaced with
  | blank more => exact .blank (List.forall_mem_append.mpr ⟨blank, more⟩)
  | word more word ends spaced =>
      rw [← List.append_assoc, ← List.append_assoc]
      exact .word (List.forall_mem_append.mpr ⟨blank, more⟩) word ends spaced

/-- **A blank ends a word**, wherever it stands. -/
theorem words_append_blank (h : isBlank c = true) (front back : List Char) :
    words (front ++ c :: back) = words front ++ words back := by
  rw [words, words, words, List.splitOnP_append_cons front back h, List.filter_append]

/-- A word alone is its only word. -/
theorem IsWord.words_eq (h : IsWord w) : words w = [w] := by
  rw [words, List.splitOnP_eq_singleton h.solid]
  simp [h.ne_nil]

/-- Blanks in front of a word are no part of it. -/
theorem words_blanks_append (blank : ∀ c ∈ gap, isBlank c = true) (cs : List Char) :
    words (gap ++ cs) = words cs := by
  induction gap with
  | nil => rfl
  | cons c gap ih =>
      obtain ⟨first, rest⟩ := List.forall_mem_cons.mp blank
      rw [List.cons_append, words_cons_blank _ first, ih rest]

/-- A word in front of a blank or of nothing is the first. -/
theorem IsWord.words_append (h : IsWord w) {rest : List Char}
    (ends : ∀ c ∈ rest.head?, isBlank c = true) : words (w ++ rest) = w :: words rest := by
  cases rest with
  | nil => rw [List.append_nil, h.words_eq, words_nil]
  | cons c rest =>
      have blank := ends c rfl
      rw [words_append_blank blank, h.words_eq, words_cons_blank _ blank]
      rfl

/-- **The words of a text** that spells them. -/
theorem Spaced.words_eq (h : Spaced cs ws) : words cs = ws := by
  induction h with
  | blank blank => exact words_eq_nil_iff.mpr blank
  | word blank word ends _ ih =>
      rw [List.append_assoc, words_blanks_append blank, word.words_append ends, ih]

/-- **Every text is one of words.** -/
theorem exists_spaced (cs : List Char) : ∃ ws, Spaced cs ws := by
  -- on the characters: a blank comes in front of what follows, and any other starts a word or goes on
  -- with the one that follows at once
  induction cs with
  | nil => exact ⟨[], .blank (by simp)⟩
  | cons c cs ih =>
      obtain ⟨ws, spaced⟩ := ih
      by_cases blank : isBlank c = true
      · exact ⟨ws, spaced.behind (List.forall_mem_singleton.mpr blank)⟩
      · have solid : isBlank c = false := by simpa using blank
        have letter : IsWord [c] := ⟨by simp, by simpa using solid⟩
        cases spaced with
        | blank gap =>
            exact ⟨_, .first letter (fun d hd => gap d (List.mem_of_mem_head? hd)) (.blank gap)⟩
        | @word gap w rest ws blanks word ends spaced =>
            cases gap with
            | nil =>
                have longer : IsWord (c :: w) :=
                  ⟨by simp, List.forall_mem_cons.mpr ⟨solid, word.solid⟩⟩
                exact ⟨_, .first longer ends spaced⟩
            | cons d gap =>
                obtain ⟨first, -⟩ := List.forall_mem_cons.mp blanks
                refine ⟨_, .first letter (fun e he => ?_) (.word blanks word ends spaced)⟩
                obtain rfl : d = e := by simpa using he
                exact first

/-- **The words of a text** are those it spells. -/
theorem words_eq_iff : words cs = ws ↔ Spaced cs ws := by
  constructor
  · rintro rfl
    obtain ⟨ws, spaced⟩ := exists_spaced cs
    rw [spaced.words_eq]
    exact spaced
  · exact Spaced.words_eq

/-- The words of a text are words. -/
theorem Spaced.isWord (h : Spaced cs ws) : ∀ w ∈ ws, IsWord w := by
  induction h with
  | blank => simp
  | word _ word _ _ ih => exact List.forall_mem_cons.mpr ⟨word, ih⟩

/-- **Words with single blanks between them** are a text of these words. -/
theorem spaced_intercalate (words : ∀ w ∈ ws, IsWord w) : Spaced ([' '].intercalate ws) ws := by
  induction ws with
  | nil => exact .blank (by simp)
  | cons w ws ih =>
      obtain ⟨word, later⟩ := List.forall_mem_cons.mp words
      have spaced := ih later
      cases ws with
      | nil =>
          have alone : Spaced (w ++ []) [w] := .first word (by simp) (.blank (List.forall_mem_nil _))
          rw [List.append_nil] at alone
          rwa [List.intercalate_singleton]
      | cons v ws =>
          -- the blank between two words stands in front of the second
          rw [List.intercalate_cons_cons, List.append_assoc]
          have blank : ∀ c ∈ [' '], isBlank c = true := List.forall_mem_singleton.mpr (by decide)
          exact .first word (by simpa using blank) (spaced.behind blank)

end ScriptBundle.Text
