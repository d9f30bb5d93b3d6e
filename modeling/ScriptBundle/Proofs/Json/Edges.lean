import Mathlib.Data.List.Basic
import Mathlib.Data.List.TakeWhile
import ScriptBundle.Compiler.Basic

/-! # The edges of JSON documents

A file that holds a document may have blanks around the document, and a byte order mark in front. The
compiler of documents takes off both before it cuts the text into tokens, and any character with the
property White_Space is a blank for it. Between tokens only the four blanks of the grammar may stand.
So the text of the file is cut into the same tokens as the document, or into none:

* **`Json.tokensFrom_append_blanks`** — a text with blanks behind it, cut into tokens;
* **`Compiler.HasPlainEdges`** — a file from which only blanks of the grammar are taken off;
* **`Compiler.tokens?_toList_eq_some_iff`** — the tokens of a file and of the document it holds. -/

namespace ScriptBundle

/-- A text is what its trimmed text was cut out of. -/
theorem Text.exists_trim (cs : List Char) :
    ∃ front back, cs = front ++ trim cs ++ back ∧
      (∀ c ∈ front, isBlank c = true) ∧ ∀ c ∈ back, isBlank c = true := by
  refine ⟨cs.takeWhile isBlank, ((trimStart cs).reverse.takeWhile isBlank).reverse, ?_,
    fun c hc => List.mem_takeWhile_imp hc,
    fun c hc => List.mem_takeWhile_imp (List.mem_reverse.mp hc)⟩
  have behind : trim cs ++ ((trimStart cs).reverse.takeWhile isBlank).reverse = trimStart cs := by
    have whole := List.takeWhile_append_dropWhile (p := isBlank) (l := (trimStart cs).reverse)
    rw [trim, trimStart, ← List.reverse_append, whole, List.reverse_reverse]
  rw [List.append_assoc, behind, trimStart, List.takeWhile_append_dropWhile]

namespace Json

open Text (isBlank)

variable {c : Char} {cs front back : List Char} {cut : Cut} {tokens : List Token}

/-! ## Blanks -/

/-- Blanks are no characters of the grammar, but for its own blanks. -/
theorem toNat_of_isBlank (h : isBlank c = true) : c.toNat ≤ 0x20 ∨ 0x7f < c.toNat := by
  unfold isBlank at h
  simp only [Bool.or_eq_true, Bool.and_eq_true, decide_eq_true_eq, beq_iff_eq] at h
  omega

/-- What may stand between two tokens, by `isGap`, is a blank. -/
theorem isBlank_of_isGap (h : isGap c = true) : isBlank c = true := by
  unfold isGap at h
  simp only [Bool.or_eq_true, beq_iff_eq] at h
  rcases h with ((rfl | rfl) | rfl) | rfl <;> decide

/-- A blank is no part of a word. -/
theorem isWordPart_of_isBlank (h : isBlank c = true) : isWordPart c = false := by
  have range := toNat_of_isBlank h
  by_contra part
  simp only [isWordPart, Char.isAlphanum, Bool.not_eq_false, Bool.or_eq_true, beq_iff_eq] at part
  have between {low high : UInt32} (h : low ≤ c.val ∧ c.val ≤ high) :
      low.toNat ≤ c.toNat ∧ c.toNat ≤ high.toNat :=
    h.imp UInt32.le_iff_toNat_le.mp UInt32.le_iff_toNat_le.mp
  -- letters and digits lie between the blanks of ASCII and the others, and so do the three marks
  rcases part with ((((letter | digit) | rfl) | rfl) | rfl)
  · rcases Bool.or_eq_true_iff.mp letter with upper | lower
    · have : 65 ≤ c.toNat ∧ c.toNat ≤ 90 := between (of_decide_eq_true upper)
      omega
    · have : 97 ≤ c.toNat ∧ c.toNat ≤ 122 :=
        between ((Bool.and_eq_true_iff.mp lower).imp of_decide_eq_true of_decide_eq_true)
      omega
  · have : 48 ≤ c.toNat ∧ c.toNat ≤ 57 :=
      between ((Bool.and_eq_true_iff.mp digit).imp of_decide_eq_true of_decide_eq_true)
    omega
  all_goals exact absurd range (by decide)

/-- A blank starts no token. It is passed over if it is a blank of the grammar. -/
theorem enter_of_isBlank (h : isBlank c = true) (rest : List Char) :
    Cut.enter c rest = if isGap c then some (none, .between) else none := by
  by_cases gap : isGap c = true
  · rw [Cut.enter, if_pos gap, if_pos gap]
  have range := toNat_of_isBlank h
  have quote : c ≠ '\x22' := by
    rintro rfl
    exact absurd range (by decide)
  have mark : ofMark? c = none := by
    unfold ofMark?
    split <;> first | rfl | exact absurd range (by decide)
  rw [Cut.enter, if_neg gap, if_neg quote, if_neg (by simp [isWordPart_of_isBlank h]), mark, if_neg gap]
  rfl

/-! ## Cutting -/

/-- Words end in front of blanks. -/
theorem takeWhile_append_blanks (blank : ∀ c ∈ back, isBlank c = true) (cs : List Char) :
    (cs ++ back).takeWhile isWordPart = cs.takeWhile isWordPart := by
  induction cs with
  | nil =>
      cases back with
      | nil => rfl
      | cons c rest =>
          have no_word := isWordPart_of_isBlank (blank c List.mem_cons_self)
          rw [List.nil_append, List.takeWhile_cons_of_neg (by simp [no_word]), List.takeWhile_nil]
  | cons c cs ih => rw [List.cons_append, List.takeWhile_cons, List.takeWhile_cons, ih]

/-- The cutting takes the same step whether blanks follow or not. -/
theorem step_append_blanks (blank : ∀ c ∈ back, isBlank c = true) (cut : Cut) (c : Char)
    (cs : List Char) : cut.step c (cs ++ back) = cut.step c cs := by
  have same : Cut.enter c (cs ++ back) = Cut.enter c cs := by
    rw [Cut.enter, Cut.enter, takeWhile_append_blanks blank]
  cases cut with
  | between => exact same
  | word => rw [Cut.step, Cut.step, same]
  | text read escaped => rfl

/-- The tokens from a character on are those it ends and those behind it. -/
theorem tokensFrom_cons (cut : Cut) (c : Char) (rest : List Char) :
    tokensFrom cut (c :: rest) = (cut.step c rest).bind fun behind =>
      (tokensFrom behind.2 rest).map (behind.1.toList ++ ·) := by
  rw [tokensFrom]
  cases cut.step c rest with
  | none => rfl
  | some behind =>
      obtain ⟨token, cut⟩ := behind
      cases token <;> simp

/-- **Blanks in front of a text** are passed over if they are blanks of the grammar. -/
theorem tokensFrom_between_append (blank : ∀ c ∈ front, isBlank c = true) :
    tokensFrom .between (front ++ cs) = some tokens ↔
      (∀ c ∈ front, isGap c = true) ∧ tokensFrom .between cs = some tokens := by
  induction front with
  | nil => simp
  | cons c rest ih =>
      obtain ⟨first, blank⟩ := List.forall_mem_cons.mp blank
      rw [List.cons_append, tokensFrom_cons, Cut.step, enter_of_isBlank first, List.forall_mem_cons]
      by_cases gap : isGap c = true
      · rw [if_pos gap]
        simpa [gap] using ih blank
      · simp [gap]

/-- Blanks end a word. -/
theorem tokensFrom_word_blanks (blank : ∀ c ∈ back, isBlank c = true) :
    tokensFrom .word back = tokensFrom .between back := by
  cases back with
  | nil => rfl
  | cons c rest =>
      have no_word := isWordPart_of_isBlank (blank c List.mem_cons_self)
      rw [tokensFrom_cons, tokensFrom_cons, Cut.step, Cut.step, if_neg (by simp [no_word])]

/-- Inside a text, blanks are part of it. -/
theorem tokensFrom_text_blanks (blank : ∀ c ∈ back, isBlank c = true) (read : List Char)
    (escaped : Bool) : tokensFrom (.text read escaped) back = none := by
  induction back generalizing read escaped with
  | nil => rfl
  | cons c rest ih =>
      obtain ⟨first, blank⟩ := List.forall_mem_cons.mp blank
      have quote : c ≠ '\x22' := by
        rintro rfl
        exact absurd first (by decide)
      rw [tokensFrom_cons, Cut.step]
      cases escaped with
      | true => simp [ih blank]
      | false => simp [quote, ih blank]

/-- **A text with blanks behind it** is cut into the same `tokens` if they are blanks of the grammar. -/
theorem tokensFrom_append_blanks (blank : ∀ c ∈ back, isBlank c = true) :
    tokensFrom cut (cs ++ back) = some tokens ↔
      (∀ c ∈ back, isGap c = true) ∧ tokensFrom cut cs = some tokens := by
  induction cs generalizing cut tokens with
  | nil =>
      have between : tokensFrom .between back = some tokens ↔
          (∀ c ∈ back, isGap c = true) ∧ tokensFrom .between [] = some tokens := by
        rw [← tokensFrom_between_append blank, List.append_nil]
      rw [List.nil_append]
      cases cut with
      | between => exact between
      | word =>
          rw [tokensFrom_word_blanks blank]
          exact between
      | text read escaped => simp [tokensFrom_text_blanks blank, tokensFrom]
  | cons c rest ih =>
      rw [List.cons_append, tokensFrom_cons, step_append_blanks blank, tokensFrom_cons]
      cases cut.step c rest with
      | none => simp
      | some behind =>
          simp only [Option.bind_some, Option.map_eq_some_iff, ih]
          tauto

end Json

namespace Compiler

open Json (Token isGap tokens?)
open Text (isBlank)

variable {text : String} {tokens : List Token}

/-- **A file with plain edges**: what the compiler of documents takes off is blanks of the grammar. -/
def HasPlainEdges (text : String) : Prop :=
  ∃ front back, text.toList = front ++ documentText text ++ back ∧
    ∀ c ∈ front ++ back, isGap c = true

/-- A text that is cut into `tokens` has no byte order mark, so it is only trimmed. -/
theorem documentText_of_tokens? (h : tokens? text.toList = some tokens) :
    documentText text = Text.trim text.toList := by
  unfold documentText
  split
  · rename_i cs marked
    have none : Json.Cut.enter '\uFEFF' cs = none := by
      unfold Json.Cut.enter
      rw [if_neg (by decide), if_neg (by decide), if_neg (by decide)]
      rfl
    rw [marked, tokens?, Json.tokensFrom_cons, Json.Cut.step, none] at h
    exact absurd h (by simp)
  · rfl

/-- **A file is cut into the `tokens` of its document** if its edges are plain, and into none
otherwise. -/
theorem tokens?_toList_eq_some_iff :
    tokens? text.toList = some tokens ↔
      HasPlainEdges text ∧ tokens? (documentText text) = some tokens := by
  have edges : ∀ front back : List Char, (∀ c ∈ front, isBlank c = true) →
      (∀ c ∈ back, isBlank c = true) → text.toList = front ++ documentText text ++ back →
      (tokens? text.toList = some tokens ↔
        (∀ c ∈ front ++ back, isGap c = true) ∧ tokens? (documentText text) = some tokens) := by
    intro front back blank blank' whole
    rw [whole, tokens?, Json.tokensFrom_append_blanks blank', Json.tokensFrom_between_append blank,
      List.forall_mem_append, tokens?]
    tauto
  constructor
  · intro h
    obtain ⟨front, back, whole, blank, blank'⟩ := Text.exists_trim text.toList
    rw [← documentText_of_tokens? h] at whole
    obtain ⟨plain, cut⟩ := (edges front back blank blank' whole).mp h
    exact ⟨⟨front, back, whole, plain⟩, cut⟩
  · rintro ⟨⟨front, back, whole, plain⟩, cut⟩
    obtain ⟨plain_front, plain_back⟩ := List.forall_mem_append.mp plain
    refine (edges front back (fun c hc => ?_) (fun c hc => ?_) whole).mpr ⟨plain, cut⟩
    · exact Json.isBlank_of_isGap (plain_front c hc)
    · exact Json.isBlank_of_isGap (plain_back c hc)

end Compiler

end ScriptBundle
