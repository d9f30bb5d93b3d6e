import ScriptBundle.Proofs.Script.Calls

/-! # The references of a script

Which references a script has, told without the reader that goes through it character by character.
A reference occurs where a call is spelled behind a boundary of words. A script is cut at the leftmost
references: in the gap in front of each no other begins, and none begins in what is left behind the
last. There is one such cut, and it is the one the segments of the script are made of:

* **`Script.Occurs`** — a reference between two parts of a text;
* **`Script.IsFree`** — a gap in which no reference begins;
* **`Script.Cut`, `Script.IsCut`** — gaps and references in turn, each reference the leftmost one;
* **`Script.IsCut.unique`** — a text is cut in one way only;
* **`Script.scan_induction`** — a text gone through from left to right, reference by reference;
* **`Script.exists_isCut`** — the segments of a text are those of its cut;
* **`Script.occurs_of_segmentsFrom`** — a segment that is a reference occurs where it stands. -/

namespace ScriptBundle.Script

/-! ## Occurrences -/

/-- **Whether a word starts or ends** between two characters, each of which may be missing. -/
def isBoundary (before after : Option Char) : Bool :=
  before.any Text.isWordChar != after.any Text.isWordChar

/-- **A reference occurs** between two parts of a text. -/
structure Occurs (front text specifier back : List Char) : Prop where
  /-- A word starts or ends in front of it. -/
  boundary : isBoundary front.getLast? (text ++ back).head? = true
  /-- It is a call of its specifier. -/
  spells : Call.Spells specifier text

/-- **No reference begins in a gap** between two parts of a text. -/
def IsFree (front gap back : List Char) : Prop :=
  ∀ inner text specifier rest, gap ++ back = inner ++ (text ++ rest) → inner.length < gap.length →
    ¬Occurs (front ++ inner) text specifier rest

/-- Whether a text ends with a character of words. -/
def endsInWord (cs : List Char) : Bool := cs.getLast?.any Text.isWordChar

variable {c : Char} {front gap back rest source text specifier : List Char}

/-- A text ends in a word where its last character is a word character. -/
@[simp] theorem endsInWord_append_singleton (front : List Char) (c : Char) :
    endsInWord (front ++ [c]) = Text.isWordChar c := by
  simp [endsInWord]

/-- A call begins with a character of words. -/
theorem exists_eq_cons_of_spells (h : Call.Spells specifier text) :
    ∃ rest, text = 'r' :: rest := by
  obtain ⟨front, inner, behind, mark, blank, quote, some_char, closed⟩ := h
  exact ⟨_, rfl⟩

/-- **A reference occurs where no character of words stands in front of a call.** -/
theorem occurs_iff :
    Occurs front text specifier back ↔ endsInWord front = false ∧ Call.Spells specifier text := by
  -- the word of a call starts with a character of words itself
  have starts (h : Call.Spells specifier text) :
      isBoundary front.getLast? (text ++ back).head? = !endsInWord front := by
    obtain ⟨rest, rfl⟩ := exists_eq_cons_of_spells h
    have letter : Text.isWordChar 'r' = true := by decide
    simp [isBoundary, endsInWord, letter]
  constructor
  · rintro ⟨boundary, spells⟩
    rw [starts spells] at boundary
    exact ⟨by simpa using boundary, spells⟩
  · rintro ⟨outside, spells⟩
    exact ⟨by rw [starts spells, outside]; rfl, spells⟩

/-! ## Gaps -/

/-- In a text of no characters no call begins. -/
theorem isFree_nil (front back : List Char) : IsFree front [] back :=
  fun _ _ _ _ _ short => absurd short (Nat.not_lt_zero _)

/-- A gap may begin one character earlier if no reference begins with this character. -/
theorem IsFree.cons (here : ∀ text specifier rest, c :: (gap ++ back) = text ++ rest →
      ¬Occurs front text specifier rest) (later : IsFree (front ++ [c]) gap back) :
    IsFree front (c :: gap) back := by
  intro inner text specifier rest same short occurs
  cases inner with
  | nil =>
      rw [List.append_nil] at occurs
      exact here text specifier rest same occurs
  | cons d inner =>
      rw [List.cons_append, List.cons_append] at same
      obtain ⟨rfl, tail⟩ := List.cons.inj same
      refine later inner text specifier rest tail (Nat.lt_of_succ_lt_succ short) ?_
      rwa [List.append_assoc, List.singleton_append]

/-- **The leftmost reference behind a part is one.** -/
theorem IsFree.length_le (free : IsFree front gap back) {inner : List Char}
    (same : gap ++ back = inner ++ (text ++ rest))
    (occurs : Occurs (front ++ inner) text specifier rest) : gap.length ≤ inner.length :=
  Nat.le_of_not_lt fun short => free inner text specifier rest same short occurs

/-- Where nothing follows a gap, no reference occurs in it at all. -/
theorem IsFree.not_occurs {inner : List Char} (free : IsFree front (inner ++ (text ++ rest)) []) :
    ¬Occurs (front ++ inner) text specifier rest := by
  intro occurs
  have short := free.length_le (List.append_nil _) occurs
  obtain ⟨letters, rfl⟩ := exists_eq_cons_of_spells occurs.spells
  rw [List.length_append, List.cons_append, List.length_cons] at short
  omega

/-! ## Cuts -/

/-- **A reference that was found**, with the gap in front of it. -/
structure Finding where
  /-- What stands in front of the reference, up to the one before. -/
  gap : List Char
  /-- The whole text of the reference. -/
  text : List Char
  /-- What stands between its quotes. -/
  specifier : List Char
deriving DecidableEq, Repr

/-- **A script cut at `references`**: these, and what is left behind the last. -/
structure Cut where
  /-- The references, from left to right. -/
  findings : List Finding
  /-- What is left behind the last. -/
  last : List Char
deriving DecidableEq, Repr

namespace Cut

/-- **A script with other texts in the places of its references**: the gaps stay as they are. -/
def fill (cut : Cut) (replacements : List (List Char)) : List Char :=
  (cut.findings.zipWith (fun finding text => finding.gap ++ text) replacements).flatten ++ cut.last

/-- The `texts` of the references. -/
def texts (cut : Cut) : List (List Char) := cut.findings.map Finding.text

/-- The `segments` of a script that is cut. -/
def segments (cut : Cut) : List Segment :=
  (cut.findings.flatMap fun finding =>
    finding.gap.map .char ++ [.reference finding.text finding.specifier]) ++ cut.last.map .char

/-- A cut with one more character in front. -/
def cons (c : Char) : Cut → Cut
  | ⟨[], last⟩ => ⟨[], c :: last⟩
  | ⟨finding :: findings, last⟩ => ⟨{ finding with gap := c :: finding.gap } :: findings, last⟩

/-- One character more in front of a `Cut` is one segment more. -/
theorem segments_cons (c : Char) (cut : Cut) : (cut.cons c).segments = .char c :: cut.segments := by
  obtain ⟨_ | ⟨finding, findings⟩, last⟩ := cut <;> simp [cons, segments]

end Cut

/-- **A text is cut at its leftmost references**, behind what stands in front of it. -/
inductive IsCut : (front : List Char) → Cut → (source : List Char) → Prop
  /-- No reference begins any more. -/
  | last {front last : List Char} (free : IsFree front last []) : IsCut front ⟨[], last⟩ last
  /-- No reference begins in a gap, one occurs behind it, and what is behind that is cut. -/
  | found {front gap text specifier rest last : List Char} {findings : List Finding}
      (free : IsFree front gap (text ++ rest)) (occurs : Occurs (front ++ gap) text specifier rest)
      (later : IsCut (front ++ gap ++ text) ⟨findings, last⟩ rest) :
      IsCut front ⟨⟨gap, text, specifier⟩ :: findings, last⟩ (gap ++ (text ++ rest))

variable {cut other : Cut}

/-- The gaps and the references together are the text. -/
theorem IsCut.fill_texts (h : IsCut front cut source) : cut.fill cut.texts = source := by
  induction h with
  | last free => simp [Cut.fill, Cut.texts]
  | found free occurs later ih =>
      simp only [Cut.fill, Cut.texts] at ih
      simp [Cut.fill, Cut.texts, ih]

/-- A cut of a text that begins one character earlier, if no reference begins with this character. -/
theorem IsCut.cons (here : ∀ text specifier rest, c :: source = text ++ rest →
      ¬Occurs front text specifier rest) (h : IsCut (front ++ [c]) cut source) :
    IsCut front (cut.cons c) (c :: source) := by
  cases h with
  | last free => exact .last (.cons (by simpa using here) free)
  | found free occurs later =>
      refine IsCut.found (.cons here free) ?_ ?_
      · simpa using occurs
      · simpa using later

/-- **A text is cut in one way only.** -/
theorem IsCut.unique (h : IsCut front cut source) (also : IsCut front other source) :
    cut = other := by
  suffices ∀ {again}, IsCut front other again → source = again → cut = other from this also rfl
  clear also
  -- on the references of the first; the first gaps are both the shortest with a reference behind
  induction h generalizing other with
  | last free =>
      rintro again also rfl
      cases also with
      | last => rfl
      | found _ occurs _ => exact absurd occurs free.not_occurs
  | @found front gap text specifier rest last findings free occurs later ih =>
      rintro again also same
      cases also with
      | last none =>
          subst same
          exact absurd occurs none.not_occurs
      | found none here behind =>
          have gaps := Nat.le_antisymm (free.length_le same here) (none.length_le same.symm occurs)
          obtain ⟨rfl, behind_gap⟩ := List.append_inj same gaps
          obtain ⟨rfl, rfl⟩ := occurs.spells.eq_of_append_eq here.spells behind_gap
          have rests := ih behind (List.append_cancel_left behind_gap)
          obtain ⟨rfl, rfl⟩ := Cut.mk.inj rests
          rfl

/-! ## The segments of a script -/

/-- What belongs to a reference is passed over. -/
theorem segmentsFrom_append (front text rest : List Char) :
    segmentsFrom (endsInWord front) text.length (text ++ rest) =
      segmentsFrom (endsInWord (front ++ text)) 0 rest := by
  induction text generalizing front with
  | nil => rw [List.append_nil, List.length_nil, List.nil_append]
  | cons c text ih =>
      have later := ih (front ++ [c])
      rw [endsInWord_append_singleton, List.append_assoc] at later
      exact later

/-- A reference that occurs in front of a text is a segment of its own. -/
theorem segmentsFrom_of_occurs (occurs : Occurs front text specifier rest) :
    segmentsFrom (endsInWord front) 0 (text ++ rest) =
      .reference text specifier :: segmentsFrom (endsInWord (front ++ text)) 0 rest := by
  obtain ⟨outside, spells⟩ := occurs_iff.mp occurs
  have read := spells.ofText?_append rest
  have behind := segmentsFrom_append front text rest
  obtain ⟨letters, rfl⟩ := exists_eq_cons_of_spells spells
  rw [List.cons_append] at read behind ⊢
  rw [← behind, outside, segmentsFrom, if_neg Bool.false_ne_true, read]
  simp [segmentsFrom]

/-- Where no reference occurs, a character is a segment of its own. -/
theorem segmentsFrom_of_not_occurs
    (none : ∀ text specifier rest, c :: source = text ++ rest → ¬Occurs front text specifier rest) :
    segmentsFrom (endsInWord front) 0 (c :: source) =
      .char c :: segmentsFrom (endsInWord (front ++ [c])) 0 source := by
  have unread : (if endsInWord front then Option.none else Call.ofText? (c :: source)) =
      Option.none := by
    cases outside : endsInWord front with
    | true => rfl
    | false =>
        refine Option.eq_none_iff_forall_ne_some.mpr fun call read => ?_
        obtain ⟨text, rest, same, spells, -⟩ := Call.exists_spells_of_ofText? read
        exact none text _ rest same (occurs_iff.mpr ⟨outside, spells⟩)
  rw [segmentsFrom, unread, endsInWord_append_singleton]

/-- **A text is gone through from left to right**: past the reference in front of it, or past its first
character if none occurs there. -/
@[elab_as_elim]
theorem scan_induction {motive : List Char → List Char → Prop}
    (ended : ∀ front, motive front [])
    (reference : ∀ front text specifier rest, Occurs front text specifier rest →
      motive (front ++ text) rest → motive front (text ++ rest))
    (char : ∀ front c source, (∀ text specifier rest, c :: source = text ++ rest →
      ¬Occurs front text specifier rest) → motive (front ++ [c]) source → motive front (c :: source))
    (front source : List Char) : motive front source := by
  -- on the length of the text: a reference takes some characters at once
  induction length : source.length using Nat.strong_induction_on generalizing front source with
  | _ n ih =>
      subst length
      by_cases occurs : ∃ text specifier rest, source = text ++ rest ∧
        Occurs front text specifier rest
      · obtain ⟨text, specifier, rest, rfl, occurs⟩ := occurs
        have shorter : rest.length < (text ++ rest).length := by
          obtain ⟨letters, rfl⟩ := exists_eq_cons_of_spells occurs.spells
          rw [List.length_append, List.length_cons]
          omega
        exact reference front text specifier rest occurs (ih _ shorter (front ++ text) rest rfl)
      · cases source with
        | nil => exact ended front
        | cons c source =>
            refine char front c source ?_ (ih _ (Nat.lt_succ_self _) (front ++ [c]) source rfl)
            exact fun text specifier rest same here => occurs ⟨text, specifier, rest, same, here⟩

/-- **The `segments` of a text are those of its cut.** -/
theorem exists_isCut (front source : List Char) : ∃ cut, IsCut front cut source ∧
    segmentsFrom (endsInWord front) 0 source = cut.segments := by
  induction front, source using scan_induction with
  | ended front => exact ⟨⟨[], []⟩, .last (isFree_nil front []), rfl⟩
  | reference front text specifier rest occurs ih =>
      obtain ⟨⟨findings, last⟩, isCut, segments⟩ := ih
      refine ⟨⟨⟨[], text, specifier⟩ :: findings, last⟩, ?_, ?_⟩
      · refine IsCut.found (isFree_nil front (text ++ rest)) ?_ ?_
        · rwa [List.append_nil]
        · rwa [List.append_nil]
      · rw [segmentsFrom_of_occurs occurs, segments]
        rfl
  | char front c source none ih =>
      obtain ⟨cut, isCut, segments⟩ := ih
      refine ⟨cut.cons c, isCut.cons none, ?_⟩
      rw [segmentsFrom_of_not_occurs none, segments, Cut.segments_cons]

/-- **The segments of a text are the text.** -/
theorem flatMap_text_segmentsFrom (front source : List Char) :
    (segmentsFrom (endsInWord front) 0 source).flatMap Segment.text = source := by
  induction front, source using scan_induction with
  | ended front => rfl
  | reference front text specifier rest occurs ih =>
      rw [segmentsFrom_of_occurs occurs, List.flatMap_cons, ih, Segment.text]
  | char front c source none ih =>
      rw [segmentsFrom_of_not_occurs none, List.flatMap_cons, ih, Segment.text,
        List.singleton_append]

/-- **A segment that is a reference occurs** behind the text of the segments in front of it. -/
theorem occurs_of_segmentsFrom {before after : List Segment}
    (h : segmentsFrom (endsInWord front) 0 source =
      before ++ .reference text specifier :: after) :
    Occurs (front ++ before.flatMap Segment.text) text specifier
      (after.flatMap Segment.text) := by
  induction front, source using scan_induction generalizing before with
  | ended front => simp [segmentsFrom] at h
  | reference front here found rest occurs ih =>
      rw [segmentsFrom_of_occurs occurs] at h
      cases before with
      | nil =>
          obtain ⟨⟨rfl, rfl⟩, rfl⟩ := by simpa using h
          rwa [List.flatMap_nil, List.append_nil, flatMap_text_segmentsFrom]
      | cons segment before =>
          obtain ⟨rfl, behind⟩ := List.cons.inj h
          simpa [Segment.text] using ih behind
  | char front c source none ih =>
      rw [segmentsFrom_of_not_occurs none] at h
      cases before with
      | nil => simp at h
      | cons segment before =>
          obtain ⟨rfl, behind⟩ := List.cons.inj h
          simpa [Segment.text] using ih behind

end ScriptBundle.Script
