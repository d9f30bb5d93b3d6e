import ScriptBundle.Proofs.Script.Identifiers
import ScriptBundle.Proofs.Walk.Scanning

/-! # Names that end in the word of a reference

A call of a name that only ends in the word of a reference is none: the name has a character in front
of the word. Boundaries of words do not know all characters of names, though. The dollar sign and the
characters of names that are named one by one are in no word, and behind these a reference begins:

* **`Script.outside_of_reference`** — what stands in front of a reference is in no word;
* **`Script.segments_of_no_reference`** — a script without references is nothing but characters;
* **`Walk.references_behind_names`** — the names behind whose characters a reference begins. -/

namespace ScriptBundle

namespace Script

variable {c : Char} {front source text specifier : List Char}

/-- **No reference stands behind a character of words.** -/
theorem outside_of_reference {before after : List Segment}
    (h : segments source = before ++ .reference text specifier :: after)
    (last : (before.flatMap Segment.text).getLast? = some c) : Text.isWordChar c = false := by
  have occurs : Occurs ([] ++ before.flatMap Segment.text) text specifier
      (after.flatMap Segment.text) := occurs_of_segmentsFrom h
  simpa [endsInWord, last] using (occurs_iff.mp occurs).1

/-- A reference that is a segment is a call that stands in the script. -/
theorem spells_of_reference {before after : List Segment}
    (h : segments source = before ++ .reference text specifier :: after) :
    source = before.flatMap Segment.text ++ (text ++ after.flatMap Segment.text) ∧
      Call.Spells specifier text := by
  have occurs : Occurs ([] ++ before.flatMap Segment.text) text specifier
      (after.flatMap Segment.text) := occurs_of_segmentsFrom h
  refine ⟨?_, occurs.spells⟩
  have whole : (segments source).flatMap Segment.text = source := flatMap_text_segmentsFrom [] source
  rw [← whole, h]
  simp [Segment.text]

/-- Segments that are characters are those of their text. -/
theorem eq_map_char {all : List Segment} (single : ∀ segment ∈ all, ∃ c, segment = .char c) :
    all = (all.flatMap Segment.text).map .char := by
  induction all with
  | nil => rfl
  | cons segment rest ih =>
      obtain ⟨⟨c, rfl⟩, later⟩ := List.forall_mem_cons.mp single
      rw [List.flatMap_cons, Segment.text, List.singleton_append, List.map_cons, ← ih later]

/-- **A script none of whose `segments` is a reference is nothing but characters.** -/
theorem segments_of_no_reference
    (none : ∀ before text specifier after,
      segments source ≠ before ++ .reference text specifier :: after) :
    segments source = source.map .char := by
  have whole : (segments source).flatMap Segment.text = source := flatMap_text_segmentsFrom [] source
  have single : ∀ segment ∈ segments source, ∃ c, segment = .char c := by
    intro segment member
    obtain ⟨before, after, split⟩ := List.append_of_mem member
    cases segment with
    | char c => exact ⟨c, rfl⟩
    | reference text specifier => exact absurd split (none before text specifier after)
  calc segments source = ((segments source).flatMap Segment.text).map .char := eq_map_char single
    _ = source.map .char := by rw [whole]

/-- **Behind a character that is in no word** a call is a reference. -/
theorem segments_cons_of_spells (outside : Text.isWordChar c = false)
    (spelled : Call.Spells specifier text) :
    segments (c :: text) = [.char c, .reference text specifier] := by
  have other : c ≠ 'r' := by
    rintro rfl
    exact absurd outside (by decide)
  have none : ∀ call specifier rest, c :: text = call ++ rest → ¬Occurs [] call specifier rest := by
    intro call specifier rest same occurs
    obtain ⟨letters, rfl⟩ := exists_eq_cons_of_spells occurs.spells
    exact other (List.cons.inj same).1
  have occurs : Occurs ([] ++ [c]) text specifier [] :=
    occurs_iff.mpr ⟨by rw [endsInWord_append_singleton, outside], spelled⟩
  have first := segmentsFrom_of_not_occurs none
  have second := segmentsFrom_of_occurs occurs
  rw [List.append_nil] at second
  rw [second] at first
  exact first

end Script

namespace Walk

open Text (isIdentifierChar strayChars)

/-- **Calls of other names are no references, unless these have a stray character in front of the
word**, for every script. The character in front of a reference belongs to no name or is a stray one.
So a script all of whose calls are of names that go on, in front of the word, with any other character
of names is linked to itself: nothing in it is replaced or searched, and it cannot fail. And a call
with a stray character in front is a reference, although this is a character of names. -/
theorem references_behind_names (source : List Char) :
    (∀ before text specifier after,
      Script.segments source = before ++ .reference text specifier :: after →
      source = before.flatMap Segment.text ++ (text ++ after.flatMap Segment.text) ∧
        Call.Spells specifier text ∧
        ∀ c, (before.flatMap Segment.text).getLast? = some c → isIdentifierChar c = true →
          c ∈ strayChars) ∧
    ((∀ front text specifier back, source = front ++ (text ++ back) → Call.Spells specifier text →
        ∃ c, front.getLast? = some c ∧ isIdentifierChar c = true ∧ c ∉ strayChars) →
      ∀ (P : Project) (referrer : Path) (walk : Walk),
        linkAll P referrer walk (Script.segments source) = (.ok source, walk)) ∧
    ∀ c ∈ strayChars, isIdentifierChar c = true ∧ ∀ specifier, Call.Spells specifier source →
      Script.segments (c :: source) = [.char c, .reference source specifier] := by
  have behind : ∀ before text specifier after,
      Script.segments source = before ++ .reference text specifier :: after →
      ∀ c, (before.flatMap Segment.text).getLast? = some c → isIdentifierChar c = true →
        c ∈ strayChars :=
    fun _ _ _ _ h c last name =>
      (Text.isWordChar_eq_false_iff name).mp (Script.outside_of_reference h last)
  refine ⟨fun before text specifier after h => ?_, fun named P referrer walk => ?_,
    fun c stray => ?_⟩
  · obtain ⟨whole, spelled⟩ := Script.spells_of_reference h
    exact ⟨whole, spelled, behind before text specifier after h⟩
  · -- a reference would be a call behind a stray character
    have none : ∀ before text specifier after,
        Script.segments source ≠ before ++ .reference text specifier :: after := by
      intro before text specifier after h
      obtain ⟨whole, spelled⟩ := Script.spells_of_reference h
      obtain ⟨c, last, name, kept⟩ := named _ _ _ _ whole spelled
      exact kept (behind before text specifier after h c last name)
    rw [Script.segments_of_no_reference none, linkAll_map_char]
  · obtain ⟨outside, name⟩ := Text.of_mem_strayChars stray
    exact ⟨name, fun specifier spelled => Script.segments_cons_of_spells outside spelled⟩

/-- A call of a name with a low line in front of the word is no reference. -/
example : Script.segments "_require('a')".toList = "_require('a')".toList.map .char := by
  decide +kernel

/-- A script that calls another name, which ends in the word behind a dollar sign. -/
def dollarScript : Workspace :=
  ⟨⟨[(["virtual", "top", "root", "entry.js"], .text "$require('./missing')")], []⟩, []⟩

/-- The project of this script. -/
def dollarProject : Project :=
  ⟨⟨"/virtual/top/root/entry.js"⟩, .initial, Registry.initial.resolutionExtensions, .fail⟩

/-- **A call of another name can be taken for a reference**: behind a dollar sign, which is a character
of names, the target of the call is searched, and the script fails as there is none. -/
theorem reference_behind_dollar :
    isIdentifierChar '$' = true ∧
    Script.segments "$require('./missing')".toList =
      [.char '$', .reference "require('./missing')".toList "./missing".toList] ∧
    (next dollarProject (start dollarProject dollarScript)).1 =
      some (.error (.unresolvedReference "./missing" ⟨"/virtual/top/root/entry.js"⟩
        (.notFound "./missing" ⟨"/virtual/top/root"⟩))) := by
  refine ⟨by decide +kernel, by decide +kernel, by decide +kernel⟩

end Walk

end ScriptBundle
