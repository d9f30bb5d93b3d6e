import ScriptBundle.Proofs.Script.Scan
import ScriptBundle.Proofs.Walk.Step

/-! # Scanned scripts

A script is linked by replacing its references one after the other. What is handed on are the
references of the one cut of the script, each with its whole text and its specifier, in the order they
stand in it; what stands between them is kept character for character:

* **`Walk.followAll`** — references replaced one after the other;
* **`Walk.linkAll_cut`** — the segments of a cut, linked;
* **`Walk.linkAll_fills_cut`** — a script, linked. -/

namespace ScriptBundle.Walk

open Script (Cut Finding IsCut)

/-- **References replaced one after the other**, each from the `walk` the one before has left. The first
that fails ends it. -/
def followAll (P : Project) (referrer : Path) :
    Walk → List Finding → Except BundleError (List (List Char)) × Walk
  | walk, [] => (.ok [], walk)
  | walk, finding :: rest =>
    match follow P referrer walk finding.text finding.specifier with
    | (.error e, after) => (.error e, after)
    | (.ok replacement, between) =>
      match followAll P referrer between rest with
      | (.ok replacements, after) => (.ok (replacement :: replacements), after)
      | (.error e, after) => (.error e, after)

variable {P : Project} {walk after : Walk} {referrer : Path} {findings : List Finding}

/-- Each reference is replaced by one text, if none fails. -/
theorem length_followAll {replacements : List (List Char)}
    (h : followAll P referrer walk findings = (.ok replacements, after)) :
    replacements.length = findings.length := by
  induction findings generalizing walk replacements with
  | nil =>
      obtain ⟨rfl, -⟩ : [] = replacements ∧ walk = after := by simpa [followAll] using h
      rfl
  | cons finding rest ih =>
      rw [followAll] at h
      split at h
      · simp at h
      · split at h <;> rename_i later
        · obtain ⟨rfl, rfl⟩ := by simpa using h
          rw [List.length_cons, List.length_cons, ih later]
        · simp at h

/-- Characters in front of some `segments` stay as they are. -/
theorem linkAll_map_char_append (cs : List Char) (segments : List Segment) :
    linkAll P referrer walk (cs.map .char ++ segments) =
      ((linkAll P referrer walk segments).1.map (cs ++ ·),
        (linkAll P referrer walk segments).2) := by
  induction cs with
  | nil =>
      rcases linked : linkAll P referrer walk segments with ⟨e | text, after⟩ <;>
        simp [linked, Except.map]
  | cons c cs ih =>
      rcases linked : linkAll P referrer walk segments with ⟨e | text, after⟩ <;>
        rw [linked] at ih <;> simp [linkAll, ih, Except.map]

/-- **The `segments` of a cut are linked** by replacing its references and keeping its gaps. -/
theorem linkAll_cut (cut : Cut) : linkAll P referrer walk cut.segments =
    ((followAll P referrer walk cut.findings).1.map cut.fill,
      (followAll P referrer walk cut.findings).2) := by
  obtain ⟨findings, last⟩ := cut
  induction findings generalizing walk with
  | nil =>
      have only : (Cut.mk [] last).segments = last.map .char := by simp [Cut.segments]
      rw [only, linkAll_map_char]
      simp [followAll, Except.map, Cut.fill]
  | cons finding rest ih =>
      have first : (Cut.mk (finding :: rest) last).segments = finding.gap.map .char ++
          .reference finding.text finding.specifier :: (Cut.mk rest last).segments := by
        simp [Cut.segments]
      rw [first, linkAll_map_char_append, linkAll, followAll]
      rcases follow P referrer walk finding.text finding.specifier with ⟨e | text, between⟩
      · simp [Except.map]
      · simp only [ih]
        rcases followAll P referrer between rest with ⟨e | texts, after⟩ <;>
          simp [Except.map, Cut.fill]

/-- **A script is linked by replacing the references of its one cut**, for every script. The script is
in one way only a row of gaps and references, each reference the leftmost call behind a boundary of
words. Exactly these references are replaced, from left to right, each with its text and its specifier
and from the `walk` the one before has left; a replacement that fails ends it. Otherwise each of them has
got one text, and the script is the same row with these texts in their places. So a script whose
references are replaced by what they are stays as it is. -/
theorem linkAll_fills_cut (source : List Char) :
    ∃ cut : Cut, IsCut [] cut source ∧ (∀ other, IsCut [] other source → other = cut) ∧
      cut.fill cut.texts = source ∧
      ∀ (P : Project) (referrer : Path) (walk : Walk),
        linkAll P referrer walk (Script.segments source) =
            ((followAll P referrer walk cut.findings).1.map cut.fill,
              (followAll P referrer walk cut.findings).2) ∧
          (∀ replacements, (followAll P referrer walk cut.findings).1 = .ok replacements →
            replacements.length = cut.findings.length) ∧
          ((followAll P referrer walk cut.findings).1 = .ok cut.texts →
            (linkAll P referrer walk (Script.segments source)).1 = .ok source) := by
  obtain ⟨cut, isCut, segments⟩ := Script.exists_isCut [] source
  have linked (P : Project) (referrer : Path) (walk : Walk) :
      linkAll P referrer walk (Script.segments source) =
        ((followAll P referrer walk cut.findings).1.map cut.fill,
          (followAll P referrer walk cut.findings).2) := by
    rw [← linkAll_cut, ← segments]
    rfl
  refine ⟨cut, isCut, fun other h => h.unique isCut, isCut.fill_texts, fun P referrer walk =>
    ⟨linked P referrer walk, fun replacements h => ?_, fun same => ?_⟩⟩
  · exact length_followAll (Prod.ext h rfl)
  · rw [linked, same]
    exact congrArg Except.ok isCut.fill_texts

end ScriptBundle.Walk
