import ScriptBundle.Proofs.Json.Edges
import ScriptBundle.Proofs.Package.MainField
import ScriptBundle.Proofs.Resolution.Candidates

/-! # The `main` of a folder and of the module made of its manifest

A search reads the `main` of a manifest, and a bundle that holds the manifest exports the document in
it, for a loader to read there. The two readings differ in four ways. A search cuts the file as it
stands, and the compiler takes off a byte order mark and blanks. A search wants one `main`, and of a
document the last one counts. A search takes a list of one text for a manifest. And a search does not
look at the values of other members, which the compiler does. Apart from that they agree:

* **`Json.isSound_of_isDocument`** — the tokens of a document are sound, and they are a value;
* **`Manifest.ExportsMain`** — the module made of a manifest exports a `main`;
* **`manifestMain?_agrees_with_export`** — when a search finds what is exported, and when what it finds
  is exported. -/

namespace ScriptBundle

namespace Json

variable {cs : List Char} {tokens rest : List Token} {position last : Position}
  {members members' : List Member}

/-! ## Documents -/

/-- The machine that checks texts as well takes the steps of `Position.step`, over sound tokens. -/
theorem foldlM_soundStep (h : tokens.foldlM soundStep position = some last) :
    (∀ token ∈ tokens, token.isSound = true) ∧ tokens.foldlM Position.step position = some last := by
  induction tokens generalizing position with
  | nil => exact ⟨by simp, h⟩
  | cons token rest ih =>
      obtain ⟨next, e, later⟩ := exists_of_foldlM_cons h
      unfold soundStep at e
      split at e
      · rename_i sound
        obtain ⟨all, behind⟩ := ih later
        obtain ⟨moved, -⟩ := Option.filter_eq_some_iff.mp e
        exact ⟨List.forall_mem_cons.mpr ⟨sound, all⟩, (foldlM_cons_of_eq_some moved).trans behind⟩
      · simp at e

/-- **The `tokens` of a document** are sound, and they are a value. -/
theorem isSound_of_isDocument (h : isDocument cs = true) (cut : tokens? cs = some tokens) :
    (∀ token ∈ tokens, token.isSound = true) ∧ IsValue tokens := by
  rw [isDocument, cut] at h
  obtain ⟨sound, whole⟩ := foldlM_soundStep (eq_of_beq h)
  exact ⟨sound, isValue_iff.mpr whole⟩

/-- **A text is a record** of some members. -/
def IsRecord (cs : List Char) (members : List Member) : Prop :=
  tokens? cs = some (enclose .record (members.map Member.tokens)) ∧
    ∀ member ∈ members, IsValue member.value

/-- A text is a record of one list of members only. -/
theorem IsRecord.unique (h : IsRecord cs members) (h' : IsRecord cs members') : members = members' :=
  members_unique h.2 h'.2 (Option.some.inj (h.1.symm.trans h'.1))

/-- The tokens of a record start with a brace. -/
def OpensRecord (cs : List Char) : Prop := ∃ rest, tokens? cs = some (.opening .record :: rest)

/-- A record starts with its bracket, so that `OpensRecord` tells it from a list. -/
theorem IsRecord.opensRecord (h : IsRecord cs members) : OpensRecord cs := by
  cases members with
  | nil => exact ⟨_, h.1⟩
  | cons first rest => exact ⟨_, h.1⟩

/-- **A document that starts with a brace is a record.** -/
theorem exists_isRecord (h : isDocument cs = true) (opens : OpensRecord cs) :
    ∃ members, IsRecord cs members := by
  obtain ⟨rest, cut⟩ := opens
  obtain ⟨-, value⟩ := isSound_of_isDocument h cut
  generalize e : Token.opening .record :: rest = tokens at cut value
  cases value with
  | scalar scalar =>
      obtain ⟨rfl, -⟩ := List.cons.inj e
      exact absurd scalar Bool.false_ne_true
  | @list items =>
      cases items <;> exact Token.noConfusion (List.cons.inj e).1 nofun
  | @record members all => exact ⟨members, cut, all⟩

/-- The keys of a record are among its `tokens`. -/
theorem text_key_mem_enclose {member : Member} (h : member ∈ members) :
    .text member.key ∈ enclose .record (members.map Member.tokens) := by
  cases members with
  | nil => exact absurd h List.not_mem_nil
  | cons first rest =>
      refine List.mem_cons_of_mem _ (List.mem_append_left _ ?_)
      rcases List.mem_cons.mp h with rfl | later
      · exact List.mem_append_left _ List.mem_cons_self
      · refine List.mem_append_right _ (List.mem_flatMap.mpr ⟨_, List.mem_map_of_mem later, ?_⟩)
        exact List.mem_cons_of_mem _ List.mem_cons_self

/-- **The keys of a document can be decoded.** -/
theorem IsRecord.isSome_decode? (h : IsRecord cs members) (sound : isDocument cs = true) :
    ∀ member ∈ members, (decode? member.key).isSome = true := by
  intro member hmember
  exact (isSound_of_isDocument sound h.1).1 _ (text_key_mem_enclose hmember)

end Json

open Compiler (HasPlainEdges documentText exportScript)
open Json (IsRecord Member OpensRecord isDocument)

variable {w : Workspace} {p folder : Path} {text main other : String} {members : List Member}

/-- A file is compiled to the script that exports its `document`, if it is one. -/
theorem Compiler.compile_document_eq_ok_iff (read : w.readText p = .ok text) {script : String} :
    (Compiler.document.compile w p).1 = .ok script ↔
      isDocument (documentText text) = true ∧ script = exportScript (documentText text) := by
  have whole : (Compiler.document.compile w p).1 =
      if isDocument (documentText text) then .ok (exportScript (documentText text))
      else .error (.invalidDocument p) := by
    change readDocument w p = _
    rw [readDocument, readSource, read]
  rw [whole]
  split
  · rename_i sound
    simp [sound, eq_comm]
  · rename_i unsound
    simp [unsound]

namespace Manifest

/-! ## Manifests -/

/-- **The module made of a manifest exports a `main`**: the compiler takes the file for a document, the
document is a record, and its last member named `main` is a text that is not empty. -/
def ExportsMain (w : Workspace) (p : Path) (main : String) : Prop :=
  ∃ text members raw, w.readText p = .ok text ∧
    (Compiler.document.compile w p).1 = .ok (exportScript (documentText text)) ∧
    IsRecord (documentText text) members ∧
    ((members.filter (·.isNamed "main")).map Member.value).getLast? = some [.text raw] ∧
    Json.decode? raw = some main.toList ∧ main ≠ ""

/-- No module exports two. -/
theorem ExportsMain.unique (h : ExportsMain w p main) (h' : ExportsMain w p other) : main = other := by
  obtain ⟨text, members, raw, read, -, record, last, decoded, -⟩ := h
  obtain ⟨text', members', raw', read', -, record', last', decoded', -⟩ := h'
  obtain rfl := Except.ok.inj (read.symm.trans read')
  obtain rfl := record.unique record'
  obtain rfl := Json.Token.text.inj (List.singleton_inj.mp (Option.some.inj (last.symm.trans last')))
  exact String.toList_injective (Option.some.inj (decoded.symm.trans decoded'))

/-- **A manifest names its `main` once.** -/
def NamesMainOnce (text : String) : Prop :=
  ∃ members, IsRecord (documentText text) members ∧
    ((members.filter (·.isNamed "main")).map Member.value).length = 1

/-- **The `main` of a text**, by its tokens. -/
theorem main?_eq_some_iff : main? text = some main ↔
    HasPlainEdges text ∧ main ≠ "" ∧ ∃ tokens, Json.tokens? (documentText text) = some tokens ∧
      mainOfTokens? tokens = some main.toList := by
  constructor
  · intro h
    have named := ne_empty_of_main? h
    obtain ⟨tokens, cut, h⟩ := Option.bind_eq_some_iff.mp h
    obtain ⟨chars, found, h⟩ := Option.bind_eq_some_iff.mp h
    obtain ⟨_, -, h⟩ := Option.bind_eq_some_iff.mp h
    obtain rfl := Option.some.inj h
    obtain ⟨plain, cut⟩ := Compiler.tokens?_toList_eq_some_iff.mp cut
    exact ⟨plain, named, tokens, cut, by rw [found, String.toList_ofList]⟩
  · rintro ⟨plain, named, tokens, cut, found⟩
    have chars : main.toList ≠ [] := fun e => named (String.toList_eq_nil_iff.mp e)
    rw [main?, Compiler.tokens?_toList_eq_some_iff.mpr ⟨plain, cut⟩]
    dsimp only [Option.bind_eq_bind, Option.bind_some]
    rw [found, Option.bind_some, guard, if_pos chars]
    exact congrArg some String.ofList_toList

/-- **The `main` of a record** that is a document: its edges have to be plain, and the member must not be
repeated. -/
theorem main?_of_isRecord (record : IsRecord (documentText text) members)
    (sound : isDocument (documentText text) = true) :
    main? text = some main ↔ HasPlainEdges text ∧ main ≠ "" ∧
      ∃ raw, (members.filter (·.isNamed "main")).map Member.value = [[.text raw]] ∧
        Json.decode? raw = some main.toList := by
  have keys := record.isSome_decode? sound
  rw [main?_eq_some_iff]
  refine and_congr_right fun _ => and_congr_right fun _ => ?_
  constructor
  · rintro ⟨tokens, cut, found⟩
    obtain rfl := Option.some.inj (record.1.symm.trans cut)
    exact ((mainOfTokens?_record_eq_some_iff record.2).mp found).2
  · intro only
    exact ⟨_, record.1, (mainOfTokens?_record_eq_some_iff record.2).mpr ⟨keys, only⟩⟩

end Manifest

open Manifest (ExportsMain NamesMainOnce)

/-- **A search and the module made of a manifest agree on the `main`**, apart from four differences. What
the module exports is found by a search exactly if the edges of the file are plain and the member is
not repeated. What a search finds is exported exactly if the file is a document and starts with a
brace. -/
theorem manifestMain?_agrees_with_export (w : Workspace) (folder : Path) (main : String) :
    (ExportsMain w (folder.join ⟨Package.manifestName⟩) main →
      (manifestMain? w folder = some main ↔
        ∃ text, w.readText (folder.join ⟨Package.manifestName⟩) = .ok text ∧
          HasPlainEdges text ∧ NamesMainOnce text)) ∧
    (manifestMain? w folder = some main →
      (ExportsMain w (folder.join ⟨Package.manifestName⟩) main ↔
        ∃ text, w.readText (folder.join ⟨Package.manifestName⟩) = .ok text ∧
          isDocument (documentText text) = true ∧ OpensRecord (documentText text))) := by
  constructor
  · rintro ⟨text, members, raw, read, accepted, record, last, decoded, named⟩
    obtain ⟨sound, -⟩ := (Compiler.compile_document_eq_ok_iff read).mp accepted
    rw [manifestMain?_eq_some_iff]
    constructor
    · rintro ⟨-, text', read', found, -⟩
      obtain rfl := Except.ok.inj (read.symm.trans read')
      obtain ⟨plain, -, raw', only, -⟩ := (Manifest.main?_of_isRecord record sound).mp found
      refine ⟨text, read, plain, members, record, ?_⟩
      rw [only]
      rfl
    · rintro ⟨text', read', plain, members', record', once⟩
      obtain rfl := Except.ok.inj (read.symm.trans read')
      obtain rfl := record.unique record'
      obtain ⟨value, only⟩ := List.length_eq_one_iff.mp once
      rw [only] at last
      obtain rfl : value = [.text raw] := Option.some.inj last
      exact ⟨Workspace.isFile_of_readText read, text, read,
        (Manifest.main?_of_isRecord record sound).mpr ⟨plain, named, raw, only, decoded⟩, named⟩
  · intro found
    obtain ⟨-, text, read, found, named⟩ := manifestMain?_eq_some_iff.mp found
    constructor
    · rintro ⟨text', members, raw, read', accepted, record, -⟩
      obtain rfl := Except.ok.inj (read.symm.trans read')
      exact ⟨text, read, ((Compiler.compile_document_eq_ok_iff read).mp accepted).1,
        record.opensRecord⟩
    · rintro ⟨text', read', sound, opens⟩
      obtain rfl := Except.ok.inj (read.symm.trans read')
      obtain ⟨members, record⟩ := Json.exists_isRecord sound opens
      obtain ⟨-, -, raw, only, decoded⟩ := (Manifest.main?_of_isRecord record sound).mp found
      refine ⟨text, members, raw, read, ?_, record, ?_, decoded, named⟩
      · exact (Compiler.compile_document_eq_ok_iff read).mpr ⟨sound, rfl⟩
      · rw [only]
        rfl

/-- A document that names a script. -/
def mainDocument : List Char := "\x7b\x22main\x22: \x22m.js\x22\x7d".toList

/-- The members of this document. -/
def mainMembers : List Member := [⟨"main".toList, [.text "m.js".toList]⟩]

/-- The members of `mainDocument` are `mainMembers`. -/
theorem isRecord_mainDocument : IsRecord mainDocument mainMembers := by
  refine ⟨by decide +kernel, fun member h => ?_⟩
  rw [List.mem_singleton.mp h]
  exact .scalar rfl

/-- A file that holds this document exports the name. -/
theorem Manifest.exportsMain_mainDocument (read : w.readText p = .ok text)
    (holds : documentText text = mainDocument) : ExportsMain w p "m.js" := by
  refine ⟨text, mainMembers, "m.js".toList, read, ?_, holds ▸ isRecord_mainDocument, ?_, ?_, ?_⟩
  · refine (Compiler.compile_document_eq_ok_iff read).mpr ⟨?_, rfl⟩
    rw [holds]
    decide +kernel
  · decide +kernel
  · decide +kernel
  · decide

/-- A folder with a manifest and two scripts. -/
def manifestTree (text : String) : Workspace :=
  ⟨⟨[(["p", "package.json"], .text text), (["p", "m.js"], .text ""), (["p", "index.js"], .text "")],
    []⟩, []⟩

/-- The folder. -/
def manifestFolder : Path := ⟨"/p"⟩

/-- A file that holds the document between blanks. -/
def spacedManifest : String := " \x7b\x22main\x22: \x22m.js\x22\x7d\n"

/-- A search finds what the module made of this file exports. -/
theorem manifestMain?_agrees_with_export_spaced :
    ExportsMain (manifestTree spacedManifest) (manifestFolder.join ⟨Package.manifestName⟩) "m.js" ∧
      manifestMain? (manifestTree spacedManifest) manifestFolder = some "m.js" := by
  have read : (manifestTree spacedManifest).readText (manifestFolder.join ⟨Package.manifestName⟩) =
      .ok spacedManifest := by decide +kernel
  have holds : documentText spacedManifest = mainDocument := by decide +kernel
  have exported := Manifest.exportsMain_mainDocument read holds
  have plain : HasPlainEdges spacedManifest := by
    refine ⟨[' '], ['\n'], ?_, ?_⟩
    · decide +kernel
    · exact List.all_eq_true.mp (by decide)
  have once : NamesMainOnce spacedManifest := by
    refine ⟨mainMembers, holds ▸ isRecord_mainDocument, ?_⟩
    decide +kernel
  obtain ⟨found, -⟩ := manifestMain?_agrees_with_export (manifestTree spacedManifest) manifestFolder
    "m.js"
  exact ⟨exported, (found exported).mpr ⟨spacedManifest, read, plain, once⟩⟩

/-! ## Files with a mark -/

/-- A file that holds the document behind a byte order mark. -/
def markedManifest : String := "\uFEFF\x7b\x22main\x22: \x22m.js\x22\x7d"

/-- **A byte order mark hides the `main` of a manifest** from a search: the compiler takes it off, and
the module exports the `main`, but the search comes to the index of the folder. -/
theorem manifestMain?_of_marked :
    ExportsMain (manifestTree markedManifest) (manifestFolder.join ⟨Package.manifestName⟩) "m.js" ∧
      manifestMain? (manifestTree markedManifest) manifestFolder = none ∧
      asFolder? (manifestTree markedManifest) [".js", ".json"] manifestFolder =
        some ⟨"/p/index.js"⟩ := by
  have read : (manifestTree markedManifest).readText (manifestFolder.join ⟨Package.manifestName⟩) =
      .ok markedManifest := by decide +kernel
  have holds : documentText markedManifest = mainDocument := by decide +kernel
  refine ⟨Manifest.exportsMain_mainDocument read holds, ?_, ?_⟩
  · decide +kernel
  · decide +kernel

end ScriptBundle
