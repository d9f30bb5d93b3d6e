import Mathlib.Data.List.TakeWhile
import ScriptBundle.Proofs.Compiler.History
import ScriptBundle.Proofs.Resolution.Found

/-! # Dispatch

A search puts registered extensions behind the paths it tries; a compiler is chosen by the extension
that is read off the path that was found. The one is read back from the other exactly if the extension
holds a single dot and no slash, and if it was put behind a name and not behind the root. Only then is
the file compiled by the compiler of the extension it was found by.

* **`IsPlainExtension`** — an extension that is read back;
* **`Path.extension_append_eq_iff`** — when the extension of a path is what was put behind it;
* **`found_compiled_by_extension`** — the compiler of a file that was found by an extension. -/

namespace ScriptBundle

/-- **An extension that is read back from a name**: behind its first character it holds neither a dot
nor a slash. -/
def IsPlainExtension (e : String) : Prop := '.' ∉ e.toList.tail ∧ '/' ∉ e.toList.tail

instance (e : String) : Decidable (IsPlainExtension e) := inferInstanceAs (Decidable (_ ∧ _))

/-- An extension is a dot and some characters behind it. -/
theorem exists_of_isExtension {e : String} (h : isExtension e = true) :
    ∃ ending, ending ≠ [] ∧ e.toList = '.' :: ending := by
  unfold isExtension at h
  split at h
  · rename_i c cs spelled
    exact ⟨c :: cs, by simp, spelled⟩
  · simp at h

namespace Path

variable {p t : Path} {s e : String} {front ending : List Char}

/-! ## Extensions of paths -/

/-- The last name of an absolute path is a name. -/
theorem isName_of_fileName? (rooted : p.isAbsolute = true) (named : p.fileName? = some s) :
    Part.IsName s := by
  obtain ⟨rest, whole, below⟩ := exists_parts_of_isAbsolute rooted
  unfold fileName? at named
  split at named
  · rename_i s' last
    obtain rfl := Option.some.inj named
    have mem := List.mem_of_getLast? last
    rw [whole] at mem
    rcases List.mem_cons.mp mem with root | inner
    · simp at root
    · rcases below _ inner with up | ⟨s'', hs, same⟩
      · simp at up
      · exact Part.name.inj same ▸ hs
  · simp at named

/-- **The `extension` of a path** whose last name is cut at its last dot. -/
theorem extension_of_fileName? (named : p.fileName? = some s)
    (spelled : s.toList = front ++ '.' :: ending) (free : '.' ∉ ending) :
    p.extension = if front = [] then "" else String.ofList ('.' :: ending) := by
  have behind : ∀ c ∈ ending.reverse, decide (c ≠ '.') = true := by
    intro c hc
    have other : c ≠ '.' := fun same => free (same ▸ List.mem_reverse.mp hc)
    simpa using other
  have turned : s.toList.reverse = ending.reverse ++ '.' :: front.reverse := by simp [spelled]
  rw [extension, named]
  simp only [turned, List.dropWhile_append_of_pos behind, List.takeWhile_append_of_pos behind]
  cases front using List.reverseRecOn with
  | nil => simp
  | append_singleton front c => simp

/-- **What is read off an absolute path is a plain `extension`.** -/
theorem isPlainExtension_extension (rooted : p.isAbsolute = true) :
    IsPlainExtension p.extension := by
  have empty : IsPlainExtension "" := by decide
  unfold extension
  cases named : p.fileName? with
  | none => exact empty
  | some s =>
      have slash := (isName_of_fileName? rooted named).slash_notMem
      dsimp only
      split
      · exact empty
      · exact empty
      · -- the ending reaches from the back of the name to its last dot
        refine ⟨fun inner => ?_, fun inner => ?_⟩
        · rw [String.toList_ofList, List.tail_cons, List.mem_reverse] at inner
          simpa using List.mem_takeWhile_imp inner
        · rw [String.toList_ofList, List.tail_cons, List.mem_reverse] at inner
          exact slash (List.mem_reverse.mp ((List.takeWhile_prefix _).subset inner))

/-- A plain extension is a name of its own. -/
theorem isName_of_isPlainExtension (he : isExtension e = true) (plain : IsPlainExtension e) :
    Part.IsName e := by
  obtain ⟨ending, some_char, spelled⟩ := exists_of_isExtension he
  refine ⟨fun h => ?_, fun h => ?_, fun h => ?_, fun slash => ?_⟩
  · simp [h] at spelled
  · simp [h] at spelled
    exact some_char spelled
  · exact plain.1 (by simp [h])
  · rw [spelled] at slash
    exact plain.2 (by simpa [spelled] using slash)

/-- **Behind the root** an `extension` is a name of its own, and its dot begins the name. -/
theorem extension_append_root (he : isExtension e = true) (plain : IsPlainExtension e) :
    ((ofNames []).append e).extension = "" := by
  obtain ⟨ending, -, spelled⟩ := exists_of_isExtension he
  have whole : (ofNames []).append e = ofNames [e] := by
    show (⟨(ofNames []).text ++ e⟩ : Path) = ⟨(ofNames [e]).text⟩
    simp [text_ofNames]
  have all : ∀ q ∈ [] ++ [e], Part.IsName q :=
    List.forall_mem_singleton.mpr (isName_of_isPlainExtension he plain)
  have named := fileName?_ofNames_append all
  have first : e.toList = [] ++ '.' :: ending := spelled
  rw [whole, ← List.nil_append [e],
    extension_of_fileName? named first (by simpa [spelled] using plain.1), if_pos rfl]

/-- **Behind a name** a plain `extension` is read back. -/
theorem extension_append_ofNames (he : isExtension e = true) (plain : IsPlainExtension e)
    {names : List String} (named : ∀ q ∈ names ++ [s], Part.IsName q) :
    ((ofNames (names ++ [s])).append e).extension = e := by
  obtain ⟨ending, -, spelled⟩ := exists_of_isExtension he
  obtain ⟨above, last⟩ := List.forall_mem_append.mp named
  have hs := last s (List.mem_singleton_self s)
  have all : ∀ q ∈ names ++ [s ++ e], Part.IsName q := List.forall_mem_append.mpr ⟨above,
    List.forall_mem_singleton.mpr
      (isName_append hs (isName_of_isPlainExtension he plain).slash_notMem)⟩
  have cut : (s ++ e).toList = s.toList ++ '.' :: ending := by simp [spelled]
  rw [append_ofNames, extension_of_fileName? (fileName?_ofNames_append all) cut
    (by simpa [spelled] using plain.1), if_neg hs.toList_ne_nil, ← spelled, String.ofList_toList]

/-- **The `extension` of a path is what was put behind it** exactly if that is plain and the path is
not the root. -/
theorem extension_append_eq_iff (normal : t.IsNormal) (he : isExtension e = true) :
    (t.append e).extension = e ↔ IsPlainExtension e ∧ t ≠ .ofNames [] := by
  constructor
  · intro same
    have plain : IsPlainExtension e :=
      same ▸ isPlainExtension_extension (isAbsolute_append e normal.isAbsolute)
    refine ⟨plain, ?_⟩
    rintro rfl
    -- behind the root nothing is read back, and the extension is not empty
    obtain ⟨ending, -, spelled⟩ := exists_of_isExtension he
    rw [extension_append_root he plain] at same
    simp [← same] at spelled
  · rintro ⟨plain, notRoot⟩
    obtain ⟨names, named, rfl⟩ := normal
    rcases List.eq_nil_or_concat' names with rfl | ⟨front, s, rfl⟩
    · exact absurd rfl notRoot
    · exact extension_append_ofNames he plain named

end Path

/-! ## The compiler of a file -/

variable {compilers : List Compiler} {registry : Registry} {w : Workspace} {specifier : String}
  {folder p : Path}

/-- **A file that was found by an `extension` is compiled by the last compiler for this extension**, by
the registry and by a walk, if the extension is plain and was not put behind the root. That is the
case exactly if the extension is read back from the path. -/
theorem found_compiled_by_extension
    (registered : Bundle.registerAll .initial compilers = .ok registry)
    (found : resolve w registry.resolutionExtensions specifier folder = .ok (.file p)) :
    IsCandidate registry.resolutionExtensions p ∧
      ∀ (t : Path) (e : String) (compiler : Compiler), t.IsNormal → p = t.append e →
        Registry.lastFor? compilers e = some compiler →
        (p.extension = e ↔ IsPlainExtension e ∧ t ≠ .ofNames []) ∧
        (IsPlainExtension e → t ≠ .ofNames [] →
          (∀ files, registry.compile files p = compiler.compile files p) ∧
          ∀ (P : Project) (walk : Walk), P.registry = registry →
            Walk.process P walk p = Walk.processBy compiler P walk p) := by
  obtain ⟨-, candidate⟩ := isCandidate_of_resolve found
  refine ⟨candidate, fun t e compiler normal put last => ?_⟩
  have back := Path.extension_append_eq_iff normal (Bundle.isExtension_of_lastFor? registered last)
  rw [← put] at back
  refine ⟨back, fun plain notRoot => ?_⟩
  -- the extension is read back, and the registry has for it the last compiler of its history
  have same := back.mpr ⟨plain, notRoot⟩
  have used : registry.compilerFor p.extension = compiler := by
    rw [same, Registry.compilerFor, Bundle.lookup_registerAll registered, last, Option.getD_some]
  refine ⟨fun files => ?_, ?_⟩
  · rw [Registry.compile, used]
  · rintro P walk rfl
    rw [Walk.process, used]

/-! ## Extensions that are read back, and others -/

/-- A compiler that gives one text for every file. -/
def constantCompiler (extension text : String) : Compiler :=
  ⟨"constant", [extension], true, fun w _ => (.ok text, w)⟩

/-- A script `x.d.ts` beside a script `y.ts`. -/
def typedScripts : Workspace :=
  ⟨⟨[(["x.d.ts"], .text ""), (["y.ts"], .text "")], []⟩, []⟩

/-- The registry with a compiler for one `extension` more. -/
def registryFor (extension text : String) : Registry :=
  ⟨[(".json", .document), (extension, constantCompiler extension text)]⟩

/-- `.ts` is read back from `y.ts`, so its compiler is used. -/
theorem found_compiled_by_extension_plain :
    Bundle.registerAll .initial [constantCompiler ".ts" "typed"] = .ok (registryFor ".ts" "typed") ∧
      resolve typedScripts (registryFor ".ts" "typed").resolutionExtensions "./y" ⟨"/"⟩ =
        .ok (.file ⟨"/y.ts"⟩) ∧
      ((registryFor ".ts" "typed").compile typedScripts ⟨"/y.ts"⟩).1 = .ok "typed" := by
  have registered : Bundle.registerAll .initial [constantCompiler ".ts" "typed"] =
      .ok (registryFor ".ts" "typed") := rfl
  have found : resolve typedScripts (registryFor ".ts" "typed").resolutionExtensions "./y" ⟨"/"⟩ =
      .ok (.file ⟨"/y.ts"⟩) := by decide
  obtain ⟨-, compiled⟩ := found_compiled_by_extension registered found
  have normal : (Path.mk "/y").IsNormal := by
    refine ⟨["y"], List.forall_mem_singleton.mpr ⟨?_, ?_, ?_, ?_⟩, ?_⟩ <;> decide
  obtain ⟨-, used⟩ := compiled ⟨"/y"⟩ ".ts" (constantCompiler ".ts" "typed") normal (by decide) rfl
  refine ⟨registered, found, ?_⟩
  rw [(used (by decide) (by decide)).1]
  rfl

/-- **`.d.ts` is not read back** from `x.d.ts`: the file is found by this extension and taken as it
stands, and the compiler for the extension is not used. -/
theorem found_not_compiled_by_extension :
    Bundle.registerAll .initial [constantCompiler ".d.ts" "typed"] =
        .ok (registryFor ".d.ts" "typed") ∧
      resolve typedScripts (registryFor ".d.ts" "typed").resolutionExtensions "./x" ⟨"/"⟩ =
        .ok (.file ⟨"/x.d.ts"⟩) ∧
      (⟨"/x.d.ts"⟩ : Path) = Path.append ⟨"/x"⟩ ".d.ts" ∧
      (Registry.lastFor? [constantCompiler ".d.ts" "typed"] ".d.ts").map
          (fun compiler => (compiler.compile typedScripts ⟨"/x.d.ts"⟩).1) = some (.ok "typed") ∧
      ((registryFor ".d.ts" "typed").compile typedScripts ⟨"/x.d.ts"⟩).1 = .ok "" := by
  refine ⟨rfl, ?_, ?_, rfl, ?_⟩
  · decide
  · decide
  · decide

end ScriptBundle
