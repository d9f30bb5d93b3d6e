import ScriptBundle.Proofs.Path.Located
import ScriptBundle.Proofs.Resolution.Candidates
import ScriptBundle.Proofs.Walk.Linking

/-! # Spellings of a path

A module may be referred to from many folders, and in many ways from each. What a relative or an
absolute specifier means is decided by the normal form of the path it stands for, below the folder it
is asked from, and by whether it ends in a slash. So all spellings of a path lead to one file, and to
one identity in the artifact:

* **`Path.IsDetour`** — pieces of a path that lead back to where they start: none, a `.`, and a name
  with a step up behind it;
* **`Path.normalize_join_detour`** — a detour does not change the normal form of a path below a folder;
* **`resolve_congr_path`, `treatment_congr_path`** — two specifiers of one path mean the same, and
  references to it have the same target;
* **`spellings_mean_one_file`** — all of this, for every tree. -/

namespace ScriptBundle

namespace Path

variable {p a b : Path} {between : List (List Char)} {s : String}

/-! ## Detours -/

/-- **A detour**: pieces that lead back to where they start, wherever that is. -/
def IsDetour (between : List (List Char)) : Prop :=
  ∀ stack, (between.filterMap Part.ofPiece?).foldl foldPart stack = stack

/-- Between two slashes there is a piece that stands for nothing. -/
theorem isDetour_nothing : IsDetour [[]] := by
  intro stack
  simp

/-- The folder itself is a detour. -/
theorem isDetour_dot : IsDetour [['.']] := by
  intro stack
  simp

/-- A name with a step up behind it is a detour. -/
theorem isDetour_name (named : Part.IsName s) : IsDetour [s.toList, ['.', '.']] := by
  intro stack
  simp [named.ofPiece?_toList]

/-- **The normal form of a path below** is decided by what its `pieces` are folded to. -/
theorem normalize_join_congr (rooted : p.isAbsolute = true) (kind : a.isAbsolute = b.isAbsolute)
    (same : ∀ stack, (a.pieces.filterMap Part.ofPiece?).foldl foldPart stack =
      (b.pieces.filterMap Part.ofPiece?).foldl foldPart stack) :
    (p.join a).normalize = (p.join b).normalize := by
  rw [normalize, normalize, normalParts, normalParts]
  cases absolute : a.isAbsolute with
  | true =>
      have absolute' : b.isAbsolute = true := kind ▸ absolute
      rw [join_absolute _ absolute, join_absolute _ absolute', parts, parts, if_pos absolute,
        if_pos absolute', List.foldl_cons, List.foldl_cons, same]
  | false =>
      have relative : b.isAbsolute = false := kind ▸ absolute
      rw [parts_join rooted absolute, parts_join rooted relative, List.foldl_append,
        List.foldl_append, same]

/-- **A detour does not change the normal form** of a path below a folder. -/
theorem normalize_join_detour (rooted : p.isAbsolute = true) {middle : String}
    (detour : IsDetour (middle.toList.splitOn '/')) (front back : String) :
    (p.join ⟨front ++ "/" ++ middle ++ "/" ++ back⟩).normalize =
      (p.join ⟨front ++ "/" ++ back⟩).normalize := by
  apply normalize_join_congr rooted
  · -- both start as the text in front does, or with the slash behind it
    cases first : front.toList with
    | nil => simp [isAbsolute, chars, first]
    | cons c rest => simp [isAbsolute, chars, first]
  · intro stack
    have long : (Path.mk (front ++ "/" ++ middle ++ "/" ++ back)).pieces =
        front.toList.splitOn '/' ++ (middle.toList.splitOn '/' ++ back.toList.splitOn '/') := by
      rw [← splitOn_append_slash, ← splitOn_append_slash]
      simp [pieces, chars]
    have short : (Path.mk (front ++ "/" ++ back)).pieces =
        front.toList.splitOn '/' ++ back.toList.splitOn '/' := by
      rw [← splitOn_append_slash]
      simp [pieces, chars]
    rw [long, short, List.filterMap_append, List.filterMap_append, List.filterMap_append,
      List.foldl_append, List.foldl_append, List.foldl_append, detour]

/-- **A dot in front of a relative path** does not change the normal form. -/
theorem normalize_join_dot (rooted : p.isAbsolute = true) {tail : String}
    (relative : (Path.mk tail).isAbsolute = false) :
    (p.join ⟨"./" ++ tail⟩).normalize = (p.join ⟨tail⟩).normalize := by
  apply normalize_join_congr rooted
  · rw [relative]
    simp [isAbsolute, chars]
  · intro stack
    have long : (Path.mk ("./" ++ tail)).pieces = ['.'] :: (Path.mk tail).pieces := by
      have spelled : (Path.mk ("./" ++ tail)).chars = ['.'] ++ '/' :: tail.toList := by simp [chars]
      rw [pieces, spelled, splitOn_append_slash]
      rfl
    rw [long, List.filterMap_cons_none Part.ofPiece?_dot]

/-- **Steps up at the root** lead nowhere. -/
theorem normalize_join_above (base : Path) (back : String) :
    (base.join ⟨"/../" ++ back⟩).normalize = (base.join ⟨"/" ++ back⟩).normalize := by
  have long : (Path.mk ("/../" ++ back)).isAbsolute = true := by simp [isAbsolute, chars]
  have short : (Path.mk ("/" ++ back)).isAbsolute = true := by simp [isAbsolute, chars]
  have cut : (Path.mk ("/../" ++ back)).pieces = [] :: ['.', '.'] :: back.toList.splitOn '/' := by
    have spelled : (Path.mk ("/../" ++ back)).chars =
        [] ++ '/' :: (['.', '.'] ++ '/' :: back.toList) := by
      simp [chars]
    rw [pieces, spelled, splitOn_append_slash, splitOn_append_slash]
    rfl
  have cut' : (Path.mk ("/" ++ back)).pieces = [] :: back.toList.splitOn '/' := by
    have spelled : (Path.mk ("/" ++ back)).chars = [] ++ '/' :: back.toList := by simp [chars]
    rw [pieces, spelled, splitOn_append_slash]
    rfl
  rw [join_absolute _ long, join_absolute _ short, normalize, normalize, normalParts, normalParts,
    parts, parts, if_pos long, if_pos short, cut, cut']
  rfl

/-- **The normal form of a path** is a spelling of it, from every folder. -/
theorem normalize_join_normal (rooted : p.isAbsolute = true) (base tail : Path) :
    (base.join (p.join tail).normalize).normalize = (p.join tail).normalize := by
  obtain ⟨absolute, same⟩ := isNormal_iff.mp (isNormal_normalize (isAbsolute_join tail rooted))
  rw [join_absolute _ absolute, same]

end Path

/-! ## What specifiers mean -/

section

variable {w : Workspace} {extensions : List String} {s₁ s₂ : String} {d₁ d₂ : Path}

/-- **A search for a path** goes by its normal form. -/
theorem searched_of_kind_ne_bare {s : String} (path : Specifier.kind s ≠ .bare) (folder : Path)
    (above : List Path) :
    searched w extensions s folder above =
      candidates w extensions (Specifier.isFolderOnly s) (folder.join ⟨s⟩).normalize := by
  rw [searched]
  cases kind : Specifier.kind s with
  | relative => rfl
  | absolute => rfl
  | bare => exact absurd kind path

variable (rooted₁ : d₁.isAbsolute = true) (rooted₂ : d₂.isAbsolute = true)
  (path₁ : Specifier.kind s₁ ≠ .bare) (path₂ : Specifier.kind s₂ ≠ .bare)
  (same : (d₁.join ⟨s₁⟩).normalize.parts = (d₂.join ⟨s₂⟩).normalize.parts)
  (ends : Specifier.isFolderOnly s₁ = Specifier.isFolderOnly s₂)

include rooted₁ rooted₂ path₁ path₂ same ends

/-- **Two specifiers of one path mean the same**: one file, or none. -/
theorem resolve_congr_path :
    (∃ location, resolve w extensions s₁ d₁ = .ok (.file location) ∧
        resolve w extensions s₂ d₂ = .ok (.file location)) ∨
      (resolve w extensions s₁ d₁ = .error (.notFound s₁ d₁.normalize) ∧
        resolve w extensions s₂ d₂ = .error (.notFound s₂ d₂.normalize)) := by
  -- normal forms with the same parts are spelled alike, so both searches try the same paths
  have target : (d₁.join ⟨s₁⟩).normalize = (d₂.join ⟨s₂⟩).normalize :=
    (Path.isNormal_normalize (Path.isAbsolute_join _ rooted₁)).eq_of_parts_eq
      (Path.isNormal_normalize (Path.isAbsolute_join _ rooted₂)) same
  have tried : searched w extensions s₁ d₁ d₁.normalize.ancestors =
      searched w extensions s₂ d₂ d₂.normalize.ancestors := by
    rw [searched_of_kind_ne_bare path₁, searched_of_kind_ne_bare path₂, target, ends]
  obtain ⟨-, -, outcome₁, -⟩ :=
    resolve_eq_first_candidate w extensions (isHostModule_of_kind_ne_bare path₁) rooted₁
  obtain ⟨-, -, outcome₂, -⟩ :=
    resolve_eq_first_candidate w extensions (isHostModule_of_kind_ne_bare path₂) rooted₂
  rw [outcome₁, outcome₂, tried]
  cases (searched w extensions s₂ d₂ d₂.normalize.ancestors).find? w.isFile with
  | some location => exact .inl ⟨location, rfl, rfl⟩
  | none => exact .inr ⟨rfl, rfl⟩

/-- **Two references to one path have the same `target`**, unless one of them is kept out by the name
it is written with. -/
theorem treatment_congr_path {P : Project} {x : Exclusions} {r₁ r₂ location : Path}
    (folder₁ : r₁.folder = d₁) (folder₂ : r₂.folder = d₂) (unnamed : x.holdsName s₂ = false)
    (treated : P.treatment w x r₁ s₁ = .target location) :
    P.treatment w x r₂ s₂ = .target location := by
  obtain ⟨resolved, packed⟩ := Project.resolve_of_treatment_target P w x r₁ treated
  rw [folder₁] at resolved
  have found : P.resolve w s₂ r₂.folder = .ok (.file location) := by
    rw [folder₂]
    rw [Project.resolve] at resolved ⊢
    rcases resolve_congr_path rooted₁ rooted₂ path₁ path₂ same ends with
      ⟨there, first, second⟩ | ⟨missing, -⟩
    · rw [first] at resolved
      cases resolved
      exact second
    · rw [missing] at resolved
      exact absurd resolved (by simp)
  have guest : isHostModule s₂ = false := isHostModule_of_kind_ne_bare path₂
  simp [Project.treatment, guest, unnamed, found, packed]

end

/-- **All spellings of a path mean one file.** For every tree and all `extensions`, let two relative or
absolute specifiers, asked from two absolute folders, stand for paths with the same normal form, and let
both or neither end in a slash. Then both mean the same file, or there is none for either. References
that are written so, in any two files in these folders, are replaced by a call of one identity, unless
the second is kept out by the name it is written with. Such specifiers are those that differ by doubled
slashes, by dots and by names with a step up behind them, by steps up at the root, and the absolute one
that spells the path from wherever it is asked. -/
theorem spellings_mean_one_file (w : Workspace) (extensions : List String) :
    (∀ (s₁ s₂ : String) (d₁ d₂ : Path), d₁.isAbsolute = true → d₂.isAbsolute = true →
      Specifier.kind s₁ ≠ .bare → Specifier.kind s₂ ≠ .bare →
      (d₁.join ⟨s₁⟩).normalize.parts = (d₂.join ⟨s₂⟩).normalize.parts →
      Specifier.isFolderOnly s₁ = Specifier.isFolderOnly s₂ →
      ((∃ location, resolve w extensions s₁ d₁ = .ok (.file location) ∧
          resolve w extensions s₂ d₂ = .ok (.file location)) ∨
        (resolve w extensions s₁ d₁ = .error (.notFound s₁ d₁.normalize) ∧
          resolve w extensions s₂ d₂ = .error (.notFound s₂ d₂.normalize))) ∧
      ∀ (P : Project) (walk₁ walk₂ : Walk) (r₁ r₂ location : Path) (text₁ text₂ : List Char),
        P.extensions = extensions → walk₁.files = w → walk₂.files = w →
        walk₂.exclusions = walk₁.exclusions → r₁.folder = d₁ → r₂.folder = d₂ →
        walk₁.exclusions.holdsName s₂ = false →
        P.treatment w walk₁.exclusions r₁ s₁ = .target location →
        (Walk.follow P r₁ walk₁ text₁ s₁.toList).1 =
            .ok (Call.write (P.identityOf location).text).toList ∧
          (Walk.follow P r₂ walk₂ text₂ s₂.toList).1 =
            .ok (Call.write (P.identityOf location).text).toList) ∧
    ∀ d : Path, d.isAbsolute = true →
      (∀ front back name : String, Part.IsName name → ∀ middle ∈ ["", ".", name ++ "/.."],
        (d.join ⟨front ++ "/" ++ middle ++ "/" ++ back⟩).normalize =
          (d.join ⟨front ++ "/" ++ back⟩).normalize) ∧
      (∀ tail : String, (Path.mk tail).isAbsolute = false →
        (d.join ⟨"./" ++ tail⟩).normalize = (d.join ⟨tail⟩).normalize) ∧
      (∀ back : String, (d.join ⟨"/../" ++ back⟩).normalize = (d.join ⟨"/" ++ back⟩).normalize) ∧
      ∀ base tail : Path, (base.join (d.join tail).normalize).normalize = (d.join tail).normalize := by
  constructor
  · intro s₁ s₂ d₁ d₂ rooted₁ rooted₂ path₁ path₂ same ends
    refine ⟨resolve_congr_path rooted₁ rooted₂ path₁ path₂ same ends, ?_⟩
    intro P walk₁ walk₂ r₁ r₂ location text₁ text₂ searches files₁ files₂ kept folder₁ folder₂ unnamed
      treated
    have treated' : P.treatment w walk₁.exclusions r₂ s₂ = .target location :=
      treatment_congr_path rooted₁ rooted₂ path₁ path₂ same ends folder₁ folder₂ unnamed treated
    constructor
    · rw [Walk.follow_target (by simpa [files₁] using treated)]
    · rw [Walk.follow_target (by simpa [files₂, kept] using treated')]
  · intro d rooted
    refine ⟨?_, fun tail => Path.normalize_join_dot rooted, Path.normalize_join_above d,
      Path.normalize_join_normal rooted⟩
    intro front back name named middle among
    apply Path.normalize_join_detour rooted
    rcases List.mem_cons.mp among with rfl | among
    · exact Path.isDetour_nothing
    · rcases List.mem_cons.mp among with rfl | among
      · exact Path.isDetour_dot
      · obtain rfl := List.mem_singleton.mp among
        have cut : (name ++ "/..").toList.splitOn '/' = [name.toList, ['.', '.']] := by
          rw [String.toList_append]
          show (name.toList ++ '/' :: ['.', '.']).splitOn '/' = _
          rw [Path.splitOn_append_slash, Path.splitOn_of_notMem named.slash_notMem]
          rfl
        rw [cut]
        exact Path.isDetour_name named

/-- A script beside the folder of another. -/
def scriptAbove : Workspace :=
  ⟨⟨[(["a", "x.js"], .text "require('./x')"), (["a", "b", "c.js"], .text "require('..//x')")], []⟩,
    []⟩

/-- The project of these scripts. -/
def projectAbove : Project := ⟨⟨"/a/x.js"⟩, .initial, [".js"], .fail⟩

/-- The script refers to itself, and the one below refers to it in another way: both references are
replaced by a call of the same identity. -/
theorem spellings_mean_one_file_beside :
    Specifier.kind "./x" ≠ .bare ∧ Specifier.kind "..//x" ≠ .bare ∧
      resolve scriptAbove [".js"] "./x" ⟨"/a"⟩ = .ok (.file ⟨"/a/x.js"⟩) ∧
      resolve scriptAbove [".js"] "..//x" ⟨"/a/b"⟩ = .ok (.file ⟨"/a/x.js"⟩) ∧
      (Walk.follow projectAbove ⟨"/a/b/c.js"⟩ (.start projectAbove scriptAbove) [] "..//x".toList).1 =
        .ok "require('/x.js')".toList ∧
      ((Path.mk "/a").join ⟨"./b/../x"⟩).normalize = ((Path.mk "/a").join ⟨"./x"⟩).normalize := by
  have path₁ : Specifier.kind "./x" ≠ .bare := by decide
  have path₂ : Specifier.kind "..//x" ≠ .bare := by decide
  have first : resolve scriptAbove [".js"] "./x" ⟨"/a"⟩ = .ok (.file ⟨"/a/x.js"⟩) := by
    decide +kernel
  have treated : projectAbove.treatment scriptAbove .none ⟨"/a/x.js"⟩ "./x" =
      .target ⟨"/a/x.js"⟩ := by
    decide +kernel
  have call : (Call.write (projectAbove.identityOf ⟨"/a/x.js"⟩).text).toList =
      "require('/x.js')".toList := by
    decide +kernel
  obtain ⟨mean, spell⟩ := spellings_mean_one_file scriptAbove [".js"]
  obtain ⟨one, replaced⟩ := mean "./x" "..//x" ⟨"/a"⟩ ⟨"/a/b"⟩ (by decide) (by decide) path₁ path₂
    (by decide) (by decide)
  obtain ⟨-, second⟩ := replaced projectAbove (.start projectAbove scriptAbove)
    (.start projectAbove scriptAbove) ⟨"/a/x.js"⟩ ⟨"/a/b/c.js"⟩ ⟨"/a/x.js"⟩ [] [] rfl rfl rfl rfl
    (by decide +kernel) (by decide +kernel) (by decide +kernel) treated
  obtain ⟨around, -⟩ := spell ⟨"/a"⟩ (by decide)
  refine ⟨path₁, path₂, first, ?_, second.trans (congrArg Except.ok call),
    around "." "x" "b" ⟨by decide, by decide, by decide, by decide⟩ "b/.." (by decide)⟩
  rcases one with ⟨location, found, found'⟩ | ⟨missing, -⟩
  · rw [first] at found
    cases found
    exact found'
  · rw [first] at missing
    exact absurd missing (by simp)

end ScriptBundle
