import ScriptBundle.Proofs.Path.Relative
import ScriptBundle.Proofs.Walk.Policies
import ScriptBundle.Proofs.Walk.Schedule

/-! # What is kept out along a run

What a walk keeps out is only looked at when a module is made: a location may wait in the queue,
brought by the options, by a reference or as a manifest, and is passed over at its turn. So if a run
keeps out whatever it keeps out before it makes its first module, all its modules are made with the
same kept out, which is told by the commands alone.

* **`Project.KeepsOut`, `Command.Names`** — the files and the specifiers that some commands keep
  out;
* **`Walk.KeepsOutFirst`** — a run that keeps out nothing once it asks for modules;
* **`Walk.stepsAlong`** — the modules that come out of a run, each with the walk behind it;
* **`Project.Stands`** — what has to stand in the place of a segment, by what the commands keep out;
* **`Walk.run_keeps_out`** — what follows for every such run. -/

namespace ScriptBundle

/-! ## Names of packages -/

namespace Specifier

variable {specifier name : String} {front cs : List Char}

/-- **A `specifier` that falls under a name**: it is the name, or goes on behind it with a slash. -/
def IsUnder (name specifier : String) : Prop :=
  specifier = name ∨ ∃ rest, specifier = name ++ "/" ++ rest

/-- The beginnings of a text that a slash follows. -/
theorem mem_cutsAtSlash : front ∈ cutsAtSlash cs ↔ ∃ rest, cs = front ++ '/' :: rest := by
  induction cs generalizing front with
  | nil => simp [cutsAtSlash]
  | cons c cs ih =>
      have further : front ∈ (cutsAtSlash cs).map (c :: ·) ↔
          ∃ inner rest, front = c :: inner ∧ cs = inner ++ '/' :: rest := by
        constructor
        · intro h
          obtain ⟨inner, hinner, rfl⟩ := List.mem_map.mp h
          obtain ⟨rest, whole⟩ := ih.mp hinner
          exact ⟨inner, rest, rfl, whole⟩
        · rintro ⟨inner, rest, rfl, whole⟩
          exact List.mem_map_of_mem (ih.mpr ⟨rest, whole⟩)
      rw [cutsAtSlash]
      cases front with
      | nil =>
          by_cases slash : c = '/'
          · simp [slash]
          · simp [slash]
      | cons d inner =>
          have listed : d :: inner ∈ (if c = '/' then [] :: (cutsAtSlash cs).map (c :: ·)
              else (cutsAtSlash cs).map (c :: ·)) ↔ d :: inner ∈ (cutsAtSlash cs).map (c :: ·) := by
            by_cases slash : c = '/'
            · rw [if_pos slash, List.mem_cons]
              exact or_iff_right (List.cons_ne_nil d inner)
            · rw [if_neg slash]
          rw [listed, further]
          constructor
          · rintro ⟨_, rest, same, rfl⟩
            obtain ⟨rfl, rfl⟩ := List.cons.inj same
            exact ⟨rest, rfl⟩
          · rintro ⟨rest, whole⟩
            obtain ⟨rfl, rfl⟩ := List.cons.inj whole
            exact ⟨inner, rest, rfl, rfl⟩

/-- **The names a `specifier` falls under.** -/
theorem mem_packages : name ∈ packages specifier ↔ IsUnder name specifier := by
  rw [packages, List.mem_cons, IsUnder, eq_comm]
  refine or_congr_right ?_
  constructor
  · intro h
    obtain ⟨front, hfront, rfl⟩ := List.mem_map.mp h
    obtain ⟨rest, whole⟩ := mem_cutsAtSlash.mp hfront
    refine ⟨String.ofList rest, String.toList_injective ?_⟩
    simp [whole]
  · rintro ⟨rest, rfl⟩
    refine List.mem_map.mpr ⟨name.toList, mem_cutsAtSlash.mpr ⟨rest.toList, ?_⟩, by simp⟩
    simp

end Specifier

/-- **A `specifier` is kept out by name** if it falls under one of the names. -/
theorem Exclusions.holdsName_iff {x : Exclusions} {specifier : String} :
    x.holdsName specifier = true ↔ ∃ name ∈ x.names, Specifier.IsUnder name specifier := by
  rw [holdsName, List.any_eq_true]
  constructor
  · rintro ⟨name, listed, kept⟩
    exact ⟨name, List.contains_iff_mem.mp kept, Specifier.mem_packages.mp listed⟩
  · rintro ⟨name, kept, under⟩
    exact ⟨name, Specifier.mem_packages.mpr under, List.contains_iff_mem.mpr kept⟩

/-! ## What commands keep out -/

namespace Walk

variable {commands : List Command} {specifier : String}

/-- The specifiers that some commands ask to keep out. -/
def keptOut (commands : List Command) : List String :=
  commands.filterMap fun
    | .keepOut specifier => some specifier
    | _ => none

/-- What a run keeps out are the specifiers of its commands `keepOut`. -/
theorem mem_keptOut : specifier ∈ keptOut commands ↔ .keepOut specifier ∈ commands := by
  rw [keptOut, List.mem_filterMap]
  constructor
  · rintro ⟨command, listed, asks⟩
    cases command with
    | keepOut s =>
        obtain rfl := Option.some.inj asks
        exact listed
    | pack s => simp at asks
    | next => simp at asks
  · intro listed
    exact ⟨_, listed, rfl⟩

end Walk

/-- The names that are kept out with a `specifier`: its own, if it names a package. -/
def Specifier.keptNames (specifier : String) : List String :=
  if isHostModule specifier = false ∧ kind specifier = .bare then [specifier] else []

namespace Project

variable (P : Project) (w : Workspace)

/-- The files that are kept out with a `specifier`: what it means from the folder of the entry script.
-/
def keptFiles (specifier : String) : List (List Part) :=
  match P.resolve w specifier P.base with
  | .ok (.file location) => [location.parts]
  | _ => []

/-- What is kept out with some `specifiers`. -/
def exclusionsOf (specifiers : List String) : Exclusions :=
  ⟨specifiers.flatMap Specifier.keptNames, specifiers.flatMap (P.keptFiles w)⟩

/-- **A file is kept out by some commands**: one of them keeps out a `specifier` that means the file.
-/
def KeepsOut (commands : List Walk.Command) (location : Path) : Prop :=
  ∃ specifier found, .keepOut specifier ∈ commands ∧
    P.resolve w specifier P.base = .ok (.file found) ∧ found.parts = location.parts

end Project

/-- **A `specifier` is kept out by some commands by name**: it falls under the name of a package that
one of them keeps out. -/
def Walk.NamesOut (commands : List Walk.Command) (specifier : String) : Prop :=
  ∃ name, .keepOut name ∈ commands ∧ isHostModule name = false ∧ Specifier.kind name = .bare ∧
    Specifier.IsUnder name specifier

namespace Walk

variable {P : Project} {w : Workspace} {walk : Walk} {commands front back : List Command}
  {specifier : String} {p : Path}

/-- **Whether a file is kept out** with some specifiers. -/
theorem holdsFile_exclusionsOf :
    (P.exclusionsOf w (keptOut commands)).holdsFile p = true ↔ P.KeepsOut w commands p := by
  rw [Exclusions.holdsFile, List.contains_iff_mem, Project.exclusionsOf, List.mem_flatMap]
  constructor
  · rintro ⟨specifier, listed, kept⟩
    unfold Project.keptFiles at kept
    split at kept
    · rename_i found resolved
      exact ⟨specifier, found, mem_keptOut.mp listed, resolved, (List.mem_singleton.mp kept).symm⟩
    · exact absurd kept List.not_mem_nil
  · rintro ⟨specifier, found, listed, resolved, same⟩
    refine ⟨specifier, mem_keptOut.mpr listed, ?_⟩
    rw [Project.keptFiles, resolved]
    exact List.mem_singleton.mpr same.symm

/-- **Whether a `specifier` is kept out by name** with some specifiers. -/
theorem holdsName_exclusionsOf :
    (P.exclusionsOf w (keptOut commands)).holdsName specifier = true ↔ NamesOut commands specifier := by
  rw [Exclusions.holdsName_iff]
  constructor
  · rintro ⟨name, kept, under⟩
    obtain ⟨asked, listed, named⟩ := List.mem_flatMap.mp kept
    unfold Specifier.keptNames at named
    split at named
    · rename_i package
      obtain rfl := List.mem_singleton.mp named
      exact ⟨name, mem_keptOut.mp listed, package.1, package.2, under⟩
    · exact absurd named List.not_mem_nil
  · rintro ⟨name, listed, own, bare, under⟩
    refine ⟨name, List.mem_flatMap.mpr ⟨name, mem_keptOut.mpr listed, ?_⟩, under⟩
    rw [Specifier.keptNames, if_pos ⟨own, bare⟩]
    exact List.mem_singleton_self name

/-! ## Along a run -/

/-- **The `walk` behind a specifier that is kept out**, whether or not it means anything. -/
theorem perform_keepOut (walk : Walk) (specifier : String) :
    walk.perform P (.keepOut specifier) = { walk with
      exclusions := ⟨walk.exclusions.names ++ Specifier.keptNames specifier,
        walk.exclusions.files ++ P.keptFiles walk.files specifier⟩ } := by
  rw [perform, exclude?, Specifier.keptNames, Project.keptFiles]
  cases host : isHostModule specifier with
  | true =>
      have resolved : P.resolve walk.files specifier P.base = .ok (.host specifier) :=
        resolve_host walk.files P.extensions host P.base
      simp [resolved]
  | false =>
      by_cases bare : Specifier.kind specifier = .bare
      · cases resolved : P.resolve walk.files specifier P.base with
        | error cause => simp [bare]
        | ok location => cases location <;> simp [bare]
      · cases resolved : P.resolve walk.files specifier P.base with
        | error cause => simp [bare]
        | ok location => cases location <;> simp [bare]

/-- A `location` that is processed keeps out nothing more. -/
theorem exclusions_process (walk : Walk) (location : Path) :
    (process P walk location).2.exclusions = walk.exclusions := by
  have frame (source : String) (files : Workspace) := (linkAll_frame P location
    (walk.known P files location) (P.segmentsOf location source)).2.1
  rcases process_cases P walk location with
    ⟨cause, files, -, e⟩ | ⟨source, files, -, ⟨cause, left, linked, e⟩ | ⟨text, left, linked, e⟩⟩
  · rw [e]
  · have same := frame source files
    rw [linked] at same
    rw [e]
    exact same
  · have same := frame source files
    rw [linked] at same
    rw [e]
    exact same

/-- The next module keeps out nothing more. -/
theorem exclusions_next (walk : Walk) : (walk.next P).2.exclusions = walk.exclusions := by
  cases waiting : walk.queue.dropWhile walk.passesOver with
  | nil => rw [next_nil waiting]
  | cons location rest =>
      rw [next_cons waiting]
      exact exclusions_process { walk with queue := rest } location

/-- Whatever else a `walk` is asked for, it keeps out nothing more. -/
theorem exclusions_run (none : ∀ specifier, .keepOut specifier ∉ commands) (walk : Walk) :
    (walk.run P commands).exclusions = walk.exclusions := by
  induction commands generalizing walk with
  | nil => rfl
  | cons command rest ih =>
      have later : ∀ specifier, .keepOut specifier ∉ rest :=
        fun specifier listed => none specifier (List.mem_cons_of_mem _ listed)
      have first : (walk.perform P command).exclusions = walk.exclusions := by
        cases command with
        | keepOut specifier => exact absurd List.mem_cons_self (none specifier)
        | next => exact exclusions_next walk
        | pack specifier =>
            rw [perform]
            split
            · rename_i packed
              exact (include?_frame packed).2
            · rfl
      exact (ih later (walk.perform P command)).trans first

/-- **A run without a module** leaves the files as they are, and keeps out what it was asked to. -/
theorem run_of_next_notMem (none : .next ∉ commands) (walk : Walk) :
    (walk.run P commands).files = walk.files ∧
      (walk.run P commands).exclusions =
        ⟨walk.exclusions.names ++ (P.exclusionsOf walk.files (keptOut commands)).names,
          walk.exclusions.files ++ (P.exclusionsOf walk.files (keptOut commands)).files⟩ := by
  -- on the commands, for the walk behind each of them
  induction commands generalizing walk with
  | nil => simp [run, keptOut, Project.exclusionsOf]
  | cons command rest ih =>
      obtain ⟨files, exclusions⟩ :=
        ih (fun listed => none (List.mem_cons_of_mem _ listed)) (walk.perform P command)
      have whole : walk.run P (command :: rest) = (walk.perform P command).run P rest := rfl
      rw [whole, files, exclusions]
      cases command with
      | next => exact absurd List.mem_cons_self none
      | keepOut specifier =>
          rw [perform_keepOut]
          refine ⟨rfl, ?_⟩
          simp [keptOut, Project.exclusionsOf]
      | pack specifier =>
          obtain ⟨files, exclusions⟩ : (walk.perform P (.pack specifier)).files = walk.files ∧
              (walk.perform P (.pack specifier)).exclusions = walk.exclusions := by
            rw [perform]
            split
            · rename_i packed
              exact include?_frame packed
            · exact ⟨rfl, rfl⟩
          rw [files, exclusions]
          exact ⟨rfl, rfl⟩

/-- **A run that keeps out nothing once it asks for modules.** -/
def KeepsOutFirst (commands : List Command) : Prop :=
  ∃ before later, commands = before ++ later ∧ .next ∉ before ∧
    ∀ specifier, .keepOut specifier ∉ later

/-- **In front of every module of such a run**, what is kept out is what its commands ask for. -/
theorem KeepsOutFirst.exclusions_eq (first : KeepsOutFirst commands)
    (whole : commands = front ++ .next :: back) :
    ((start P w).run P front).exclusions = P.exclusionsOf w (keptOut commands) := by
  obtain ⟨before, later, rfl, silent, done⟩ := first
  -- the module comes behind the part of the run that may keep out
  obtain ⟨middle, rfl, rfl⟩ : ∃ middle, front = before ++ middle ∧ later = middle ++ .next :: back := by
    rcases List.append_eq_append_iff.mp whole with ⟨middle, rfl, rfl⟩ | ⟨middle, rfl, rest⟩
    · exact ⟨middle, rfl, rfl⟩
    · cases middle with
      | nil => exact ⟨[], by simp, by simpa using rest.symm⟩
      | cons command more =>
          obtain ⟨rfl, -⟩ := List.cons.inj rest
          exact absurd (List.mem_append_right _ List.mem_cons_self) silent
  have quiet : ∀ specifier, .keepOut specifier ∉ middle :=
    fun specifier listed => done specifier (List.mem_append_left _ listed)
  have nothing : keptOut (middle ++ .next :: back) = [] := by
    refine List.eq_nil_iff_forall_not_mem.mpr fun specifier listed => ?_
    exact done specifier (mem_keptOut.mp listed)
  have all : keptOut (before ++ (middle ++ .next :: back)) = keptOut before := by
    rw [keptOut, List.filterMap_append, ← keptOut, ← keptOut, nothing, List.append_nil]
  rw [run_append, exclusions_run quiet, (run_of_next_notMem silent (start P w)).2, all]
  rfl

/-! ## Modules along a run -/

/-- The module that comes out of a command, with the `walk` behind it. -/
def stepBy (P : Project) (walk : Walk) : Command → List (ModuleRecord × Walk)
  | .next =>
    match walk.next P with
    | (some (.ok record), after) => [(record, after)]
    | _ => []
  | _ => []

/-- **The modules that come out of a run**, each with the `walk` behind it. -/
def stepsAlong (P : Project) : Walk → List Command → List (ModuleRecord × Walk)
  | _, [] => []
  | walk, command :: rest => walk.stepBy P command ++ stepsAlong P (walk.perform P command) rest

/-- They are the modules that come out of the run. -/
theorem map_stepsAlong (walk : Walk) (commands : List Command) :
    (stepsAlong P walk commands).map Prod.fst = recordsAlong P walk commands := by
  induction commands generalizing walk with
  | nil => rfl
  | cons command rest ih =>
      have first : (walk.stepBy P command).map Prod.fst = walk.recordBy P command := by
        cases command with
        | pack specifier => rfl
        | keepOut specifier => rfl
        | next =>
            rw [stepBy, recordBy]
            rcases walk.next P with ⟨_ | _ | record, after⟩ <;> rfl
      rw [stepsAlong, recordsAlong, List.map_append, first, ih]

/-- **A module along a run** comes out of a step behind some of its commands. -/
theorem exists_next_of_mem_stepsAlong {step : ModuleRecord × Walk}
    (h : step ∈ stepsAlong P walk commands) :
    ∃ front back, commands = front ++ .next :: back ∧
      (walk.run P front).next P = (some (.ok step.1), step.2) := by
  induction commands generalizing walk with
  | nil => exact absurd h List.not_mem_nil
  | cons command rest ih =>
      rcases List.mem_append.mp h with now | later
      · cases command with
        | pack specifier => exact absurd now List.not_mem_nil
        | keepOut specifier => exact absurd now List.not_mem_nil
        | next =>
            refine ⟨[], rest, rfl, ?_⟩
            rw [stepBy] at now
            split at now
            · rename_i record after made
              rw [List.mem_singleton.mp now]
              exact made
            · exact absurd now List.not_mem_nil
      · obtain ⟨front, back, rfl, made⟩ := ih later
        exact ⟨command :: front, back, rfl, made⟩

/-- **A module that is made under the strict `policy`** has no reference without a target. -/
theorem note?_eq_none_of_next (strict : P.policy = .fail) {gone : List Path} (order : Orderly gone walk)
    {record : ModuleRecord} {after : Walk} (made : walk.next P = (some (.ok record), after)) :
    ∀ segment ∈ P.segmentsOf record.location record.compiled,
      P.note? after.files after.exclusions record.location segment = none := by
  have makes := makes_of_next order made
  have whole : P.under .fail = P := by rw [Project.under, ← strict]
  -- it is made in the same way under the lenient policy, which notes nothing
  have silent : after.unresolved = walk.unresolved := by
    cases stepsAlike P walk with
    | same stepped silent =>
        rw [whole, made] at stepped
        rw [← stepped] at silent
        exact silent
    | apart _ _ _ _ _ _ _ fails =>
        rw [whole, made] at fails
        simp at fails
  have nothing := makes.unresolved_eq
  rw [silent, List.self_eq_append_right, List.filterMap_eq_nil_iff] at nothing
  exact nothing

end Walk

/-! ## What stands in the place of references -/

namespace Project

open Walk (Command NamesOut)

/-- **What has to stand in the place of a reference**, by what some commands keep out. The cases are
decided in this order: modules of the host, names that are kept out, references without a `target`,
files that are kept out, and all others. -/
inductive Replaces (P : Project) (w : Workspace) (commands : List Command) (files : Workspace)
    (referrer : Path) (text : List Char) (specifier : String) : List Char → Prop
  /-- A module of the host stays as it is. -/
  | host (own : isHostModule specifier = true) :
      Replaces P w commands files referrer text specifier text
  /-- What is kept out by name stays as it is. -/
  | named (foreign : isHostModule specifier = false) (out : NamesOut commands specifier) :
      Replaces P w commands files referrer text specifier text
  /-- What has no target stays as it is, where missing targets are noted. -/
  | missing {cause : ResolveError} (foreign : isHostModule specifier = false)
      (unnamed : ¬NamesOut commands specifier)
      (none : P.resolve files specifier referrer.folder = .error cause) (noted : P.policy = .collect) :
      Replaces P w commands files referrer text specifier text
  /-- A file that is kept out stays as it is, if it is not named by an absolute path. -/
  | outside {location : Path} (foreign : isHostModule specifier = false)
      (unnamed : ¬NamesOut commands specifier)
      (found : P.resolve files specifier referrer.folder = .ok (.file location))
      (out : P.KeepsOut w commands location) (near : Specifier.kind specifier ≠ .absolute) :
      Replaces P w commands files referrer text specifier text
  /-- A file that is kept out and named by an absolute path is called by the way to it. -/
  | far {location : Path} {way : String} (foreign : isHostModule specifier = false)
      (unnamed : ¬NamesOut commands specifier)
      (found : P.resolve files specifier referrer.folder = .ok (.file location))
      (out : P.KeepsOut w commands location) (absolute : Specifier.kind specifier = .absolute)
      (leads : Path.IsWay referrer.folder location way) :
      Replaces P w commands files referrer text specifier (Call.write way).toList
  /-- Any other file is called by its identity. -/
  | packed {location : Path} (foreign : isHostModule specifier = false)
      (unnamed : ¬NamesOut commands specifier)
      (found : P.resolve files specifier referrer.folder = .ok (.file location))
      (inside : ¬P.KeepsOut w commands location) :
      Replaces P w commands files referrer text specifier
        (Call.write (P.identityOf location).text).toList

/-- **What has to stand in the place of a segment**: a character stays as it is. -/
def Stands (P : Project) (w : Workspace) (commands : List Command) (files : Workspace)
    (referrer : Path) : Segment → List Char → Prop
  | .char c, shown => shown = [c]
  | .reference text specifier, shown =>
    P.Replaces w commands files referrer text (.ofList specifier) shown

variable {P : Project} {w files : Workspace} {commands : List Command} {referrer : Path}

/-- A `specifier` of no module of the host means none. -/
theorem resolve_ne_host {specifier name : String} {folder : Path}
    (foreign : isHostModule specifier = false) :
    P.resolve files specifier folder ≠ .ok (.host name) := by
  intro resolved
  unfold resolve ScriptBundle.resolve at resolved
  rw [if_neg (by simp [foreign])] at resolved
  split at resolved
  · simp at resolved
  · split at resolved
    · simp at resolved
    · simp at resolved

/-- What stands in the place of a reference to a file is decided by whether the file is kept out, and
by how it is named. -/
theorem replaces_file {x : Exclusions} {text specifier : List Char} {location : Path}
    (by_file : ∀ p, x.holdsFile p = true ↔ P.KeepsOut w commands p)
    (own : isHostModule (.ofList specifier) = false) (out : ¬NamesOut commands (.ofList specifier))
    (unheld : x.holdsName (.ofList specifier) = false)
    (resolved : P.resolve files (.ofList specifier) referrer.folder = .ok (.file location)) :
    P.Replaces w commands files referrer text (.ofList specifier)
      (P.linkedText files x referrer (.reference text specifier)) := by
  rw [linkedText]
  by_cases file_out : P.KeepsOut w commands location
  · have held := (by_file location).mpr file_out
    by_cases absolute : Specifier.kind (.ofList specifier) = .absolute
    · have treated : P.treatment files x referrer (.ofList specifier) =
          .outside (Path.specifierFrom referrer.folder location) := by
        simp [treatment, own, unheld, resolved, held, absolute]
      have rooted := (isCandidate_of_resolve resolved).2.isAbsolute
      rw [treated]
      exact .far own out resolved file_out absolute (Path.isWay_specifierFrom referrer.folder rooted)
    · have treated : P.treatment files x referrer (.ofList specifier) = .literal := by
        simp [treatment, own, unheld, resolved, held, absolute]
      rw [treated]
      exact .outside own out resolved file_out absolute
  · have free : x.holdsFile location = false := by
      rw [← Bool.not_eq_true, by_file]
      exact file_out
    have treated : P.treatment files x referrer (.ofList specifier) = .target location := by
      simp [treatment, own, unheld, resolved, free]
    rw [treated]
    exact .packed own out resolved file_out

/-- **What stands in the place of a segment is what has to**, if missing targets are noted or there
is none. -/
theorem stands_linkedText {segment : Segment}
    (found : P.policy = .fail →
      P.note? files (P.exclusionsOf w (Walk.keptOut commands)) referrer segment = none) :
    P.Stands w commands files referrer segment
      (P.linkedText files (P.exclusionsOf w (Walk.keptOut commands)) referrer segment) := by
  cases segment with
  | char c => rfl
  | reference text specifier =>
      generalize kept : P.exclusionsOf w (Walk.keptOut commands) = x at found ⊢
      have by_file (p : Path) : x.holdsFile p = true ↔ P.KeepsOut w commands p :=
        kept ▸ Walk.holdsFile_exclusionsOf
      have by_name : x.holdsName (.ofList specifier) = true ↔ NamesOut commands (.ofList specifier) :=
        kept ▸ Walk.holdsName_exclusionsOf
      rw [Stands]
      rw [note?] at found
      -- as the treatment is decided
      cases own : isHostModule (.ofList specifier) with
      | true =>
          rw [linkedText, treatment_host P files x referrer own]
          exact .host own
      | false =>
          by_cases out : NamesOut commands (.ofList specifier)
          · rw [linkedText, treatment_excludedName P files referrer (by_name.mpr out)]
            exact .named own out
          · have unheld : x.holdsName (.ofList specifier) = false := by
              rw [← Bool.not_eq_true, by_name]
              exact out
            cases resolved : P.resolve files (.ofList specifier) referrer.folder with
            | error cause =>
                have treated : P.treatment files x referrer (.ofList specifier) = .missing cause := by
                  simp [treatment, own, unheld, resolved]
                rw [linkedText, treated]
                rw [treated] at found
                refine .missing own out resolved ?_
                cases policy : P.policy with
                | collect => rfl
                | fail => exact absurd (found policy) (by simp)
            | ok meant =>
                cases meant with
                | host name => exact absurd resolved (resolve_ne_host own)
                | file location => exact replaces_file by_file own out unheld resolved

end Project

/-! ## Every run -/

namespace Walk

variable {P : Project} {w : Workspace} {commands : List Command}

/-- **A module along a run that keeps out first** is made of a `location` that is not kept out, with
every segment of its script replaced as it has to be. -/
theorem KeepsOutFirst.made (first : KeepsOutFirst commands) {step : ModuleRecord × Walk}
    (h : step ∈ stepsAlong P (start P w) commands) :
    ¬P.KeepsOut w commands step.1.location ∧
      ∃ pieces, List.Forall₂ (P.Stands w commands step.2.files step.1.location)
          (P.segmentsOf step.1.location step.1.compiled) pieces ∧
        step.1.linked = .ofList pieces.flatten := by
  obtain ⟨front, back, whole, made⟩ := exists_next_of_mem_stepsAlong h
  have order := (orderly_start P w).run (P := P) front
  have makes := makes_of_next order made
  have kept := first.exclusions_eq (P := P) (w := w) whole
  have behind : step.2.exclusions = P.exclusionsOf w (keptOut commands) :=
    makes.exclusions_eq.trans kept
  refine ⟨fun out => ?_, (P.segmentsOf step.1.location step.1.compiled).map
    (P.linkedText step.2.files step.2.exclusions step.1.location), ?_, ?_⟩
  · have passed := ((Bool.or_eq_false_iff ..).mp makes.passesOver_eq).2
    rw [kept, holdsFile_exclusionsOf.mpr out] at passed
    simp at passed
  · rw [List.forall₂_map_right_iff, List.forall₂_same]
    intro segment hsegment
    have silent := fun strict => note?_eq_none_of_next strict order made segment hsegment
    rw [behind] at silent ⊢
    exact Project.stands_linkedText silent
  · rw [makes.linked_eq, List.flatMap_def]

/-- **Along a run every module is made of a reduced path**, for `extensions` that spell no step up. -/
theorem isReduced_of_mem_stepsAlong (normal : P.entry.IsNormal)
    (level : ∀ e ∈ P.extensions, IsLevelExtension e) {step : ModuleRecord × Walk}
    (h : step ∈ stepsAlong P (start P w) commands) :
    step.1.location.IsReduced := by
  obtain ⟨front, back, -, made⟩ := exists_next_of_mem_stepsAlong h
  have order := (orderly_start P w).run (P := P) front
  have such : SchedulesOnly (fun _ => True) Path.IsReduced ((start P w).run P front) := by
    refine SchedulesOnly.run ?_ (fun _ _ _ => trivial)
      (SchedulesOnly.start P trivial normal.isReduced) front
    intro files specifier folder p _ resolved q hq
    exact Project.isReduced_of_mem_withManifest (isReduced_of_resolve level resolved) hq
  exact such.listed _ ((makes_of_next order made).location_mem order)

/-- **What is kept out stays out, and references are replaced exactly**, along every run that keeps
out nothing once it asks for modules. No module is made of a file that is kept out, whatever names
the file. What stands in a module is what its compiler gave, with each reference replaced as the
commands say: literally, by the way to a file that is kept out, or by the identity of a file that is
packed. The way leads to the file if the folder of the module is spelled without steps up, and so it
is for `extensions` that spell none. -/
theorem run_keeps_out (P : Project) (w : Workspace) {commands : List Command}
    (first : KeepsOutFirst commands) :
    (stepsAlong P (start P w) commands).map Prod.fst = recordsAlong P (start P w) commands ∧
      (∀ record ∈ recordsAlong P (start P w) commands, ¬P.KeepsOut w commands record.location) ∧
      (∀ step ∈ stepsAlong P (start P w) commands,
        ∃ pieces, List.Forall₂ (P.Stands w commands step.2.files step.1.location)
            (P.segmentsOf step.1.location step.1.compiled) pieces ∧
          step.1.linked = .ofList pieces.flatten) ∧
      (P.entry.IsNormal → (∀ e ∈ P.extensions, IsLevelExtension e) →
        ∀ record ∈ recordsAlong P (start P w) commands,
          record.location.folder.isAbsolute = true ∧ Part.up ∉ record.location.folder.parts) := by
  have same := map_stepsAlong (P := P) (start P w) commands
  have each : ∀ record ∈ recordsAlong P (start P w) commands,
      ∃ step ∈ stepsAlong P (start P w) commands, step.1 = record := by
    intro record hrecord
    rw [← same] at hrecord
    exact List.mem_map.mp hrecord
  refine ⟨same, fun record hrecord => ?_, fun step hstep => (first.made hstep).2,
    fun normal level record hrecord => ?_⟩
  · obtain ⟨step, hstep, rfl⟩ := each record hrecord
    exact (first.made hstep).1
  · obtain ⟨step, hstep, rfl⟩ := each record hrecord
    have folder := (isReduced_of_mem_stepsAlong normal level hstep).folder
    exact ⟨folder.isAbsolute, folder.up_notMem_parts⟩

/-- A script with a reference of each kind: a module of the host, a package, a file that does not
exist, a file by a relative and by an absolute path, and another file. -/
def variedScripts : Workspace :=
  ⟨⟨[(["s", "a.js"], .text ("require('fs');require('x/y');require('./gone');require('./b');" ++
      "require('/b.js');require('./c')")),
    (["s", "b.js"], .text ""), (["b.js"], .text ""), (["s", "c.js"], .text "")], []⟩, []⟩

/-- The project of this script. -/
def variedProject : Project :=
  ⟨⟨"/s/a.js"⟩, .initial, Registry.initial.resolutionExtensions, .collect⟩

/-- A run that keeps out the package and both files, and asks for one of the files and for all
modules. -/
def variedRun : List Command :=
  [.keepOut "x", .keepOut "./b.js", .keepOut "/b.js", .pack "./b", .next, .next, .next]

/-- The modules of this run: of the references only the last is replaced by an identity, and the one
by an absolute path by the way to the file. -/
theorem run_keeps_out_variedScripts :
    KeepsOutFirst variedRun ∧
      recordsAlong variedProject (start variedProject variedScripts) variedRun =
        [⟨⟨"/s/a.js"⟩, ⟨"/a.js"⟩,
          "require('fs');require('x/y');require('./gone');require('./b');" ++
            "require('/b.js');require('./c')",
          "require('fs');require('x/y');require('./gone');require('./b');require('../b.js');" ++
            "require('/c.js')"⟩,
          ⟨⟨"/s/c.js"⟩, ⟨"/c.js"⟩, "", ""⟩] ∧
      (∀ record ∈ recordsAlong variedProject (start variedProject variedScripts) variedRun,
        ¬variedProject.KeepsOut variedScripts variedRun record.location ∧
          record.location.folder.isAbsolute = true ∧ Part.up ∉ record.location.folder.parts) ∧
      ∀ step ∈ stepsAlong variedProject (start variedProject variedScripts) variedRun,
        ∃ pieces, List.Forall₂ (variedProject.Stands variedScripts variedRun step.2.files
            step.1.location) (variedProject.segmentsOf step.1.location step.1.compiled) pieces ∧
          step.1.linked = .ofList pieces.flatten := by
  have first : KeepsOutFirst variedRun := by
    refine ⟨[.keepOut "x", .keepOut "./b.js", .keepOut "/b.js", .pack "./b"], [.next, .next, .next],
      rfl, by decide, fun specifier => by simp⟩
  have normal : variedProject.entry.IsNormal := by
    refine ⟨["s", "a.js"], ?_, by decide⟩
    simp only [List.forall_mem_cons, Part.IsName]
    decide
  obtain ⟨-, outside, stand, level⟩ := run_keeps_out variedProject variedScripts first
  refine ⟨first, by decide +kernel, fun record hrecord => ?_, stand⟩
  exact ⟨outside record hrecord, level normal (by decide) record hrecord⟩

/-! ## Folders with steps up

An extension may hold slashes and steps up, and then the file a search finds is spelled with them.
The way from the folder of such a file goes up once for every step up in its spelling, and leads too
far. -/

/-- A script that refers to another one by an extension with a step up, which refers to a file by an
absolute path. -/
def spelledUpScripts : Workspace :=
  ⟨⟨[(["virtual", "top", "root", "entry.js"], .text "require('./a/x')"),
    (["virtual", "top", "root", "a", "x.d", "k.js"], .text ""),
    (["virtual", "top", "root", "a", "q.js"], .text "require('/virtual/top/root/b.js')"),
    (["virtual", "top", "root", "b.js"], .text "")], []⟩, []⟩

/-- A compiler for the extension. -/
def upCompiler : Compiler := ⟨"up", [".d/../q.js"], true, fun w p => (readSource w p, w)⟩

/-- The project of these scripts. -/
def spelledUpProject : Project :=
  ⟨⟨"/virtual/top/root/entry.js"⟩, ⟨[(".json", .document), (".d/../q.js", upCompiler)]⟩,
    [".js", ".json", ".d/../q.js"], .fail⟩

/-- A run that keeps out the file. -/
def spelledUpRun : List Command := [.keepOut "./b.js", .next, .next]

/-- **From a folder that is spelled with a step up** the way to a file that is kept out does not
lead to it. -/
theorem run_keeps_out_spelledUp :
    KeepsOutFirst spelledUpRun ∧
      spelledUpProject.KeepsOut spelledUpScripts spelledUpRun ⟨"/virtual/top/root/b.js"⟩ ∧
      Specifier.kind "/virtual/top/root/b.js" = .absolute ∧
      ∃ record ∈ recordsAlong spelledUpProject (start spelledUpProject spelledUpScripts) spelledUpRun,
        record.location.folder = ⟨"/virtual/top/root/a/x.d/.."⟩ ∧
          record.compiled = "require('/virtual/top/root/b.js')" ∧
          spelledUpProject.resolve spelledUpScripts "/virtual/top/root/b.js" record.location.folder =
            .ok (.file ⟨"/virtual/top/root/b.js"⟩) ∧
          record.linked = Call.write "../../../b.js" ∧
          (record.location.folder.join ⟨"../../../b.js"⟩).normalize ≠
            ⟨"/virtual/top/root/b.js"⟩ := by
  have first : KeepsOutFirst spelledUpRun :=
    ⟨[.keepOut "./b.js"], [.next, .next], rfl, by decide, fun specifier => by simp⟩
  have made : recordsAlong spelledUpProject (start spelledUpProject spelledUpScripts) spelledUpRun =
      [⟨⟨"/virtual/top/root/entry.js"⟩, ⟨"/entry.js"⟩, "require('./a/x')",
          "require('/a/x.d/../q.js')"⟩,
        ⟨⟨"/virtual/top/root/a/x.d/../q.js"⟩, ⟨"/a/x.d/../q.js"⟩,
          "require('/virtual/top/root/b.js')", "require('../../../b.js')"⟩] := by
    decide +kernel
  refine ⟨first, ⟨"./b.js", ⟨"/virtual/top/root/b.js"⟩, by decide, by decide +kernel, rfl⟩,
    by decide, ?_⟩
  rw [made]
  exact ⟨_, List.mem_cons_of_mem _ List.mem_cons_self, by decide +kernel, rfl, by decide +kernel,
    by decide +kernel, by decide +kernel⟩

end Walk

end ScriptBundle
