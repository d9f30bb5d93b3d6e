import ScriptBundle.CommandLine.Arguments
import ScriptBundle.CommandLine.Session

/-! # Runs of the command line

From the arguments and the session to what is written. The artifact goes to a file or to the channel
of results, chunk by chunk through a sink. A file that is written to can be seen by the modules that
are read later; when the run fails, what was made before is kept.

* **`CommandLine.stream`** — the chunks of an artifact written one after the other;
* **`CommandLine.run`** — the whole run. -/

namespace ScriptBundle.CommandLine

/-- The name of the program and its version. -/
def versionText : String := "enpaki 0.4.0\n"

/-! ## The log -/

/-- Where lines about the whole run come from. -/
def runSource : String := "enpaki"

/-- Where lines about overrides come from. -/
def walkSource : String := "enpaki::graph_builder"

/-- The line of a notice. -/
def noticeLine (notice : Notice) : LogLine := ⟨.warn, walkSource, notice.message⟩

/-- **The lines about a finished bundle**, made in some time. -/
def summary (elapsed : String) (report : Report) : List LogLine :=
  let size := "Bundled " ++ toString report.modules.length ++ " modules (" ++
    toString report.dependencyCount ++ " references) in " ++ elapsed
  let circles := report.circularGroups.map fun group =>
    LogLine.mk .info runSource
      ("Circular dependency: " ++ " <-> ".intercalate (group.map Identity.text))
  let missing := report.unresolved.map fun u => LogLine.mk .warn runSource u.text
  let count :=
    if report.unresolved.isEmpty then []
    else [LogLine.mk .warn runSource
      (toString report.unresolved.length ++ " reference(s) were left for the host to resolve")]
  ⟨.info, runSource, size⟩ :: circles ++ missing ++ count

/-! ## Writing -/

/-- **Where an artifact goes**, by the path that was given for it, and the files with an empty file
there. Without a path it goes where the results of the `session` go. -/
def openOutput (session : Session) (w : Workspace) :
    Option String → Except AccessError (Destination × Workspace)
  | none => .ok (session.results, w)
  | some path =>
    (w.tree.target w.start ⟨path⟩).map fun place =>
      (.file place 0, { w with tree := w.tree.put place (.bytes []) })

/-- **The chunks of an artifact written one after the other**: the error that ended it, if there was
one, the `stream` behind it, and what was written. There is no result where this takes more pulls than
the limit. -/
def stream (P : Project) (destination : Destination) (limit : Nat) (sink : Sink)
    (s : ChunkStream) : Option (Option BundleError × ChunkStream × Sink) :=
  match limit with
  | 0 => none
  | limit + 1 =>
    match s.next P with
    | (.error e, after) => some (some e, after, sink)
    | (.ok none, after) => some (none, after, sink)
    | (.ok (some chunk), after) =>
      let fuller := sink.write (Utf8.encode chunk.toList)
      let files := destination.deliver sink.through fuller.through after.walk.files
      stream P destination limit fuller { after with walk := { after.walk with files } }

/-! ## Runs -/

/-- The definitions of some lines, or the wording of the first `line` that is none. -/
def definitions : List String → Except String (List Compiler.Definition)
  | [] => .ok []
  | line :: rest =>
    match Compiler.Definition.ofText line with
    | .error e => .error ("invalid --compiler '" ++ line ++ "': " ++ e.message)
    | .ok d => (definitions rest).map (d :: ·)

/-- **The options of a bundle**: the settings of all layers, the arguments as the last of them; or
the wording of what is wrong. -/
def optionsOf (session : Session) (w : Workspace) (a : Arguments) : Except String Options :=
  match Settings.load w session.configurations? session.environment
      (a.settingsFile.map Path.mk) with
  | .error e => .error e.chain
  | .ok settings =>
    match definitions a.definitions with
    | .error wording => .error wording
    | .ok compilers =>
      .ok ((settings.merge ⟨a.included, a.excluded, a.policy, compilers⟩).toOptions
        session.programs)

/-- The wording of an error that ends a `bundle`. -/
def failure (entry : String) (e : BundleError) : String :=
  "can't bundle '" ++ entry ++ "': " ++ e.chain

/-- A run that failed after some lines for the log, with the wording of what is wrong. -/
def failed (w : Workspace) (log : List LogLine) (wording : String) : Outcome :=
  ⟨1, [], log, some ("error: " ++ wording), w⟩

/-- **A bundle made as asked for.** There is no result where this takes more pulls than the limit. -/
def make (limit : Nat) (session : Session) (w : Workspace) (a : Arguments) : Option Outcome :=
  match optionsOf session w a with
  | .error wording => some (failed w [] wording)
  | .ok options =>
    let (notices, ready) := Bundle.setup w ⟨a.entry⟩ options
    let log := notices.map noticeLine
    match ready with
    | .error e => some (failed w log (failure a.entry e))
    | .ok (P, walk) =>
      match openOutput session walk.files a.output with
      | .error cause =>
        some (failed w log
          ("can't create output file '" ++ a.output.getD "" ++ "': " ++ cause.message))
      | .ok (destination, files) =>
        (stream P destination limit (.empty a.output.isNone)
          (.start { walk with files } P.artifact)).map fun (error, s, sink) =>
            let results := if a.output.isNone then sink.total else []
            let files := destination.deliver sink.through sink.total s.walk.files
            match error with
            | some e => { failed files log (failure a.entry e) with results }
            | none => ⟨0, results, log ++ summary session.elapsed s.report, none, files⟩

/-- A run that writes some text to the channel of results and nothing else. -/
def printed (session : Session) (w : Workspace) (text : String) : Outcome :=
  let bytes := Utf8.encode text.toList
  ⟨0, bytes, [], none, session.results.deliver [] bytes w⟩

/-- **The whole run**: what a command line and a `session` lead to. There is no result where this
takes more pulls than the limit. -/
def run (limit : Nat) (session : Session) (w : Workspace) (arguments : List String) :
    Option Outcome :=
  match Request.ofList? arguments with
  | none => some ⟨2, [], [], some (session.complaint arguments), w⟩
  | some .help => some (printed session w session.help)
  | some .version => some (printed session w versionText)
  | some (.bundle a) => make limit session w a

end ScriptBundle.CommandLine
