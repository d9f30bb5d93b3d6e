import ScriptBundle.CommandLine.Run

/-! # The program

The command line on a real folder: the files below the folder it is started in are read into a
tree, the run is made on that tree, and what the run leaves is written. Only this module reads and
writes anything. It starts no other program, so a compiler that is one is not found. -/

namespace ScriptBundle.Main

/-- The variables of the environment a run asks for. -/
def askedNames : List String := ["ENPAKI_INCLUDE", "ENPAKI_EXCLUDE", "ENPAKI_ON_UNRESOLVED"]

/-- The `environment` a run asks for. -/
def environment : IO Environment := do
  let found ← askedNames.mapM fun name => do
    return (← IO.getEnv name).map fun value => (name, Content.text value)
  return found.filterMap id

/-- The user's folder for configurations: one that is named by an absolute path, or else one in the
user's own folder. -/
def configurations? : IO (Option Path) := do
  let inHome := (← IO.getEnv "HOME").map fun home => (Path.mk home).join ⟨".config"⟩
  match ← IO.getEnv "XDG_CONFIG_HOME" with
  | some s => return if (Path.mk s).isAbsolute then some ⟨s⟩ else inHome
  | none => return inHome

/-- What a run is given here. -/
def session : IO Session := do
  return {
    programs := fun _ _ _ => .error .notFound
    environment := ← environment
    configurations? := ← configurations?
    results := .channel
    help := "Usage: enpaki [OPTIONS] --entry <FILE>\n"
    complaint := fun _ => "error: these arguments cannot be used"
    elapsed := "no time" }

/-- The place of an absolute path. -/
def placeOf (path : String) : Place :=
  (Path.mk path).normalize.parts.filterMap fun part =>
    match part with
    | .name s => some s
    | _ => none

/-- The folder the program is started in, with all files below it. -/
def workspace : IO Workspace := do
  let start ← IO.currentDir
  let below ← start.walkDir
  let tree ← below.foldlM (fun (tree : FileTree) path => do
    let place := placeOf path.toString
    if ← path.isDir then return { tree with folders := place :: tree.folders }
    else
      let bytes ← IO.FS.readBinFile path
      return { tree with files := (place, .bytes bytes.toList) :: tree.files })
    ⟨[], [placeOf start.toString]⟩
  return { tree, start := placeOf start.toString }

/-- The number of pulls after which a run is given up: more than can be made in any time. -/
def limit : Nat := 0x4000000000000000

/-- What a run leaves, written: what it said, and the files that are not what they were. The log shows
warnings. -/
def deliver (before : Workspace) (outcome : Outcome) : IO Unit := do
  let results ← IO.getStdout
  let reports ← IO.getStderr
  results.write ⟨outcome.results.toArray⟩
  results.flush
  (outcome.log.filter (·.level == .warn)).forM fun line =>
    reports.putStrLn ("[WARN  " ++ line.source ++ "] " ++ line.text)
  outcome.complaint.forM reports.putStrLn
  outcome.files.tree.files.forM fun (place, content) => do
    if before.tree.content? place != some content then
      IO.FS.writeBinFile ("/" ++ "/".intercalate place) ⟨content.raw.toArray⟩

end ScriptBundle.Main

/-- **The program.** -/
def main (arguments : List String) : IO UInt32 := do
  let workspace ← ScriptBundle.Main.workspace
  match ScriptBundle.CommandLine.run ScriptBundle.Main.limit (← ScriptBundle.Main.session) workspace
      arguments with
  | none => return 1
  | some outcome =>
    ScriptBundle.Main.deliver workspace outcome
    return UInt32.ofNat outcome.status
