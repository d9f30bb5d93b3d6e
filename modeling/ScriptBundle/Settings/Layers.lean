import ScriptBundle.Settings.File

/-! # Layers of settings

Where settings come from: the file of the user, the file of the project, a file that is named, and
the environment, each on top of those before. The files of the user and of the project need not
exist. Which folder is the user's for configurations is told from outside.

* **`Environment.text?`** — the value of a variable, as far as it is asked for;
* **`Settings.ofFile`** — the layer of a file;
* **`Settings.withEnvironment`** — the layer with what the environment sets;
* **`Settings.load`** — all layers together, or why one of them cannot be used. -/

namespace ScriptBundle

/-- **An environment**: variables with their values, which may be any bytes. -/
abbrev Environment := List (String × Content)

/-- **The text of a variable**. A variable that is not set has none, and neither has one whose value is
no text. -/
def Environment.text? (env : Environment) (name : String) : Option String :=
  (env.lookup name).bind Content.text?

/-- **Why a layer cannot be used.** -/
inductive SettingsError
  /-- The file cannot be read. -/
  | unreadable (path : Path) (cause : AccessError)
  /-- The file is no settings file. -/
  | invalid (path : Path)
  /-- The environment names no policy. -/
  | environment (cause : PolicyError)
deriving DecidableEq, Repr

namespace SettingsError

/-- The wording of a settings error by itself. -/
def message : SettingsError → String
  | unreadable path _ => "can't read configuration file '" ++ path.text ++ "'"
  | invalid path => "invalid configuration file '" ++ path.text ++ "'"
  | environment _ => "invalid ENPAKI_ON_UNRESOLVED environment variable"

/-- The wording of a settings error and its cause. -/
def chain (e : SettingsError) : String :=
  match e with
  | unreadable _ cause => e.message ++ ": " ++ cause.message
  | invalid _ => e.message
  | environment cause => e.message ++ ": " ++ cause.message

end SettingsError

namespace Settings

/-! ## Files -/

/-- The name of a settings file. -/
def fileName : String := "enpaki.toml"

/-- **The file of the user**, in a folder of its own below the user's folder for configurations, if
there is such a folder. -/
def userFile? (configurations? : Option Path) : Option Path :=
  configurations?.map fun folder => (folder.join ⟨"enpaki"⟩).join ⟨fileName⟩

/-- **The file of the project**, in the folder the run starts in. -/
def projectFile (w : Workspace) : Path := w.startPath.join ⟨fileName⟩

/-- **The layer of a file.** -/
def ofFile (w : Workspace) (path : Path) : Except SettingsError Settings :=
  match w.readText path with
  | .error cause => .error (.unreadable path cause)
  | .ok text =>
    match ofText? text with
    | some s => .ok s
    | none => .error (.invalid path)

/-- The layer with those of some files on top. -/
def withFiles (w : Workspace) (s : Settings) : List Path → Except SettingsError Settings
  | [] => .ok s
  | path :: rest =>
    match ofFile w path with
    | .ok layer => withFiles w (s.merge layer) rest
    | .error e => .error e

/-! ## Environment -/

/-- The `items` of a list that is written with commas. -/
def splitList (s : String) : List String := (Compiler.items s.toList).map String.ofList

/-- The items of a variable; none if it has no text. -/
def listOf (env : Environment) (name : String) : List String :=
  ((env.text? name).map splitList).getD []

/-- **The layer with what the environment sets**, and the error of a `policy` that is none, which
leaves the lists set. -/
def withEnvironment (s : Settings) (env : Environment) : Settings × Option PolicyError :=
  let lists := s.merge ⟨listOf env "ENPAKI_INCLUDE", listOf env "ENPAKI_EXCLUDE", none, []⟩
  match (env.text? "ENPAKI_ON_UNRESOLVED").map Policy.ofText with
  | none => (lists, none)
  | some (.ok policy) => ({ lists with policy := some policy }, none)
  | some (.error e) => (lists, some e)

/-- **All layers together**: the files of the user and of the project where they are regular files,
the named file, and the `environment`. -/
def load (w : Workspace) (configurations? : Option Path) (env : Environment)
    (explicit : Option Path) : Except SettingsError Settings :=
  let found := ((userFile? configurations?).toList ++ [projectFile w]).filter w.isFile
  match withFiles w empty (found ++ explicit.toList) with
  | .error e => .error e
  | .ok s =>
    match s.withEnvironment env with
    | (s, none) => .ok s
    | (_, some cause) => .error (.environment cause)

/-- An environment without variables changes nothing. -/
@[simp] theorem withEnvironment_nil (s : Settings) : s.withEnvironment [] = (s, none) := by
  simp [withEnvironment, listOf, Environment.text?, merge]

end Settings

end ScriptBundle
