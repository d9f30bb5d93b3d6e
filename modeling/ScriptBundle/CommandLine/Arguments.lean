import ScriptBundle.Policy

/-! # Arguments

What a command line asks for. A flag stands alone, by its letter behind one dash, where letters may
be run together, or by its name behind two. A setting is followed by its value: attached to the
letter, behind an equals sign, or as the next argument. The list settings take all arguments up to
the next one that starts with a dash; an attached value is a single one.

* **`Arguments`** — what a bundle is asked for;
* **`Request`** — a bundle, the help text, or the version;
* **`Request.ofList?`** — the request of a command line; none if it is not well formed. -/

namespace ScriptBundle

/-- **What a bundle is asked for.** -/
structure Arguments where
  /-- The entry script. -/
  entry : String
  /-- The file to write to. -/
  output : Option String
  /-- Specifiers packed even if no reference leads to them. -/
  included : List String
  /-- Specifiers left to the host. -/
  excluded : List String
  /-- Compilers, each as a line. -/
  definitions : List String
  /-- A settings file. -/
  settingsFile : Option String
  /-- What is done about references without a target. -/
  policy : Option Policy
  /-- How often more reports were asked for. -/
  verbosity : Nat
deriving DecidableEq, Repr, Inhabited

/-- **What a command line asks for.** -/
inductive Request
  /-- A bundle. -/
  | bundle (a : Arguments)
  /-- The help text. -/
  | help
  /-- The version. -/
  | version
deriving DecidableEq, Repr

namespace CommandLine

/-- **A setting that takes values.** -/
inductive Setting
  /-- The entry script. -/
  | entry
  /-- The file to write to. -/
  | output
  /-- Specifiers packed even if no reference leads to them. -/
  | included
  /-- Specifiers left to the host. -/
  | excluded
  /-- Compilers. -/
  | compiler
  /-- A settings file. -/
  | settingsFile
  /-- What is done about references without a target. -/
  | policy
deriving DecidableEq, Repr

/-- **What an argument can name.** -/
inductive Name
  /-- A setting. -/
  | setting (s : Setting)
  /-- More reports. -/
  | verbose
  /-- The help text. -/
  | help
  /-- The version. -/
  | version
deriving DecidableEq, Repr

/-- What stands behind two dashes. -/
def Name.ofWord? : String → Option Name
  | "entry" => some (.setting .entry)
  | "output" => some (.setting .output)
  | "include" => some (.setting .included)
  | "exclude" => some (.setting .excluded)
  | "compiler" => some (.setting .compiler)
  | "config" => some (.setting .settingsFile)
  | "on-unresolved" => some (.setting .policy)
  | "verbose" => some .verbose
  | "help" => some .help
  | "version" => some .version
  | _ => none

/-- What stands behind one dash. -/
def Name.ofLetter? : Char → Option Name
  | 'e' => some (.setting .entry)
  | 'o' => some (.setting .output)
  | 'i' => some (.setting .included)
  | 'x' => some (.setting .excluded)
  | 'c' => some (.setting .compiler)
  | 'v' => some .verbose
  | 'h' => some .help
  | 'V' => some .version
  | _ => none

/-- Whether a setting takes several values. -/
def Setting.isList : Setting → Bool
  | included | excluded | compiler => true
  | _ => false

/-- **What was read so far**: the values of the settings, and the setting whose values are being
read. -/
structure Reading where
  /-- The settings with their values, in the order they were given. -/
  given : List (Setting × List String)
  /-- How often more reports were asked for. -/
  verbosity : Nat
  /-- The setting whose values are being read, with those there are. -/
  pending : Option (Setting × List String)
  /-- Whether the pending setting takes one more value. -/
  isOpen : Bool
deriving DecidableEq, Repr

namespace Reading

/-- Nothing was read. -/
def start : Reading := ⟨[], 0, none, false⟩

/-- Whether a value fits a setting: no path is empty, and a `policy` has a name. -/
def fits (setting : Setting) (value : String) : Bool :=
  match setting with
  | .entry | .output | .settingsFile => value ≠ ""
  | .policy => (Policy.ofName? value).isSome
  | _ => true

/-- **A setting given.** One that takes a single value is given once. -/
def give? (r : Reading) (setting : Setting) (values : List String) : Option Reading :=
  if values.isEmpty || !values.all (fits setting) then none
  else if !setting.isList && r.given.any (·.1 == setting) then none
  else some { r with given := r.given ++ [(setting, values)] }

/-- **The pending setting given**, if there is one. -/
def settle? (r : Reading) : Option Reading :=
  match r.pending with
  | none => some r
  | some (setting, values) => ({ r with pending := none, isOpen := false }).give? setting values

/-- **One more value.** -/
def value? (r : Reading) (value : String) : Option Reading :=
  match r.pending with
  | some (setting, values) =>
    if r.isOpen then
      some { r with pending := some (setting, values ++ [value]), isOpen := setting.isList }
    else none
  | none => none

/-- The values of a setting. -/
def valuesOf (r : Reading) (setting : Setting) : List String :=
  (r.given.filter (·.1 == setting)).flatMap (·.2)

/-- **The arguments that were read**; the `entry` script is needed. -/
def arguments? (r : Reading) : Option Arguments := do
  let entry ← (r.valuesOf .entry).head?
  return {
    entry
    output := (r.valuesOf .output).head?
    included := r.valuesOf .included
    excluded := r.valuesOf .excluded
    definitions := r.valuesOf .compiler
    settingsFile := (r.valuesOf .settingsFile).head?
    policy := (r.valuesOf .policy).head?.bind Policy.ofName?
    verbosity := r.verbosity }

end Reading

/-- **How reading goes on**: further, or to an end that asks for a text. -/
inductive Step
  /-- Reading goes on. -/
  | further (r : Reading)
  /-- A text is asked for. -/
  | ended (request : Request)
deriving DecidableEq, Repr

/-- **A named argument**, with the value attached to it, if there is one. -/
def named? (r : Reading) (name : Name) (attached : Option String) : Option Step := do
  let r ← r.settle?
  match name, attached with
  | .setting setting, some value => return .further (← r.give? setting [value])
  | .setting setting, none =>
    return .further { r with pending := some (setting, []), isOpen := true }
  | .verbose, none => return .further { r with verbosity := r.verbosity + 1 }
  | .help, none => return .ended .help
  | .version, none => return .ended .version
  | _, some _ => none

/-- **Letters behind one dash.** What follows the letter of a setting is its value, an equals sign
in between aside. -/
def letters? (r : Reading) : List Char → Option Step
  | [] => some (.further r)
  | c :: cs =>
    match Name.ofLetter? c with
    | none => none
    | some (.setting setting) =>
      match cs with
      | [] => named? r (.setting setting) none
      | '=' :: value => named? r (.setting setting) (some (String.ofList value))
      | value => named? r (.setting setting) (some (String.ofList value))
    | some name =>
      match named? r name none with
      | some (.further r) => letters? r cs
      | result => result

/-- **A name behind two dashes**, with or without an equals sign and a value. -/
def word? (r : Reading) (cs : List Char) : Option Step := do
  let word := cs.takeWhile (· ≠ '=')
  let name ← Name.ofWord? (String.ofList word)
  match cs.drop word.length with
  | [] => named? r name none
  | _ :: value => named? r name (some (String.ofList value))

/-- **The request of what was read**, if that is all. -/
def Reading.request? (r : Reading) : Option Request := do
  return .bundle (← (← r.settle?).arguments?)

/-- **The request of what was read and of the arguments behind it.** Behind two dashes that stand
alone no argument is taken. -/
def request? (r : Reading) : List String → Option Request
  | [] => r.request?
  | argument :: rest =>
    match argument.toList with
    | ['-', '-'] => if rest.isEmpty then r.request? else none
    | '-' :: '-' :: cs =>
      match word? r cs with
      | some (.further r) => request? r rest
      | some (.ended request) => some request
      | none => none
    | '-' :: c :: cs =>
      match letters? r (c :: cs) with
      | some (.further r) => request? r rest
      | some (.ended request) => some request
      | none => none
    | _ =>
      match r.value? argument with
      | some r => request? r rest
      | none => none

end CommandLine

/-- **The request of a command line.** -/
def Request.ofList? (arguments : List String) : Option Request :=
  CommandLine.request? .start arguments

end ScriptBundle
