import ScriptBundle.Settings.Basic
import ScriptBundle.Toml.Document

/-! # Settings files

A settings file is a TOML document with four keys: the lists `include` and `exclude`, the policy
`on-unresolved`, and the list `compiler` of records with the keys `extensions`, `command` and
`args`. No other key is taken. A record may also be written as the list of its values.

* **`Settings.ofTable?`** — the layer a document stands for;
* **`Settings.ofText?`** — the layer of a text. -/

namespace ScriptBundle.Settings

open ScriptBundle.Toml

/-- The text a value is. -/
def text? : Value → Option String
  | .text s => some s
  | _ => none

/-- The `items` a value is a list of. -/
def items? : Value → Option (List Value)
  | .list _ items => some items
  | _ => none

/-- The texts a value is a list of. -/
def texts? (v : Value) : Option (List String) := (items? v).bind fun items => items.mapM text?

/-- Whether a value is a list or a `table` of nothing. -/
def isNothing : Value → Bool
  | .list _ [] => true
  | .table _ [] => true
  | _ => false

/-- **The policy a value names**: by a text, or by the only key of a `table` that holds nothing
else. -/
def policy? : Value → Option Policy
  | .text s => Policy.ofName? s
  | .table _ [(key, v)] => if isNothing v then Policy.ofName? key else none
  | _ => none

/-- Whether a table has no key besides some. -/
def hasOnly (known : List String) (t : Table) : Bool := t.all fun entry => known.contains entry.1

/-- **The compiler a value names.** The `arguments` may be left away. -/
def definition? : Value → Option Compiler.Definition
  | .table _ t => do
    guard (hasOnly ["extensions", "command", "args"] t)
    let extensions ← texts? (← t.lookup "extensions")
    let program ← text? (← t.lookup "command")
    let arguments ← match t.lookup "args" with
      | some v => texts? v
      | none => some []
    return ⟨extensions, program, arguments⟩
  | .list _ (extensions :: program :: rest) => do
    let arguments ← match rest with
      | v :: _ => texts? v
      | [] => some []
    return ⟨← texts? extensions, ← text? program, arguments⟩
  | _ => none

/-- The reading of the value of a key that may be missing. -/
def optional {α : Type} (t : Table) (key : String) (missing : α) (read : Value → Option α) :
    Option α :=
  match t.lookup key with
  | some v => read v
  | none => some missing

/-- **The layer a document stands for.** -/
def ofTable? (t : Table) : Option Settings := do
  guard (hasOnly ["include", "exclude", "on-unresolved", "compiler"] t)
  let included ← optional t "include" [] texts?
  let excluded ← optional t "exclude" [] texts?
  let policy ← optional t "on-unresolved" none fun v => (policy? v).map some
  let compilers ← optional t "compiler" [] fun v =>
    (items? v).bind fun items => items.mapM definition?
  return ⟨included, excluded, policy, compilers⟩

/-- **The layer of a text.** -/
def ofText? (s : String) : Option Settings := (Toml.ofText? s).bind ofTable?

end ScriptBundle.Settings
