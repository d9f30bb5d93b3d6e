import ScriptBundle.Artifact.Loader
import ScriptBundle.HostModule
import ScriptBundle.Identity
import ScriptBundle.Json.Text
import ScriptBundle.Text.Quoted
import ScriptBundle.Text.Substitute

/-! # Layout of an artifact

An artifact is one script: the loader with its placeholders filled in, a block for each module that
enters a function under the module's identity, and a trailer that runs the entry script and hands
on what it exports.

* **`Artifact.header`** — the loader, the placeholders replaced one after the other by JSON texts;
* **`Artifact.block`** — the block of a module: `Artifact.opening`, its text, `Artifact.closing`;
* **`Artifact.footer`** — the trailer. -/

namespace ScriptBundle

/-- **The fixed parts of an artifact** depend on its `entry` script and on the extensions a request
is tried with. -/
structure Artifact where
  /-- The identity of the entry script. -/
  entry : Identity
  /-- The extensions, in the order they are tried. -/
  extensions : List String
deriving DecidableEq, Repr, Inhabited

namespace Artifact

/-- **The head of an artifact.** -/
def header (a : Artifact) : String :=
  let withEntry := Text.replaceAll Loader.entryMark (Json.quote a.entry.text) Loader.text
  let withHost := Text.replaceAll Loader.hostModulesMark (Json.quoteAll HostModule.names) withEntry
  Text.replaceAll Loader.extensionsMark (Json.quoteAll a.extensions) withHost

/-- An `identity` inside a comment, which it must not end. -/
def commentText (identity : Identity) : String := Text.replaceAll "*/" "*\\/" identity.text

/-- **What opens the block of a module.** -/
def opening (identity : Identity) : String :=
  "\n/** module: " ++ commentText identity ++ " */\n__enpaki_modules[" ++
    Quoted.literal identity.text ++
    "] = function (exports, require, module, __filename, __dirname) \x7b\n"

/-- **What closes the block of a module.** -/
def closing (identity : Identity) : String :=
  "\nreturn module.exports;\n\x7d; /** end module: " ++ commentText identity ++ " */\n"

/-- **The `block` of a module.** -/
def block (identity : Identity) (source : String) : String :=
  opening identity ++ source ++ closing identity

/-- **The end of an artifact.** -/
def footer : String := String.join (List.map (· ++ "\n")
  ["",
    "var __enpaki_result = __enpaki_require(null, __enpaki_entry);",
    "if (typeof module === 'object' && module !== null && typeof module.exports !== 'undefined') \x7b",
    "  module.exports = __enpaki_result;",
    "\x7d",
    "return __enpaki_result;",
    "\x7d());",
    "/** end of bundle */"])

/-- A `block` is its opening, its text and its closing, in this order. -/
theorem toList_block (identity : Identity) (source : String) :
    (block identity source).toList =
      (opening identity).toList ++ source.toList ++ (closing identity).toList := by
  simp [block]

end Artifact

end ScriptBundle
