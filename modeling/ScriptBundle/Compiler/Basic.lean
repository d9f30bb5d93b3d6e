import ScriptBundle.Json.Document
import ScriptBundle.Program
import ScriptBundle.Text.Blank

/-! # Compilers

A compiler turns a file into the text of a script. It is chosen by the extension of the file, and
what it does is a function of the files it can see and the path of the file. A program may leave
other files than it found.

* **`Compiler`** — a compiler, with its name and the extensions it is for;
* **`Compiler.source`** — takes the text of the file as it stands;
* **`Compiler.document`** — turns a JSON document into a script that exports it;
* **`Compiler.command`** — takes what a program writes about the file;
* **`Compiler.LeavesFiles`** — says that a compiler leaves the files as they are;
* **`CompileError.message`** — the wording of each way to fail. -/

namespace ScriptBundle

/-- **Why a file cannot be compiled.** -/
inductive CompileError
  /-- The file cannot be read. -/
  | unreadable (path : Path) (cause : AccessError)
  /-- The file holds no JSON document. -/
  | invalidDocument (path : Path)
  /-- The program cannot be started. -/
  | notStarted (program : String) (cause : AccessError)
  /-- The program ended without success. -/
  | failed (program : String) (ending : Ending) (report : String)
  /-- The program wrote something that is not text. -/
  | notText (program : String) (fault : Utf8.Fault)
  /-- The compiler refused the file. -/
  | refused (reason : String)
deriving DecidableEq, Repr

/-- The wording of a fault in `bytes` that should be text. -/
def Utf8.Fault.message (fault : Utf8.Fault) : String :=
  match fault.width with
  | some n =>
    "invalid utf-8 sequence of " ++ toString n ++ " bytes from index " ++ toString fault.index
  | none => "incomplete utf-8 byte sequence from index " ++ toString fault.index

/-- The wording of a compile error. -/
def CompileError.message : CompileError → String
  | unreadable path cause => "can't read '" ++ path.text ++ "': " ++ cause.message
  | invalidDocument path => "'" ++ path.text ++ "' is not a valid JSON document"
  | notStarted program cause => "can't run compiler '" ++ program ++ "': " ++ cause.message
  | failed program ending report =>
    "compiler '" ++ program ++ "' exited with " ++ ending.message ++ ": " ++ report
  | notText program fault =>
    "compiler '" ++ program ++ "' produced non UTF-8 output: " ++ fault.message
  | refused reason => reason

/-- **A compiler.** -/
structure Compiler where
  /-- Its name in messages. -/
  name : String
  /-- The extensions it is for, each with its dot. -/
  extensions : List String
  /-- Whether the references in its results are followed. -/
  emitsReferences : Bool
  /-- The text of a file, or why there is none, and the files behind it. -/
  compile : Workspace → Path → Except CompileError String × Workspace

instance : Inhabited Compiler := ⟨⟨"", [], true, fun w _ => (.ok "", w)⟩⟩

/-- The extensions a host knows by itself, in the order they are tried. -/
def hostExtensions : List String := [".js", ".json"]

/-- The text of a file, for a compiler. -/
def readSource (w : Workspace) (p : Path) : Except CompileError String :=
  match w.readText p with
  | .ok s => .ok s
  | .error cause => .error (.unreadable p cause)

namespace Compiler

/-- **The compiler that takes a file as it stands.** -/
def source : Compiler := ⟨"source", hostExtensions, true, fun w p => (readSource w p, w)⟩

/-- The characters of a document file without a byte order mark and without the blanks around. -/
def documentText (s : String) : List Char :=
  Text.trim (match s.toList with
    | '\uFEFF' :: cs => cs
    | cs => cs)

/-- The script that exports a `document`. -/
def exportScript (document : List Char) : String :=
  "module.exports = " ++ String.ofList document ++ ";"

/-- The script that exports the document a file holds. -/
def readDocument (w : Workspace) (p : Path) : Except CompileError String :=
  match readSource w p with
  | .error e => .error e
  | .ok s =>
    if Json.isDocument (documentText s) then .ok (exportScript (documentText s))
    else .error (.invalidDocument p)

/-- **The compiler of JSON documents.** -/
def document : Compiler where
  name := "json"
  extensions := [".json"]
  emitsReferences := false
  compile w p := (readDocument w p, w)

/-- **What a run of a program gives a compiler**: the text it wrote, if it succeeded. -/
def outputOf (program : String) (run : Finished) : Except CompileError String :=
  if run.ending ≠ .exited 0 then
    .error (.failed program run.ending
      (String.ofList (Text.trim (Utf8.decodeLossy run.reports))))
  else match Utf8.decode run.results with
    | .ok cs => .ok (String.ofList cs)
    | .error fault => .error (.notText program fault)

/-- **The compiler that runs one of some `programs`** with some arguments and the path of the file
behind them. -/
def command (programs : Programs) (extensions : List String) (program : String)
    (arguments : List String) : Compiler where
  name := program
  extensions := extensions
  emitsReferences := true
  compile w p :=
    match programs w program (arguments ++ [p.text]) with
    | .error cause => (.error (.notStarted program cause), w)
    | .ok (run, after) => (outputOf program run, after)

/-- **A `compiler` that leaves the files as they are.** -/
def LeavesFiles (compiler : Compiler) : Prop := ∀ w p, (compiler.compile w p).2 = w

/-- The compiler of scripts, `source`, leaves all files as they are. -/
theorem leavesFiles_source : source.LeavesFiles := fun _ _ => rfl

/-- The compiler of JSON documents, `document`, leaves all files as they are. -/
theorem leavesFiles_document : document.LeavesFiles := fun _ _ => rfl

/-- The compiler `source` gives a file as it reads, and leaves all files as they are. -/
@[simp] theorem compile_source (w : Workspace) (p : Path) :
    source.compile w p = (readSource w p, w) :=
  rfl

end Compiler

end ScriptBundle
