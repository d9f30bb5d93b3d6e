import ScriptBundle.Compiler.Basic

/-! # Compiler definitions

A program is named as the compiler of some extensions by one line: the extensions with commas
between them, an equals sign, the program and its arguments with blanks between them. Blanks around
an extension and empty items between commas mean nothing.

* **`Compiler.Definition`** — the extensions, the program and its arguments;
* **`Compiler.Definition.ofText`** — the definition a line gives, or what it lacks;
* **`Compiler.Definition.render`** — the line of a definition. -/

namespace ScriptBundle.Compiler

/-- **A compiler by its program.** -/
structure Definition where
  /-- The extensions it is for. -/
  extensions : List String
  /-- The program. -/
  program : String
  /-- The arguments in front of the path. -/
  arguments : List String
deriving DecidableEq, Repr, Inhabited

/-- **What a definition lacks.** -/
inductive DefinitionError
  /-- The equals sign. -/
  | noSign (line : String)
  /-- The program. -/
  | noProgram (line : String)
deriving DecidableEq, Repr

/-- The wording of what a definition lacks. -/
def DefinitionError.message : DefinitionError → String
  | noSign line => "compiler definition '" ++ line ++ "' must look like '.ext=program [args...]'"
  | noProgram line => "compiler definition '" ++ line ++ "' does not name a program"

/-- The `items` of a list that is written with commas, without blanks around them and without empty
ones. -/
def items (cs : List Char) : List (List Char) :=
  ((cs.splitOn ',').map Text.trim).filter (fun item => !item.isEmpty)

namespace Definition

/-- The compiler a definition names, among the `programs` there are. -/
def toCompiler (programs : Programs) (d : Definition) : Compiler :=
  command programs d.extensions d.program d.arguments

/-- **The definition a `line` gives.** The first equals sign ends the extensions. -/
def ofText (line : String) : Except DefinitionError Definition :=
  let front := line.toList.takeWhile (· ≠ '=')
  match line.toList.dropWhile (· ≠ '=') with
  | [] => .error (.noSign line)
  | _ :: behind =>
    match Text.words behind with
    | [] => .error (.noProgram line)
    | program :: arguments =>
      .ok ⟨(items front).map String.ofList, String.ofList program, arguments.map String.ofList⟩

/-- **The line of a definition.** -/
def render (d : Definition) : String :=
  ",".intercalate d.extensions ++ "=" ++ " ".intercalate (d.program :: d.arguments)

/-- A `line` without an equals sign is no definition. -/
theorem ofText_of_notMem {line : String} (h : '=' ∉ line.toList) :
    ofText line = .error (.noSign line) := by
  have other : ∀ c ∈ line.toList, (decide (c ≠ '=')) = true := fun c hc => by
    simpa using fun e : c = '=' => h (e ▸ hc)
  have none_left : line.toList.dropWhile (· ≠ '=') = [] := by
    rw [← List.append_nil line.toList, List.dropWhile_append_of_pos other]
    rfl
  unfold ofText
  rw [none_left]

end Definition

end ScriptBundle.Compiler
