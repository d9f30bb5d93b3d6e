import ScriptBundle.Toml.Scalar
import ScriptBundle.Toml.Value

/-! # TOML documents

From a text to the table it stands for. A document consists of lines: a header, a key with its
value, or nothing, each with or without a comment. Lists and tables between braces may go over
several lines and may have a comma behind their last item.

* **`Toml.readKey?`** — a dotted key;
* **`Toml.readValue?`** — a value;
* **`Toml.ofText?`** — the table of a document. -/

namespace ScriptBundle.Toml

/-- The characters behind blanks. -/
def skipSpaces (cs : List Char) : List Char := cs.dropWhile isSpace

/-- The characters behind a comment, if there is one; a control character in it is a fault. -/
def skipComment? (cs : List Char) : Option (List Char) :=
  match cs with
  | '#' :: rest =>
    let behind := rest.dropWhile isPrintable
    match behind with
    | [] | '\n' :: _ | '\r' :: '\n' :: _ => some behind
    | _ => none
  | _ => some cs

/-- The characters behind a line end, if there is one. -/
def lineEnd? : List Char → Option (List Char)
  | '\n' :: cs => some cs
  | '\r' :: '\n' :: cs => some cs
  | _ => none

/-- **The characters behind blanks, comments and line ends.** -/
def skipLines? (cs : List Char) : Option (List Char) :=
  match skipComment? (skipSpaces cs) with
  | none => none
  | some rest =>
    match lineEnd? rest with
    | none => some rest
    | some behind => if behind.length < cs.length then skipLines? behind else none
termination_by cs.length

/-! ## Keys -/

/-- A character of a key without quotes. -/
def isKeyChar (c : Char) : Bool := c.isAlphanum || c == '_' || c == '-'

/-- A part of a key: a word, or a text of one line. -/
def readKeyPart? (cs : List Char) : Read String :=
  match cs with
  | [] => none
  | c :: rest =>
    if c = '\x22' ∨ c = '\x27' then
      if [c, c].isPrefixOf rest then none
      else (readLine? c 0 rest).map fun (text, rest) => (String.ofList text, rest)
    else
      let word := cs.takeWhile isKeyChar
      if word.isEmpty then none else some (String.ofList word, cs.drop word.length)

/-- **A dotted key**, and the characters behind it and the blanks that follow it. -/
def readKey? (cs : List Char) : Read (List String) :=
  match readKeyPart? (skipSpaces cs) with
  | none => none
  | some (part, rest) =>
    match skipSpaces rest with
    | '.' :: behind =>
      if behind.length < cs.length then
        (readKey? behind).map fun (parts, rest) => (part :: parts, rest)
      else none
    | rest => some ([part], rest)
termination_by cs.length

/-- The way to the last part of a key, and that part. -/
def splitKey (parts : List String) : List String × String :=
  (parts.dropLast, parts.getLast?.getD "")

/-! ## Values -/

/-- Lists and tables may be nested this deep, and a key may have so many parts. -/
def nestLimit : Nat := 80

mutual

/-- **A value**, given the number of steps that may be made and how deep it is nested. -/
def readValue? (steps depth : Nat) (cs : List Char) : Read Value :=
  match steps with
  | 0 => none
  | steps + 1 =>
    match cs with
    | '[' :: rest =>
      if nestLimit ≤ depth then none
      else (readItems? steps (depth + 1) rest).map fun (items, rest) => (.list false items, rest)
    | '\x7b' :: rest =>
      if nestLimit ≤ depth then none
      else (readEntries? steps (depth + 1) [] rest).map fun (t, rest) => (.table .inline t, rest)
    | '\x22' :: _ | '\x27' :: _ =>
      (readText? cs).map fun (text, rest) => (.text (String.ofList text), rest)
    | _ => (readScalar? cs).map (.scalar, ·)

/-- The `items` of a list up to its closing bracket. -/
def readItems? (steps depth : Nat) (cs : List Char) :
    Option (List Value × List Char) :=
  match steps with
  | 0 => none
  | steps + 1 => do
    match ← skipLines? cs with
    | ']' :: rest => return ([], rest)
    | cs =>
      let (item, rest) ← readValue? steps depth cs
      match ← skipLines? rest with
      | ',' :: rest =>
        let (items, rest) ← readItems? steps depth rest
        return (item :: items, rest)
      | ']' :: rest => return ([item], rest)
      | _ => none

/-- The entries of a table between braces up to the closing one. -/
def readEntries? (steps depth : Nat) (t : Table) (cs : List Char) :
    Option (Table × List Char) :=
  match steps with
  | 0 => none
  | steps + 1 => do
    match ← skipLines? cs with
    | '\x7d' :: rest => return (t, rest)
    | cs =>
      let (parts, rest) ← readKey? cs
      guard (parts.length ≤ nestLimit)
      match rest with
      | '=' :: rest =>
        let (v, rest) ← readValue? steps depth (skipSpaces rest)
        let (path, key) := splitKey parts
        let t ← t.put? path key v .inline
        match ← skipLines? rest with
        | ',' :: rest => readEntries? steps depth t rest
        | '\x7d' :: rest => return (t, rest)
        | _ => none
      | _ => none

end

/-! ## Lines -/

/-- **A document in progress**: its `table`, and the path of the latest header. -/
structure Draft where
  /-- The table. -/
  root : Table
  /-- The path of the latest header. -/
  header : List String
deriving Repr, Inhabited

/-- **One line of a document**, up to its comment: the draft behind it and the characters left. -/
def readEntry? (draft : Draft) (cs : List Char) : Option (Draft × List Char) :=
  match cs with
  | '[' :: '[' :: rest => do
    match ← readKey? rest with
    | (parts, ']' :: ']' :: rest) =>
      let (path, key) := splitKey parts
      return (⟨← draft.root.openItem? path key, parts⟩, rest)
    | _ => none
  | '[' :: rest => do
    match ← readKey? rest with
    | (parts, ']' :: rest) =>
      let (path, key) := splitKey parts
      return (⟨← draft.root.openTable? path key, parts⟩, rest)
    | _ => none
  | cs => do
    match ← readKey? cs with
    | (parts, '=' :: rest) =>
      let rest := skipSpaces rest
      let (v, rest) ← readValue? (rest.length + 1) 0 rest
      let (path, key) := splitKey parts
      return ({ draft with root := ← draft.root.putBelow? draft.header path key v }, rest)
    | _ => none

/-- The lines of a document behind a draft. -/
def readDocument? (draft : Draft) (cs : List Char) : Option Table :=
  match skipLines? cs with
  | none => none
  | some [] => some draft.root
  | some (c :: rest) =>
    match readEntry? draft (c :: rest) with
    | none => none
    | some (draft, behind) =>
      match skipComment? (skipSpaces behind) with
      | none => none
      | some [] => some draft.root
      | some behind =>
        match lineEnd? behind with
        | none => none
        | some behind => if behind.length < cs.length then readDocument? draft behind else none
termination_by cs.length

/-- **The table of a document.** A byte order mark in front of it means nothing. -/
def ofText? (s : String) : Option Table :=
  match s.toList with
  | '\uFEFF' :: cs => readDocument? ⟨[], []⟩ cs
  | cs => readDocument? ⟨[], []⟩ cs

end ScriptBundle.Toml
