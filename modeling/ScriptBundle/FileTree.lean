import ScriptBundle.Path.Basic
import ScriptBundle.Text.Utf8

/-! # File trees

The files a run can see: a finite tree of folders and regular files under one root, as a value.
A path is followed through it piece by piece, as a system without symbolic links does: each piece
but the last has to lead to a folder, and so does the last one when a slash follows it.

* **`FileTree.find`** — where a path leads, or why it leads nowhere;
* **`FileTree.target`** — the place of a file that is written to, or why it cannot be;
* **`FileTree.put`** — the tree with a file's content set;
* **`FileTree.overwrite`** — the tree with some bytes of a file set;
* **`AccessError.message`** — the wording of each way to fail. -/

namespace ScriptBundle

/-- **What a file or a variable holds**: a text, or `bytes` that need not be one. -/
inductive Content
  /-- The bytes of a text. -/
  | text (s : String)
  /-- Any bytes. -/
  | bytes (raw : List UInt8)
deriving DecidableEq, Repr, Inhabited

/-- The `bytes` that are held. -/
def Content.raw : Content → List UInt8
  | text s => Utf8.encode s.toList
  | bytes raw => raw

/-- **The text that is held**, if the `bytes` are one. -/
def Content.text? : Content → Option String
  | text s => some s
  | bytes raw =>
    match Utf8.decode raw with
    | .ok cs => some (String.ofList cs)
    | .error _ => none

/-- **Why a file cannot be used.** -/
inductive AccessError
  /-- Some name on the way does not exist. -/
  | notFound
  /-- The path goes on behind a regular file. -/
  | notFolder
  /-- A folder stands where a regular file is needed. -/
  | isFolder
  /-- A name or the whole path is longer than the system allows. -/
  | nameTooLong
  /-- The file may not be run or changed. -/
  | denied
  /-- The file does not hold text. -/
  | notText
  /-- The path holds a NUL character. -/
  | nulInPath
  /-- An argument of a program holds a NUL character. -/
  | nulInArgument
  /-- An empty path has no absolute form. -/
  | emptyPath
deriving DecidableEq, Repr

/-- The wording of an access error. -/
def AccessError.message : AccessError → String
  | notFound => "No such file or directory (os error 2)"
  | notFolder => "Not a directory (os error 20)"
  | isFolder => "Is a directory (os error 21)"
  | nameTooLong => "File name too long (os error 36)"
  | denied => "Permission denied (os error 13)"
  | notText => "stream did not contain valid UTF-8"
  | nulInPath => "file name contained an unexpected NUL byte"
  | nulInArgument => "nul byte found in provided data"
  | emptyPath => "cannot make an empty path absolute"

/-- **A place in a tree**: the names that lead to it from the root. -/
abbrev Place := List String

/-- **A file tree**: its regular files, and the folders that exist beside those the files are in. -/
structure FileTree where
  /-- The regular files, each with its place. -/
  files : List (Place × Content)
  /-- Folders that exist whether or not they hold a file. -/
  folders : List Place
deriving Repr, Inhabited

/-- **What a path leads to.** -/
inductive Spot
  /-- A regular file. -/
  | file (place : Place) (content : Content)
  /-- A folder. -/
  | folder (place : Place)
deriving DecidableEq, Repr

namespace FileTree

/-- The content of the regular file at a `place`. -/
def content? (tree : FileTree) (place : Place) : Option Content := tree.files.lookup place

/-- A folder exists when it is the root, holds a file or a folder, or is listed. -/
def hasFolder (tree : FileTree) (place : Place) : Bool :=
  place.isEmpty || tree.folders.any (fun folder => place.isPrefixOf folder) ||
    tree.files.any (fun file => place.isPrefixOf file.1 && place.length < file.1.length)

/-- **One piece further along a path.** -/
def step (tree : FileTree) (spot : Spot) (piece : List Char) : Except AccessError Spot :=
  match spot with
  | .file _ _ => .error .notFolder
  | .folder place =>
    match Part.ofPiece? piece with
    | some (.name s) =>
      let inner := place ++ [s]
      if 255 < s.utf8ByteSize then .error .nameTooLong
      else match tree.content? inner with
        | some content => .ok (.file inner content)
        | none => if tree.hasFolder inner then .ok (.folder inner) else .error .notFound
    | some .up => .ok (.folder place.dropLast)
    | _ => .ok (.folder place)

/-- **Where a path leads** from a folder of the `tree`, or why it leads nowhere. -/
def find (tree : FileTree) (start : Place) (p : Path) : Except AccessError Spot :=
  if p.chars.contains '\x00' then .error .nulInPath
  else if p.text = "" then .error .notFound
  else if 4095 < p.text.utf8ByteSize then .error .nameTooLong
  else p.pieces.foldlM tree.step (.folder (if p.isAbsolute then [] else start))

/-- **The `place` of a file that is written to**, whether or not it exists. Its folder has to. -/
def target (tree : FileTree) (start : Place) (p : Path) : Except AccessError Place :=
  if p.chars.contains '\x00' then .error .nulInPath
  else if p.text = "" then .error .notFound
  else if 4095 < p.text.utf8ByteSize then .error .nameTooLong
  else
    let named := p.pieces.reverse.dropWhile List.isEmpty
    let folder : Spot := .folder (if p.isAbsolute then [] else start)
    match named.tail.reverse.foldlM tree.step folder with
    | .error e => .error e
    | .ok (.file _ _) => .error .notFolder
    | .ok (.folder place) =>
      match named.head?.bind Part.ofPiece? with
      | some (.name s) =>
        if p.pieces.getLast? = some [] then .error .isFolder
        else if 255 < s.utf8ByteSize then .error .nameTooLong
        else if (tree.content? (place ++ [s])).isNone && tree.hasFolder (place ++ [s]) then
          .error .isFolder
        else .ok (place ++ [s])
      | _ => .error .isFolder

/-- **The `tree` with a file's content set**, the file being added if it does not exist. -/
def put (tree : FileTree) (place : Place) (content : Content) : FileTree :=
  if tree.files.any (·.1 == place) then
    { tree with
      files := tree.files.map fun file => if file.1 == place then (place, content) else file }
  else { tree with files := tree.files ++ [(place, content)] }

/-- The bytes of a file with some of them set from an offset on; a gap in front of them is filled
with zeros. No byte changes nothing. -/
def overwritten (raw : List UInt8) (offset : Nat) (piece : List UInt8) : List UInt8 :=
  if piece.isEmpty then raw
  else raw.take offset ++ List.replicate (offset - raw.length) 0 ++ piece ++
    raw.drop (offset + piece.length)

/-- **The `tree` with some bytes of a file set** from an offset on. A file that is gone stays so. -/
def overwrite (tree : FileTree) (place : Place) (offset : Nat) (piece : List UInt8) : FileTree :=
  match tree.content? place with
  | some content => tree.put place (.bytes (overwritten content.raw offset piece))
  | none => tree

/-- **Bytes set behind some others** replace as many of those that follow. -/
theorem overwritten_append_length (front behind piece : List UInt8) :
    overwritten (front ++ behind) front.length piece = front ++ piece ++ behind.drop piece.length := by
  cases piece <;> simp [overwritten, List.drop_append]

end FileTree

end ScriptBundle
