import ScriptBundle.Text.Digit

/-! # Texts of TOML documents

The four ways to write a text: between double quotes, where a backslash starts an escape; between
single quotes, where every character stands for itself; and each of the two between three quotes,
where lines may end. Control characters other than the tab stand in none of them.

* **`Toml.readText?`** — the text in front of some characters, and the characters behind it. -/

namespace ScriptBundle.Toml

/-- **A result and the characters behind it**, if there is one. -/
abbrev Read (α : Type) := Option (α × List Char)

/-- A character that may stand in a text or in a comment as itself. -/
def isPrintable (c : Char) : Bool := c == '\t' || (0x20 ≤ c.toNat && c.toNat ≠ 0x7F)

/-- A blank inside a line. -/
def isSpace (c : Char) : Bool := c == ' ' || c == '\t'

/-- The character whose code is written with hexadecimal digits, as many as given. -/
def hexChar? (count : Nat) (cs : List Char) : Option Char := do
  let digits := cs.take count
  guard (digits.length = count)
  let code ← digits.foldlM (fun n c => (Text.hexValue? c).map (n * 16 + ·)) 0
  guard (code < 0xD800 ∨ (0xDFFF < code ∧ code < 0x110000))
  return Char.ofNat code

/-- **The character an escape stands for**, behind its backslash, and the number of characters it
takes. -/
def escape? : List Char → Option (Char × Nat)
  | 'b' :: _ => some ('\x08', 1)
  | 't' :: _ => some ('\t', 1)
  | 'n' :: _ => some ('\n', 1)
  | 'f' :: _ => some ('\x0c', 1)
  | 'r' :: _ => some ('\r', 1)
  | 'e' :: _ => some ('\x1b', 1)
  | '\x22' :: _ => some ('\x22', 1)
  | '\\' :: _ => some ('\\', 1)
  | 'x' :: cs => (hexChar? 2 cs).map (·, 3)
  | 'u' :: cs => (hexChar? 4 cs).map (·, 5)
  | 'U' :: cs => (hexChar? 8 cs).map (·, 9)
  | _ => none

/-- A character in front of a text that was read. -/
def prepend (c : Char) (read : Read (List Char)) : Read (List Char) :=
  read.map fun (text, rest) => (c :: text, rest)

/-- **A text of one line** behind its opening quote, given how many of its characters have been
taken. Escapes are read between double quotes only. -/
def readLine? (mark : Char) : Nat → List Char → Read (List Char)
  | _, [] => none
  | skipped + 1, _ :: cs => readLine? mark skipped cs
  | 0, c :: cs =>
    if c = mark then some ([], cs)
    else if c = '\\' ∧ mark = '\x22' then
      match escape? cs with
      | some (escaped, taken) => prepend escaped (readLine? mark taken cs)
      | none => none
    else if isPrintable c then prepend c (readLine? mark 0 cs)
    else none

/-- The number of blanks and line ends in front of a text, in characters. -/
def blankRun : List Char → Nat
  | '\r' :: '\n' :: cs => blankRun cs + 2
  | c :: cs => if isSpace c || c == '\n' then blankRun cs + 1 else 0
  | [] => 0

/-- The number of characters of a line that is continued: blanks, the line end, and all blanks and
line ends behind it; none if the line is not continued. -/
def continuation? (cs : List Char) : Option Nat :=
  match cs.dropWhile isSpace with
  | '\n' :: _ => some (blankRun cs)
  | '\r' :: '\n' :: _ => some (blankRun cs)
  | _ => none

/-- **A text of several lines** behind its opening quotes, given how many of its characters have
been taken. One or two quotes in front of the closing ones belong to it. -/
def readLines? (mark : Char) : Nat → List Char → Read (List Char)
  | _, [] => none
  | skipped + 1, _ :: cs => readLines? mark skipped cs
  | 0, c :: cs =>
    if [mark, mark, mark].isPrefixOf (c :: cs) then
      let further := ((cs.drop 2).take 2).takeWhile (· = mark)
      some (further, cs.drop (2 + further.length))
    else if c = '\\' ∧ mark = '\x22' then
      match continuation? cs with
      | some taken => readLines? mark taken cs
      | none =>
        match escape? cs with
        | some (escaped, taken) => prepend escaped (readLines? mark taken cs)
        | none => none
    else if c = '\n' ∨ (c = '\r' ∧ cs.head? = some '\n') ∨ isPrintable c = true then
      prepend c (readLines? mark 0 cs)
    else none

/-- The text behind a line end that stands directly behind the opening quotes. -/
def skipFirstLineEnd : List Char → List Char
  | '\n' :: cs => cs
  | '\r' :: '\n' :: cs => cs
  | cs => cs

/-- **The text in front of some characters**, and the characters behind it. -/
def readText? : List Char → Read (List Char)
  | [] => none
  | mark :: cs =>
    if mark ≠ '\x22' ∧ mark ≠ '\x27' then none
    else if [mark, mark].isPrefixOf cs then readLines? mark 0 (skipFirstLineEnd (cs.drop 2))
    else readLine? mark 0 cs

end ScriptBundle.Toml
