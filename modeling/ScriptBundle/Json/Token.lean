import ScriptBundle.Json.Numeral
import ScriptBundle.Json.Text

/-! # Tokens of JSON documents

A document is cut into tokens from left to right: brackets, commas and colons, texts, and words.
A word is a maximal run of letters, digits, signs and points; it is `true`, `false`, `null` or a
numeral. A text is kept as it is written between its quotes, so that a reader can decide how much
of it to read.

* **`Json.tokens?`** — the tokens of a document, if it consists of tokens and blanks;
* **`Token.isSound`** — what a reader of values asks of a token beyond its form. -/

namespace ScriptBundle.Json

/-- **A bracket**, of a list or of a record. -/
inductive Bracket
  /-- Square brackets. -/
  | list
  /-- Braces. -/
  | record
deriving DecidableEq, Repr

/-- **A token.** -/
inductive Token
  /-- An opening bracket. -/
  | opening (b : Bracket)
  /-- A closing bracket. -/
  | closing (b : Bracket)
  /-- A comma. -/
  | comma
  /-- A colon. -/
  | colon
  /-- A text, as it stands between its quotes. -/
  | text (raw : List Char)
  /-- A number. -/
  | number (numeral : Numeral)
  /-- `null`. -/
  | null
  /-- `true` or `false`. -/
  | truth (value : Bool)
deriving DecidableEq, Repr

/-- The blanks between tokens. -/
def isGap (c : Char) : Bool := c == ' ' || c == '\n' || c == '\t' || c == '\r'

/-- The characters words are made of. -/
def isWordPart (c : Char) : Bool := c.isAlphanum || c == '+' || c == '-' || c == '.'

/-- The token a word is. -/
def ofWord? (word : List Char) : Option Token :=
  if word = ['n', 'u', 'l', 'l'] then some .null
  else if word = ['t', 'r', 'u', 'e'] then some (.truth true)
  else if word = ['f', 'a', 'l', 's', 'e'] then some (.truth false)
  else (Numeral.ofWord? word).map .number

/-- The token a single character is. -/
def ofMark? : Char → Option Token
  | '[' => some (.opening .list)
  | ']' => some (.closing .list)
  | '\x7b' => some (.opening .record)
  | '\x7d' => some (.closing .record)
  | ',' => some .comma
  | ':' => some .colon
  | _ => none

/-- **Where the cutting stands.** -/
inductive Cut
  /-- Between tokens. -/
  | between
  /-- Inside a word whose token has been given. -/
  | word
  /-- Inside a text: what has been read of it, reversed, and whether a backslash came last. -/
  | text (read : List Char) (escaped : Bool)
deriving DecidableEq, Repr

/-- One character between tokens, with those behind it: the token that starts there, if one does,
and where the cutting stands then. -/
def Cut.enter (c : Char) (rest : List Char) : Option (Option Token × Cut) :=
  if isGap c then some (none, .between)
  else if c = '\x22' then some (none, .text [] false)
  else if isWordPart c then
    (ofWord? (c :: rest.takeWhile isWordPart)).map fun token => (some token, .word)
  else (ofMark? c).map fun token => (some token, .between)

/-- One character further. -/
def Cut.step (cut : Cut) (c : Char) (rest : List Char) : Option (Option Token × Cut) :=
  match cut with
  | .between => enter c rest
  | .word => if isWordPart c then some (none, .word) else enter c rest
  | .text read escaped =>
    if escaped then some (none, .text (c :: read) false)
    else if c = '\x22' then
      let raw := read.reverse
      if (items? raw).isSome then some (some (.text raw), .between) else none
    else some (none, .text (c :: read) (c = '\\'))

/-- The tokens from where the cutting stands. -/
def tokensFrom (cut : Cut) : List Char → Option (List Token)
  | [] =>
    match cut with
    | .text _ _ => none
    | _ => some []
  | c :: rest =>
    match cut.step c rest with
    | none => none
    | some (none, cut) => tokensFrom cut rest
    | some (some token, cut) => (tokensFrom cut rest).map (token :: ·)

/-- **The tokens of a document.** -/
def tokens? (cs : List Char) : Option (List Token) := tokensFrom .between cs

/-- **A sound token** has a value: its text can be decoded, its number is finite. -/
def Token.isSound : Token → Bool
  | text raw => (decode? raw).isSome
  | number numeral => numeral.inRange
  | _ => true

end ScriptBundle.Json
