import ScriptBundle.Text.Digit

/-! # Texts of JSON documents

What stands between the quotes of a JSON text, and the JSON text of a string.

* **`Json.items?`** — the characters and escapes of a quoted text; a control character, or a
  backslash that starts no escape, makes it none;
* **`Json.decode?`** — the characters the text stands for; an escaped half of a surrogate pair
  stands for none without its other half;
* **`Json.quote`** — the JSON text of a string, and `Json.quoteAll` that of a list of strings. -/

namespace ScriptBundle.Json

/-- **An item of a quoted text**: a character, or a code unit of UTF-16 written with `\u`. -/
inductive Item
  /-- A character, written as itself or with a short escape. -/
  | char (c : Char)
  /-- A code unit, written with four hexadecimal digits. -/
  | unit (n : Nat)
deriving DecidableEq, Repr

/-- The number written with four hexadecimal digits. -/
def hexUnit? (a b c d : Char) : Option Nat := do
  let high := (← Text.hexValue? a) * 16 + (← Text.hexValue? b)
  return (high * 16 + (← Text.hexValue? c)) * 16 + (← Text.hexValue? d)

/-- The character a short escape stands for. -/
def shortEscape? : Char → Option Char
  | '\x22' => some '\x22'
  | '\\' => some '\\'
  | '/' => some '/'
  | 'b' => some '\x08'
  | 'f' => some '\x0c'
  | 'n' => some '\n'
  | 'r' => some '\r'
  | 't' => some '\t'
  | _ => none

/-- **The items of a quoted text.** -/
def items? : List Char → Option (List Item)
  | [] => some []
  | '\\' :: 'u' :: a :: b :: c :: d :: rest => do
    let n ← hexUnit? a b c d
    return .unit n :: (← items? rest)
  | '\\' :: e :: rest => do
    let c ← shortEscape? e
    return .char c :: (← items? rest)
  | ['\\'] => none
  | c :: rest => if c.toNat < 0x20 then none else (items? rest).map (.char c :: ·)

/-- The first half of a surrogate pair. -/
def isLeadingUnit (n : Nat) : Bool := 0xD800 ≤ n && n ≤ 0xDBFF

/-- The second half of a surrogate pair. -/
def isTrailingUnit (n : Nat) : Bool := 0xDC00 ≤ n && n ≤ 0xDFFF

/-- **The characters of a list of items**, surrogate pairs joined. -/
def joinItems? : List Item → Option (List Char)
  | [] => some []
  | .char c :: rest => (joinItems? rest).map (c :: ·)
  | .unit n :: rest =>
    if isTrailingUnit n then none
    else if isLeadingUnit n then
      match rest with
      | .unit m :: rest =>
        if isTrailingUnit m then
          (joinItems? rest).map (Char.ofNat (0x10000 + (n - 0xD800) * 0x400 + (m - 0xDC00)) :: ·)
        else none
      | _ => none
    else (joinItems? rest).map (Char.ofNat n :: ·)

/-- **The characters a quoted text stands for.** -/
def decode? (raw : List Char) : Option (List Char) := (items? raw).bind joinItems?

/-! ## Writing -/

/-- The hexadecimal digit of a number below sixteen. -/
def hexDigit (n : Nat) : Char := if n < 10 then Char.ofNat (48 + n) else Char.ofNat (87 + n)

/-- A character inside quotes: quotes, backslashes and control characters are escaped. -/
def quoteChar (c : Char) : List Char :=
  if c = '\x22' then ['\\', '\x22']
  else if c = '\\' then ['\\', '\\']
  else if c = '\x08' then ['\\', 'b']
  else if c = '\x0c' then ['\\', 'f']
  else if c = '\n' then ['\\', 'n']
  else if c = '\r' then ['\\', 'r']
  else if c = '\t' then ['\\', 't']
  else if c.toNat < 0x20 then
    ['\\', 'u', '0', '0', hexDigit (c.toNat / 16), hexDigit (c.toNat % 16)]
  else [c]

/-- **The JSON text of a string.** -/
def quote (s : String) : String :=
  String.ofList ('\x22' :: s.toList.flatMap quoteChar ++ ['\x22'])

/-- **The JSON text of a list of strings.** -/
def quoteAll (items : List String) : String := "[" ++ ",".intercalate (items.map quote) ++ "]"

end ScriptBundle.Json
