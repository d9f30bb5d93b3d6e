import ScriptBundle.Toml.Text

/-! # Scalars of TOML documents

Which words are numbers, truth values, dates or times. What they stand for is not asked, and so it
is not asked whether a number is too large.

* **`isNumber`, `isFloat`, `isMoment`** — kinds of scalars;
* **`isScalar`** — whether a word is one;
* **`readScalar?`** — the characters behind a scalar in front of some characters. -/

namespace ScriptBundle.Toml

/-- A decimal or hexadecimal digit. -/
def isAnyDigit (c : Char) : Bool := (Text.hexValue? c).isSome

/-- **Whether underscores divide a word between digits.** What else stands in the word is not
asked. -/
def isDivided (isDigit : Char → Bool) (cs : List Char) : Bool :=
  match cs.splitOn '_' with
  | [_] => true
  | groups =>
    groups.all (!·.isEmpty) &&
      groups.tail.all (fun group => group.head?.any isDigit) &&
      groups.dropLast.all (fun group => group.getLast?.any isDigit)

/-- The characters behind digits and underscores, of which at least one is a digit; more than one
digit may have to start with another than zero. -/
def behindDigits? (zeroFirst : Bool) (cs : List Char) : Option (List Char) :=
  let run := cs.takeWhile fun c => c.isDigit || c == '_'
  let count := run.countP Char.isDigit
  if count = 0 ∨ (1 < count ∧ !zeroFirst ∧ run.head? = some '0') then none
  else some (cs.drop run.length)

/-- **Whether an unsigned word is a number with a point or an exponent.** -/
def isFloat (cs : List Char) : Bool :=
  let behindSign : List Char → List Char
    | '+' :: cs => cs
    | '-' :: cs => cs
    | cs => cs
  let behindFraction? : List Char → Option (List Char)
    | '.' :: cs => behindDigits? true cs
    | cs => some cs
  let behindExponent? : List Char → Option (List Char)
    | 'e' :: cs => behindDigits? true (behindSign cs)
    | 'E' :: cs => behindDigits? true (behindSign cs)
    | cs => some cs
  ((behindDigits? false cs).bind behindFraction?).bind behindExponent? == some []

/-! ## Dates and times -/

/-- The value of a number of digits, if a text starts with so many, and the text behind them. -/
def number? (count : Nat) (cs : List Char) : Read Nat :=
  let ds := cs.take count
  if ds.length = count ∧ ds.all Char.isDigit then
    some (ds.foldl (fun n d => n * 10 + (d.toNat - '0'.toNat)) 0, cs.drop count)
  else none

/-- The text behind a character it starts with. -/
def behind? (c : Char) : List Char → Option (List Char)
  | [] => none
  | d :: cs => if c = d then some cs else none

/-- The number of days of a month. -/
def daysOf (year month : Nat) : Nat :=
  if month = 2 then
    if year % 4 = 0 ∧ (year % 100 ≠ 0 ∨ year % 400 = 0) then 29 else 28
  else if month = 4 ∨ month = 6 ∨ month = 9 ∨ month = 11 then 30
  else 31

/-- The text behind a date. -/
def behindDate? (cs : List Char) : Option (List Char) := do
  let (year, cs) ← number? 4 cs
  let (month, cs) ← number? 2 (← behind? '-' cs)
  let (day, cs) ← number? 2 (← behind? '-' cs)
  guard (1 ≤ month ∧ month ≤ 12 ∧ 1 ≤ day ∧ day ≤ daysOf year month)
  return cs

/-- The text behind a time; its seconds may be left away. -/
def behindTime? (cs : List Char) : Option (List Char) := do
  let (hour, cs) ← number? 2 cs
  let (minute, cs) ← number? 2 (← behind? ':' cs)
  guard (hour ≤ 23 ∧ minute ≤ 59)
  match cs with
  | ':' :: cs =>
    let (second, cs) ← number? 2 cs
    guard (second ≤ 60)
    match cs with
    | '.' :: cs =>
      guard (cs.head?.any Char.isDigit)
      return cs.dropWhile Char.isDigit
    | _ => return cs
  | _ => return cs

/-- The text behind an offset, if there is one. -/
def behindOffset? : List Char → Option (List Char)
  | [] => some []
  | 'Z' :: cs | 'z' :: cs => some cs
  | sign :: cs => do
    guard (sign = '+' ∨ sign = '-')
    let (hour, cs) ← number? 2 cs
    let (minute, cs) ← number? 2 (← behind? ':' cs)
    guard (hour ≤ 23 ∧ minute ≤ 59)
    return cs

/-- **Whether a word is a date, a time, or both** with a letter or a blank between them. -/
def isMoment (word : List Char) : Bool :=
  match behindDate? word with
  | none => behindTime? word == some []
  | some [] => true
  | some (c :: cs) =>
    (c == 'T' || c == 't' || c == ' ') && ((behindTime? cs).bind behindOffset?) == some []

/-! ## Words -/

/-- Digits of a base behind its letter. No digit at all is taken as well. -/
def isBased (isDigit : Char → Bool) (cs : List Char) : Bool :=
  cs.all (fun c => isDigit c || c == '_') && isDivided isAnyDigit cs

/-- **Whether a word is a number or a moment**, given it with its sign and without. How large it is
is not asked. Behind the first underscore of an integer other characters than digits may follow. -/
def isNumber (word cs : List Char) : Bool :=
  let isSigned := word ≠ cs
  let rest := cs.dropWhile Char.isDigit
  match cs with
  | ['0'] => true
  | '0' :: 'x' :: digits => !isSigned && isBased isAnyDigit digits
  | '0' :: 'o' :: digits => !isSigned && isBased (fun c => '0' ≤ c && c ≤ '7') digits
  | '0' :: 'b' :: digits => !isSigned && isBased (fun c => c == '0' || c == '1') digits
  | _ =>
    match rest with
    | [] => cs.head? ≠ some '0'
    | c :: _ =>
      if c = '-' ∨ c = ':' then isMoment word
      else if rest.any ".eE".toList.contains then isFloat cs && isDivided Char.isDigit word
      else c == '_' && cs.head? ≠ some '0' && isDivided isAnyDigit word

/-- **Whether a word is a scalar.** -/
def isScalar (word : List Char) : Bool :=
  let isUnsigned (cs : List Char) : Bool :=
    match cs with
    | [] => false
    | c :: _ =>
      if c.isDigit || c == '_' then isNumber word cs else cs == "inf".toList || cs == "nan".toList
  match word with
  | '+' :: cs => isUnsigned cs
  | '-' :: cs => isUnsigned cs
  | _ => word == "true".toList || word == "false".toList || isUnsigned word

/-- A character of a scalar. -/
def isScalarChar (c : Char) : Bool := !"=,[]\x7b\x7d \t#\r\n".toList.contains c

/-- **The characters behind a scalar.** A blank belongs to it between a date and a time. -/
def readScalar? (cs : List Char) : Option (List Char) :=
  let word := cs.takeWhile isScalarChar
  let rest := cs.drop word.length
  match rest with
  | ' ' :: more =>
    let longer := more.takeWhile isScalarChar
    if isScalar (word ++ ' ' :: longer) then some (more.drop longer.length)
    else if isScalar word then some rest else none
  | _ => if isScalar word then some rest else none

end ScriptBundle.Toml
