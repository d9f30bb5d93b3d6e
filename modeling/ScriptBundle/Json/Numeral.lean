/-! # Numerals of JSON documents

The grammar of numerals, and the range a reader of double-precision numbers accepts.

* **`Numeral.ofWord?`** — the parts of a numeral: whole digits without a needless zero in front,
  digits behind a point, an exponent;
* **`nearestDouble n`** — the double-precision number nearest to a natural number, ties to even;
* **`Numeral.inRange`** — whether the reading of a numeral stays finite. It takes as many leading
  digits as fit into 64 bits, and multiplies the double nearest to them by the double nearest to
  the power of ten that is left. -/

namespace ScriptBundle.Json

/-- **A numeral**, without its sign. -/
structure Numeral where
  /-- The digits in front of the point. -/
  whole : List Char
  /-- The digits behind the point; none if there is no point. -/
  fraction : List Char
  /-- The exponent: whether it is negative, and its digits. -/
  exponent : Option (Bool × List Char)
deriving DecidableEq, Repr

namespace Numeral

/-- The digits in front of a text, if there are any, and the text behind them. -/
def digits? (cs : List Char) : Option (List Char × List Char) :=
  let ds := cs.takeWhile Char.isDigit
  if ds.isEmpty then none else some (ds, cs.dropWhile Char.isDigit)

/-- The exponent a text consists of, if it does; an empty text is no exponent. -/
def exponent? : List Char → Option (Option (Bool × List Char))
  | [] => some none
  | mark :: cs =>
    if mark ≠ 'e' ∧ mark ≠ 'E' then none
    else
      let (negative, cs) :=
        match cs with
        | '-' :: cs => (true, cs)
        | '+' :: cs => (false, cs)
        | _ => (false, cs)
      match digits? cs with
      | some (ds, []) => some (some (negative, ds))
      | _ => none

/-- **The numeral a word is**, with or without a minus sign. -/
def ofWord? (word : List Char) : Option Numeral := do
  let cs := match word with
    | '-' :: cs => cs
    | _ => word
  let (whole, cs) ← digits? cs
  guard (whole = ['0'] ∨ whole.head? ≠ some '0')
  match cs with
  | '.' :: cs =>
    let (fraction, cs) ← digits? cs
    return ⟨whole, fraction, ← exponent? cs⟩
  | _ => return ⟨whole, [], ← exponent? cs⟩

end Numeral

/-! ## Range -/

/-- Two to the 53rd: up to here every natural number is a double-precision number. -/
def exactBound : Nat := 0x20000000000000

/-- **The double-precision number nearest to `n`**, as long as it is finite: 53 leading bits, a tie
going to the even neighbour. -/
def nearestDouble (n : Nat) : Nat :=
  if n < exactBound then n
  else
    let dropped := n.log2 - 52
    let kept := n >>> dropped
    let rest := n - kept <<< dropped
    let half := 1 <<< (dropped - 1)
    (if half < rest ∨ (rest = half ∧ kept % 2 = 1) then kept + 1 else kept) <<< dropped

/-- The least number that is too large for a double-precision number: half a step above the
largest. -/
def overflowBound : Nat := 1 <<< 1024 - 1 <<< 970

/-- Whether `significand · 10 ^ exponent`, computed in double precision, stays finite. -/
def isFinite (significand : Nat) (exponent : Int) : Bool :=
  exponent < 0 || significand == 0 ||
    (exponent ≤ 308 &&
      nearestDouble significand * nearestDouble (Nat.pow 10 exponent.toNat) < overflowBound)

/-- The value of a digit. -/
def digitValue (c : Char) : Nat := c.toNat - '0'.toNat

/-- **Digits taken up** into a number as long as it fits into 64 bits: the number, and how many
digits it took. -/
def absorb (n : Nat) : List Char → Nat × Nat
  | [] => (n, 0)
  | c :: cs =>
    let next := n * 10 + digitValue c
    if next < 0x10000000000000000 then
      let (m, count) := absorb next cs
      (m, count + 1)
    else (n, 0)

/-- The value of a list of digits. -/
def digitsValue (ds : List Char) : Nat := ds.foldl (fun n c => n * 10 + digitValue c) 0

/-- **Whether the reading of a numeral stays finite.** -/
def Numeral.inRange (numeral : Numeral) : Bool :=
  let (front, taken) := absorb 0 numeral.whole
  let (significand, behind) := absorb front numeral.fraction
  let written : Int :=
    match numeral.exponent with
    | none => 0
    | some (negative, ds) => if negative then -(digitsValue ds : Int) else digitsValue ds
  isFinite significand ((numeral.whole.length - taken : Nat) - behind + written)

end ScriptBundle.Json
