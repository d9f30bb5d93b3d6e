import Mathlib.Data.List.Basic
import Mathlib.Tactic.Common
import ScriptBundle.Json.Text
import ScriptBundle.Text.Quoted

/-! # Literals and comments of scripts

How the host reads what stands between single quotes, and where a comment ends. A literal stands for
code units: a character for one or two of them, a backslash with what belongs to it for those it
names. It ends at the first quote that belongs to no backslash, and no line may end in it.

* **`Quoted.units`** — the code units of a text; **`Quoted.units_injective`** — they are no others';
* **`Quoted.escape?`** — what a backslash begins;
* **`Quoted.read?`** — what a literal stands for, and what is left behind it;
* **`Quoted.read?_encode`** — a text that was written as a literal is read again;
* **`Comment.read?`** — a comment up to its end, and what is left behind it. -/

namespace ScriptBundle

namespace Quoted

/-! ## Code units -/

/-- **The code units of a code point**: one, or the two halves of a pair. -/
def unitsOf (n : Nat) : List Nat :=
  if n < 0x10000 then [n] else [0xD800 + (n - 0x10000) / 0x400, 0xDC00 + (n - 0x10000) % 0x400]

/-- **The code units of a text.** -/
def units (cs : List Char) : List Nat := cs.flatMap fun c => unitsOf c.toNat

variable {c d : Char} {cs rest : List Char}

/-- No character is half of a pair, and none is beyond the last code point. -/
theorem toNat_lt (c : Char) : c.toNat < 0xD800 ∨ 0xDFFF < c.toNat ∧ c.toNat < 0x110000 := c.valid

/-- **The first code units tell the first character.** -/
theorem eq_of_unitsOf_append_eq {ms ns : List Nat}
    (h : unitsOf c.toNat ++ ms = unitsOf d.toNat ++ ns) : c = d ∧ ms = ns := by
  have first := toNat_lt c
  have second := toNat_lt d
  rw [← Char.toNat_inj]
  unfold unitsOf at h
  -- one unit against one, and two against two; the first of a pair is no character by itself
  split at h <;> split at h
  · simpa using h
  · obtain ⟨same, -⟩ := by simpa using h
    omega
  · obtain ⟨same, -⟩ := by simpa using h
    omega
  · obtain ⟨high, low, behind⟩ := by simpa using h
    exact ⟨by omega, behind⟩

/-- **No two texts have the same code units.** -/
theorem units_injective : Function.Injective units := by
  have some_unit (c : Char) : unitsOf c.toNat ≠ [] := by
    unfold unitsOf
    split <;> exact List.cons_ne_nil _ _
  intro cs ds h
  induction cs generalizing ds with
  | nil =>
      cases ds with
      | nil => rfl
      | cons d ds => exact absurd (List.append_eq_nil_iff.mp h.symm).1 (some_unit d)
  | cons c cs ih =>
      cases ds with
      | nil => exact absurd (List.append_eq_nil_iff.mp h).1 (some_unit c)
      | cons d ds =>
          obtain ⟨rfl, behind⟩ := eq_of_unitsOf_append_eq h
          rw [ih behind]

/-! ## Literals -/

/-- The characters that end a line of a script. -/
def lineEnds : List Char := ['\n', '\r', '\u2028', '\u2029']

/-- The letters that stand for other characters behind a backslash. -/
def letterEscapes : List (Char × Char) :=
  [('b', '\x08'), ('t', '\t'), ('n', '\n'), ('v', '\x0B'), ('f', '\x0C'), ('r', '\r')]

/-- A digit of an octal escape. -/
def isOctalDigit (c : Char) : Bool := '0' ≤ c && c ≤ '7'

/-- The digits of an octal escape: three at most, and two where three would be too large a number. -/
def octalDigits (cs : List Char) : List Char :=
  (cs.takeWhile isOctalDigit).take (if cs.head?.any (· ≤ '3') then 3 else 2)

/-- A number that is written with digits. -/
def numberOf? (base : Nat) (digits : List Char) : Option Nat :=
  digits.foldlM (fun n c => (Text.hexValue? c).map (n * base + ·)) 0

/-- **What a backslash begins**: the code units it stands for together with what belongs to it, and how
many characters these are. The end of a line stands for nothing. A letter may stand for another
character, digits are the number of one, and everything else stands for itself. -/
def escape? : List Char → Option (List Nat × Nat)
  | [] => none
  | '\r' :: '\n' :: _ => some ([], 2)
  | 'x' :: rest =>
    if rest.length < 2 then none
    else (numberOf? 16 (rest.take 2)).map fun n => ([n], 3)
  | 'u' :: '\x7b' :: rest =>
    let digits := rest.takeWhile (· ≠ '\x7d')
    if digits = [] ∨ digits.length = rest.length then none
    else (numberOf? 16 digits).bind fun n =>
      if n ≤ 0x10FFFF then some (unitsOf n, digits.length + 3) else none
  | 'u' :: rest =>
    if rest.length < 4 then none
    else (numberOf? 16 (rest.take 4)).map fun n => ([n], 5)
  | c :: rest =>
    if lineEnds.contains c then some ([], 1)
    else if isOctalDigit c then
      let digits := octalDigits (c :: rest)
      (numberOf? 8 digits).map fun n => ([n], digits.length)
    else some (unitsOf ((letterEscapes.lookup c).getD c).toNat, 1)

/-- What is read of the rest of a literal, of which some characters still belong to a backslash. -/
def readFrom : Nat → List Char → Option (List Nat × List Char)
  | _, [] => none
  | skipped + 1, _ :: cs => readFrom skipped cs
  | 0, c :: cs =>
    if c = '\x27' then some ([], cs)
    else if c = '\n' ∨ c = '\r' then none
    else if c = '\\' then
      match escape? cs with
      | none => none
      | some (codes, length) => (readFrom length cs).map fun read => (codes ++ read.1, read.2)
    else (readFrom 0 cs).map fun read => (unitsOf c.toNat ++ read.1, read.2)

/-- **What is read behind the first quote of a literal**: its code units, and what stands behind its
second quote. -/
def read? (cs : List Char) : Option (List Nat × List Char) := readFrom 0 cs

/-- An escape for a code unit, one with braces and an octal one, and a line that goes on. -/
example : read? "\\xe9\\u\x7b1F600\x7d\\101\\\r\nb' + c".toList =
    some ([0xE9, 0xD83D, 0xDE00, 0x41, 0x62], " + c".toList) := by decide

/-- What belongs to a backslash is passed over. -/
theorem readFrom_append (skipped cs : List Char) :
    readFrom skipped.length (skipped ++ cs) = readFrom 0 cs := by
  induction skipped with
  | nil => rfl
  | cons c skipped ih => exact ih

/-- A backslash stands for what it begins. -/
theorem read?_escape {codes : List Nat} (inner : List Char)
    (begins : escape? (inner ++ rest) = some (codes, inner.length)) :
    read? ('\\' :: (inner ++ rest)) = (read? rest).map fun read => (codes ++ read.1, read.2) := by
  rw [read?, readFrom, if_neg (by decide), if_neg (by decide), if_pos rfl, begins]
  simp only [readFrom_append, read?]

/-- **A character that was written for a literal is read as its code units.** -/
theorem read?_encodeChar (c : Char) (rest : List Char) :
    read? (encodeChar c ++ rest) =
      (read? rest).map fun read => (unitsOf c.toNat ++ read.1, read.2) := by
  -- in the order in which a character is written
  unfold encodeChar
  split_ifs with slash quote feed back line paragraph
  · subst slash
    exact read?_escape ['\\'] rfl
  · subst quote
    exact read?_escape ['\x27'] rfl
  · subst feed
    exact read?_escape ['n'] rfl
  · subst back
    exact read?_escape ['r'] rfl
  · subst line
    exact read?_escape ['u', '2', '0', '2', '8'] rfl
  · subst paragraph
    exact read?_escape ['u', '2', '0', '2', '9'] rfl
  · rw [List.singleton_append, read?, readFrom, if_neg quote, if_neg (by simp [feed, back]),
      if_neg slash, read?]

/-- **A text that was written for a literal is read again**, up to the quote behind it. -/
theorem read?_encode (cs rest : List Char) :
    read? (encode cs ++ '\x27' :: rest) = some (units cs, rest) := by
  induction cs with
  | nil => rfl
  | cons c cs ih =>
      rw [encode_cons, List.append_assoc, read?_encodeChar, ih]
      rfl

/-- **No line ends in what is written for a literal.** -/
theorem notMem_encode (ending : d ∈ lineEnds) : d ∉ encode cs := by
  have inside (c : Char) : ∀ e ∈ encodeChar c, e ∉ lineEnds := by
    unfold encodeChar
    split_ifs with slash quote feed back line paragraph
    all_goals simp [lineEnds]
    exact ⟨feed, back, line, paragraph⟩
  intro member
  obtain ⟨c, -, here⟩ := List.mem_flatMap.mp member
  exact inside c d here ending

/-- A text that holds none of the `marks` is written as it stands. -/
theorem encode_eq_self (plain : ∀ c ∈ cs, c ∉ marks) : encode cs = cs := by
  have alone (c : Char) (other : c ∉ marks) : encodeChar c = [c] := by
    simp only [marks, List.mem_cons, List.not_mem_nil, or_false, not_or] at other
    obtain ⟨slash, quote, feed, back, line, paragraph⟩ := other
    simp [encodeChar, slash, quote, feed, back, line, paragraph]
  induction cs with
  | nil => rfl
  | cons c cs ih =>
      obtain ⟨here, later⟩ := List.forall_mem_cons.mp plain
      rw [encode_cons, alone c here, ih later, List.singleton_append]

/-- **The short way agrees with the long one**: a string is written character by character, also where
it is handed on as it is. -/
theorem escape_eq (s : String) : escape s = String.ofList (encode s.toList) := by
  rw [escape]
  split <;> rename_i some_mark
  · rfl
  · have plain : ∀ c ∈ s.toList, c ∉ marks := by simpa using some_mark
    rw [encode_eq_self plain, String.ofList_toList]

end Quoted

/-! ## Comments -/

namespace Comment

/-- **What is read behind the opening of a comment**: what stands in it, and what stands behind its
end, the first star that a slash follows. -/
def read? : List Char → Option (List Char × List Char)
  | [] => none
  | c :: cs =>
    if c = '*' ∧ cs.head? = some '/' then some ([], cs.tail)
    else (read? cs).map fun read => (c :: read.1, read.2)

/-- The end of a comment. -/
def mark : List Char := ['*', '/']

/-- **A comment ends at the mark behind a text that does not hold it.** -/
theorem read?_append {body : List Char} (none : ¬mark <:+: body) (rest : List Char) :
    read? (body ++ (mark ++ rest)) = some (body, rest) := by
  induction body with
  | nil => rfl
  | cons c body ih =>
      have open_still : ¬(c = '*' ∧ (body ++ (mark ++ rest)).head? = some '/') := by
        rintro ⟨rfl, slash⟩
        cases body with
        | nil => simp [mark] at slash
        | cons d body =>
            obtain rfl : d = '/' := by simpa using slash
            exact none ⟨[], body, rfl⟩
      rw [List.cons_append, read?, if_neg open_still, ih fun later => none (List.infix_cons later)]
      rfl

end Comment

end ScriptBundle
