/-! # UTF-8

Reading bytes as text, with the place where they stop being text.

* **`Utf8.next?`** — the character in front of a list of bytes and how many bytes follow its
  first one, or the fault found there;
* **`Utf8.decode`** — the characters of a list of bytes, or the first fault and where it lies;
* **`Utf8.decodeLossy`** — the characters, with U+FFFD for every faulty sequence;
* **`Utf8.encode`** — the bytes of a list of characters.

A fault is as wide as the bytes that could still have begun a character: the next byte begins a
sequence of its own. Bytes that end inside a character are a fault without a width. -/

namespace ScriptBundle.Utf8

/-- **A fault in a list of `bytes`**: where it lies, and how many bytes it covers unless the bytes
end inside a character. -/
structure Fault where
  /-- The number of bytes in front of the fault, all of them text. -/
  index : Nat
  /-- The number of faulty bytes; none when the bytes end inside a character. -/
  width : Option Nat
deriving DecidableEq, Repr

/-- A byte that continues a character. -/
def isTail (b : UInt8) : Bool := 0x80 ≤ b && b ≤ 0xBF

/-- The six bits a continuing byte adds to a code point. -/
def addTail (code : Nat) (b : UInt8) : Nat := code * 64 + b.toNat % 64

/-- The bytes that may follow the first byte of a character of three bytes. -/
def isSecondOfThree (b second : UInt8) : Bool :=
  if b = 0xE0 then 0xA0 ≤ second && second ≤ 0xBF
  else if b = 0xED then 0x80 ≤ second && second ≤ 0x9F
  else isTail second

/-- The bytes that may follow the first byte of a character of four bytes. -/
def isSecondOfFour (b second : UInt8) : Bool :=
  if b = 0xF0 then 0x90 ≤ second && second ≤ 0xBF
  else if b = 0xF4 then 0x80 ≤ second && second ≤ 0x8F
  else isTail second

/-- **The character in front**, given its first byte and the bytes behind that: the character
with the number of further bytes it takes, or the width of the fault. -/
def next? (b : UInt8) (rest : List UInt8) : Except (Option Nat) (Char × Nat) :=
  if b < 0x80 then .ok (Char.ofNat b.toNat, 0)
  else if 0xC2 ≤ b && b ≤ 0xDF then
    match rest with
    | [] => .error none
    | c :: _ => if isTail c then .ok (Char.ofNat (addTail (b.toNat % 32) c), 1) else .error (some 1)
  else if 0xE0 ≤ b && b ≤ 0xEF then
    match rest with
    | [] => .error none
    | c :: rest =>
      if !isSecondOfThree b c then .error (some 1)
      else match rest with
        | [] => .error none
        | d :: _ =>
          if isTail d then .ok (Char.ofNat (addTail (addTail (b.toNat % 16) c) d), 2)
          else .error (some 2)
  else if 0xF0 ≤ b && b ≤ 0xF4 then
    match rest with
    | [] => .error none
    | c :: rest =>
      if !isSecondOfFour b c then .error (some 1)
      else match rest with
        | [] => .error none
        | d :: rest =>
          if !isTail d then .error (some 2)
          else match rest with
            | [] => .error none
            | e :: _ =>
              if isTail e then
                .ok (Char.ofNat (addTail (addTail (addTail (b.toNat % 8) c) d) e), 3)
              else .error (some 3)
  else .error (some 1)

/-- The characters of the bytes from `index` on, or the first fault among them. -/
def decodeFrom (index : Nat) (bytes : List UInt8) : Except Fault (List Char) :=
  match bytes with
  | [] => .ok []
  | b :: rest =>
    match next? b rest with
    | .error width => .error ⟨index, width⟩
    | .ok (c, more) =>
      match decodeFrom (index + more + 1) (rest.drop more) with
      | .error fault => .error fault
      | .ok cs => .ok (c :: cs)
termination_by bytes.length
decreasing_by simp only [List.length_drop, List.length_cons]; omega

/-- **The characters of a list of `bytes`**, or the first fault in it. -/
def decode (bytes : List UInt8) : Except Fault (List Char) := decodeFrom 0 bytes

/-- **The characters of a list of `bytes`, whatever they are.** Every fault reads as one U+FFFD. -/
def decodeLossy (bytes : List UInt8) : List Char :=
  match bytes with
  | [] => []
  | b :: rest =>
    match next? b rest with
    | .error none => ['\uFFFD']
    | .error (some width) => '\uFFFD' :: decodeLossy (rest.drop (width - 1))
    | .ok (c, more) => c :: decodeLossy (rest.drop more)
termination_by bytes.length
decreasing_by all_goals simp only [List.length_drop, List.length_cons]; omega

/-- **The bytes of a list of characters.** -/
def encode (cs : List Char) : List UInt8 := cs.flatMap String.utf8EncodeChar

/-- The empty text is no bytes. -/
@[simp] theorem encode_nil : encode [] = [] := rfl

/-- Texts one behind the other are their bytes one behind the other. -/
@[simp] theorem encode_append (cs ds : List Char) : encode (cs ++ ds) = encode cs ++ encode ds := by
  simp [encode]

end ScriptBundle.Utf8
