/-! # Quoted literals

Texts between single quotes in a script. Inside, a quote, a backslash and the four characters that
end a line of a script are written with a backslash in front.

* **`Quoted.encode`** — what stands between the quotes for a text;
* **`Quoted.escape`** — the same for a string, which stays as it is if it holds none of these;
* **`Quoted.literal`** — the literal with its quotes. -/

namespace ScriptBundle.Quoted

/-- **The characters that are written otherwise.** -/
def marks : List Char := ['\\', '\x27', '\n', '\r', '\u2028', '\u2029']

/-- **A character inside single quotes.** -/
def encodeChar (c : Char) : List Char :=
  if c = '\\' then ['\\', '\\']
  else if c = '\x27' then ['\\', '\x27']
  else if c = '\n' then ['\\', 'n']
  else if c = '\r' then ['\\', 'r']
  else if c = '\u2028' then ['\\', 'u', '2', '0', '2', '8']
  else if c = '\u2029' then ['\\', 'u', '2', '0', '2', '9']
  else [c]

/-- **A text inside single quotes.** -/
def encode (cs : List Char) : List Char := cs.flatMap encodeChar

/-- Between the quotes each character is written for itself. -/
@[simp] theorem encode_cons (c : Char) (cs : List Char) :
    encode (c :: cs) = encodeChar c ++ encode cs := rfl

/-- **What stands between the quotes** for a string: the string itself if none of its characters is
written otherwise. -/
def escape (s : String) : String :=
  if s.toList.any marks.contains then String.ofList (encode s.toList) else s

/-- **The literal of a string**, quotes included. -/
def literal (s : String) : String := "'" ++ escape s ++ "'"

end ScriptBundle.Quoted
