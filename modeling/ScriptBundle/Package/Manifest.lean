import ScriptBundle.Json.Document

/-! # Package manifests

A manifest is a JSON record of which one field matters: `main`, the path of the file that stands
for the package. The record is read leniently. Fields of other names only have to be well formed:
their numbers may be out of range, their escapes need not pair up, and they may be nested to any
depth. A `main` that is repeated, or is neither a text nor null, spoils the manifest.

* **`Manifest.main?`** — the `main` of a manifest, if it has one that is not empty. -/

namespace ScriptBundle.Manifest

open ScriptBundle.Json

/-- **A reading in progress**: the position, the latest key of the manifest itself, and the `main`
that was read, if one was. -/
structure Reading where
  /-- The position in the document. -/
  position : Position
  /-- The latest key of the outermost record. -/
  key : List Char
  /-- The value of `main`, if that field has come; a null is no text. -/
  main : Option (Option (List Char))
deriving DecidableEq, Repr

/-- The reading in front of a manifest. -/
def Reading.start : Reading := ⟨.start, [], none⟩

/-- The value of a `main` field: a text or null. -/
def mainValue? : Token → Option (Option (List Char))
  | .null => some none
  | .text raw => (decode? raw).map some
  | _ => none

/-- **One token further.** -/
def Reading.step (reading : Reading) (token : Token) : Option Reading := do
  let next ← reading.position.step token
  let moved := { reading with position := next }
  if reading.position.nest ≠ [.record] then return moved
  match reading.position.need, token with
  | .key, .text raw | .keyOrEnd, .text raw => return { moved with key := ← decode? raw }
  | .value, token =>
    if reading.key ≠ "main".toList then return moved
    guard reading.main.isNone
    return { moved with main := some (← mainValue? token) }
  | _, _ => return moved

/-- The text of `main` in a list of tokens. A record may also be written as the list of its field
values, which for a manifest is a list of one. -/
def mainOfTokens? : List Token → Option (List Char)
  | [.opening .list, value, .closing .list] => (mainValue? value).join
  | .opening .record :: tokens => do
    let reading ← (Token.opening .record :: tokens).foldlM Reading.step .start
    guard (reading.position = .complete)
    reading.main.join
  | _ => none

/-- **The `main` of a manifest**, unless it is missing, empty or spoilt. -/
def main? (text : String) : Option String := do
  let tokens ← tokens? text.toList
  let main ← mainOfTokens? tokens
  guard (main ≠ [])
  return String.ofList main

end ScriptBundle.Manifest
