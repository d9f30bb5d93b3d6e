import ScriptBundle.Json.Token

/-! # JSON documents

The grammar of documents as a machine over tokens: what may come next, and the brackets that are
open.

* **`Position.step`** — one token further, if the grammar allows it;
* **`isDocument`** — the check a JSON module has to pass: one value, every token sound, fewer than
  128 brackets open at a time. -/

namespace ScriptBundle.Json

/-- **What the grammar needs next.** -/
inductive Need
  /-- A value. -/
  | value
  /-- A value or the end of the list. -/
  | valueOrEnd
  /-- A key. -/
  | key
  /-- A key or the end of the record. -/
  | keyOrEnd
  /-- The colon behind a key. -/
  | colon
  /-- Whatever follows a value. -/
  | afterValue
deriving DecidableEq, Repr

/-- **A position in a document**: what is needed next, and the open brackets, innermost first. -/
structure Position where
  /-- What is needed next. -/
  need : Need
  /-- The open brackets. -/
  nest : List Bracket
deriving DecidableEq, Repr

namespace Position

/-- In front of a document. -/
def start : Position := ⟨.value, []⟩

/-- Behind a complete document. -/
def complete : Position := ⟨.afterValue, []⟩

/-- A value comes next. -/
def valueStep (nest : List Bracket) : Token → Option Position
  | .opening .list => some ⟨.valueOrEnd, .list :: nest⟩
  | .opening .record => some ⟨.keyOrEnd, .record :: nest⟩
  | .text _ | .number _ | .null | .truth _ => some ⟨.afterValue, nest⟩
  | _ => none

/-- **One token further.** -/
def step (position : Position) (token : Token) : Option Position :=
  match position.need, position.nest, token with
  | .value, nest, token => valueStep nest token
  | .valueOrEnd, .list :: nest, .closing .list => some ⟨.afterValue, nest⟩
  | .valueOrEnd, nest, token => valueStep nest token
  | .keyOrEnd, .record :: nest, .closing .record => some ⟨.afterValue, nest⟩
  | .key, nest, .text _ | .keyOrEnd, nest, .text _ => some ⟨.colon, nest⟩
  | .colon, nest, .colon => some ⟨.value, nest⟩
  | .afterValue, .list :: nest, .comma => some ⟨.value, .list :: nest⟩
  | .afterValue, .record :: nest, .comma => some ⟨.key, .record :: nest⟩
  | .afterValue, .list :: nest, .closing .list => some ⟨.afterValue, nest⟩
  | .afterValue, .record :: nest, .closing .record => some ⟨.afterValue, nest⟩
  | _, _, _ => none

/-- Nothing follows a complete document. -/
@[simp] theorem step_complete (token : Token) : step complete token = none := by
  cases token <;> rfl

end Position

/-- The number of brackets that may be open at a time is below this. -/
def nestLimit : Nat := 128

/-- One token further in a document whose values are to be read. -/
def soundStep (position : Position) (token : Token) : Option Position :=
  if token.isSound then
    (position.step token).filter fun next => next.nest.length < nestLimit
  else none

/-- **A document**: one JSON value, every token of it sound and no more than 127 brackets deep. -/
def isDocument (cs : List Char) : Bool :=
  match tokens? cs with
  | none => false
  | some tokens => tokens.foldlM soundStep .start == some .complete

end ScriptBundle.Json
