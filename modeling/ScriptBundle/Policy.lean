import ScriptBundle.Text.Blank

/-! # Policies

What a run does about a reference whose target is not found.

* **`Policy.ofText`** — the policy a text names, blanks around it aside. -/

namespace ScriptBundle

/-- **What is done about a reference without a target.** -/
inductive Policy
  /-- The run ends. -/
  | fail
  /-- The reference is noted and stays as it is. -/
  | collect
deriving DecidableEq, Repr, Inhabited

/-- **A text that names no policy**, without the blanks around it. -/
structure PolicyError where
  /-- The text. -/
  text : String
deriving DecidableEq, Repr

/-- The wording of a `policy` error. -/
def PolicyError.message (e : PolicyError) : String :=
  "unknown unresolved policy '" ++ e.text ++ "', expected 'fail' or 'collect'"

namespace Policy

/-- The name of a policy. -/
def text : Policy → String
  | fail => "fail"
  | collect => "collect"

/-- The policy of a name. -/
def ofName? (name : String) : Option Policy :=
  if name = "fail" then some fail else if name = "collect" then some collect else none

/-- **The `policy` a text names.** -/
def ofText (s : String) : Except PolicyError Policy :=
  let name := String.ofList (Text.trim s.toList)
  match ofName? name with
  | some policy => .ok policy
  | none => .error ⟨name⟩

/-- Each policy is told by its own name: `ofName?` reads back what `text` writes. -/
@[simp] theorem ofName?_text (policy : Policy) : ofName? policy.text = some policy := by
  cases policy <;> rfl

end Policy

end ScriptBundle
