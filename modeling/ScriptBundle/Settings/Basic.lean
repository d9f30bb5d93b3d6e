import ScriptBundle.Bundle
import ScriptBundle.Compiler.Definition

/-! # Settings

What can be set for a bundle, layer by layer. Lists of a later layer come behind those of an
earlier one; the policy is that of the last layer that sets one.

* **`Settings.merge`** — a later layer on top of an earlier one;
* **`Settings.toOptions`** — the options of a bundle with these settings.

`merge_assoc`, `merge_empty` and `empty_merge` say that layers form a monoid. -/

namespace ScriptBundle

/-- **A layer of settings.** -/
structure Settings where
  /-- Specifiers packed even if no reference leads to them. -/
  included : List String
  /-- Specifiers left to the host. -/
  excluded : List String
  /-- What is done about references without a target, if it is set. -/
  policy : Option Policy
  /-- Compilers by their programs. -/
  compilers : List Compiler.Definition
deriving DecidableEq, Repr, Inhabited

namespace Settings

/-- The layer that sets nothing. -/
def empty : Settings := ⟨[], [], none, []⟩

/-- **A later layer on top of an earlier one.** -/
def merge (s later : Settings) : Settings where
  included := s.included ++ later.included
  excluded := s.excluded ++ later.excluded
  policy := later.policy.or s.policy
  compilers := s.compilers ++ later.compilers

/-- What is done about references without a target: the run ends unless something else is set. -/
def policyInForce (s : Settings) : Policy := s.policy.getD .fail

/-- **The options of a bundle** with these settings, where compilers can be any of some `programs`. -/
def toOptions (programs : Programs) (s : Settings) : Options where
  included := s.included
  excluded := s.excluded
  compilers := s.compilers.map (Compiler.Definition.toCompiler programs)
  policy := s.policyInForce

/-- With `empty` on top, settings stay as they are. -/
@[simp] theorem merge_empty (s : Settings) : s.merge empty = s := by
  simp [merge, empty]

/-- Settings on top of `empty` are these settings. -/
@[simp] theorem empty_merge (s : Settings) : empty.merge s = s := by
  simp [merge, empty]

/-- Settings on top of each other may be put together in any grouping. -/
theorem merge_assoc (a b c : Settings) : (a.merge b).merge c = a.merge (b.merge c) := by
  simp [merge, List.append_assoc, Option.or_assoc]

end Settings

end ScriptBundle
