import ScriptBundle.Proofs.Artifact.Header
import ScriptBundle.Proofs.Script.Literals
import ScriptBundle.Reference

/-! # The keys of modules

A module is entered into the table of an artifact under its identity, and a reference to it calls the
identity. Both are written as literals, and the identity also stands in the comments around the
module. Whatever an identity holds, its two literals are the same, the host reads the identity from
them, and it ends neither the literals nor the comments:

* **`Text.not_infix_substitute_mark`** — ends of comments that are broken up;
* **`Artifact.comment`** — what stands in the comments around a module, and
  **`Artifact.read?_comment`** that they end where they should;
* **`Artifact.key_denotes_identity`** — what the host reads of an identity. -/

namespace ScriptBundle

/-- **Where ends of comments are broken up, none is left.** -/
theorem Text.not_infix_substitute_mark (cs : List Char) :
    ¬Comment.mark <:+: substitute Comment.mark ['*', '\\', '/'] cs := by
  have some_char : Comment.mark ≠ [] := List.cons_ne_nil _ _
  -- together with the first character, before which a star would make another end
  suffices ¬Comment.mark <:+: substitute Comment.mark ['*', '\\', '/'] cs ∧
      ((substitute Comment.mark ['*', '\\', '/'] cs).head? = some '/' → cs.head? = some '/') from
    this.1
  induction cs using substitute_induction some_char with
  | ended => exact ⟨by simp [Comment.mark], by simp⟩
  | occurrence rest ih =>
      rw [substitute_append some_char]
      refine ⟨?_, by simp⟩
      simpa [Comment.mark, List.infix_cons_iff, List.cons_prefix_cons] using ih.1
  | char c cs none ih =>
      obtain ⟨later, first⟩ := ih
      rw [substitute_cons none]
      refine ⟨fun h => ?_, id⟩
      rcases List.infix_cons_iff.mp h with here | behind
      · -- the slash was behind the star before
        obtain ⟨rfl, slash⟩ := List.cons_prefix_cons.mp here
        obtain ⟨rest, same⟩ := slash
        have slashed := first (by rw [← same]; rfl)
        cases cs with
        | nil => simp at slashed
        | cons d ds =>
            obtain rfl : d = '/' := by simpa using slashed
            exact none ⟨ds, rfl⟩
      · exact later behind

namespace Artifact

variable (identity : Identity)

/-- **What stands in a comment around a module**, behind the opening of the comment. -/
def comment (word : String) : String := "* " ++ word ++ ": " ++ commentText identity ++ " "

/-- **The comment in front of a module**, and the key in the table. -/
theorem opening_eq : opening identity = "\n/*" ++ comment identity "module" ++ "*/" ++
    ("\n__enpaki_modules['" ++ Quoted.escape identity.text ++
      "'] = function (exports, require, module, __filename, __dirname) \x7b\n") := by
  have front : "\n/** module: " = "\n/*" ++ "* " ++ "module" ++ ": " := by decide +kernel
  have between : " */\n__enpaki_modules[" = " " ++ "*/" ++ "\n__enpaki_modules[" := by
    decide +kernel
  have key : "\n__enpaki_modules['" = "\n__enpaki_modules[" ++ "'" := by decide +kernel
  have behind : "'] = function (exports, require, module, __filename, __dirname) \x7b\n" =
      "'" ++ "] = function (exports, require, module, __filename, __dirname) \x7b\n" := by
    decide +kernel
  -- equations of definitions with long literals are slow to make
  delta opening comment Quoted.literal
  rw [front, between, key, behind]
  simp only [String.append_assoc]

/-- **The comment behind a module.** -/
theorem closing_eq : closing identity = "\nreturn module.exports;\n\x7d; /*" ++
    comment identity "end module" ++ "*/" ++ "\n" := by
  have front : "\nreturn module.exports;\n\x7d; /** end module: " =
      "\nreturn module.exports;\n\x7d; /*" ++ "* " ++ "end module" ++ ": " := by
    decide +kernel
  have behind : " */\n" = " " ++ "*/" ++ "\n" := by decide +kernel
  delta closing comment
  rw [front, behind]
  simp only [String.append_assoc]

/-- **An `identity` does not end the comment it stands in.** -/
theorem read?_comment {word : String} (letters : '*' ∉ word.toList) (rest : List Char) :
    Comment.read? ((comment identity word).toList ++ (Comment.mark ++ rest)) =
      some ((comment identity word).toList, rest) := by
  refine Comment.read?_append (fun h => ?_) rest
  have safe : (commentText identity).toList =
      Text.substitute Comment.mark ['*', '\\', '/'] identity.text.toList :=
    Text.toList_replaceAll "*/" "*\\/" identity.text
  have whole : (comment identity word).toList = ['*'] ++ ' ' ::
      ((word.toList ++ [':']) ++ ' ' :: ((commentText identity).toList ++ ' ' :: [])) := by
    simp [comment]
  have apart : ' ' ∉ Comment.mark := by decide
  rw [whole, Text.infix_append_cons_iff apart, Text.infix_append_cons_iff apart,
    Text.infix_append_cons_iff apart, safe] at h
  rcases h with star | label | inner | nothing
  · exact absurd star (by decide)
  · have member : '*' ∈ word.toList ++ [':'] := label.subset List.mem_cons_self
    simp [letters] at member
  · exact Text.not_infix_substitute_mark _ inner
  · exact absurd nothing (by decide)

/-- **What the host reads of an `identity`**, for every identity. The call of a reference and the key in
the table of modules hold the same text between their quotes. No line ends in it, the short way of
writing it agrees with the long one, and the host reads it up to the quote of the artifact, as the code
units of the identity; so no two identities have the same. The comments around a module end where the
artifact ends them. -/
theorem key_denotes_identity :
    Call.write identity.text = "require('" ++ Quoted.escape identity.text ++ "')" ∧
    opening identity = "\n/*" ++ comment identity "module" ++ "*/" ++
      ("\n__enpaki_modules['" ++ Quoted.escape identity.text ++
        "'] = function (exports, require, module, __filename, __dirname) \x7b\n") ∧
    closing identity = "\nreturn module.exports;\n\x7d; /*" ++ comment identity "end module" ++
      "*/" ++ "\n" ∧
    (∀ c ∈ Quoted.lineEnds, c ∉ (Quoted.escape identity.text).toList) ∧
    Quoted.escape identity.text = String.ofList (Quoted.encode identity.text.toList) ∧
    (∀ rest, Quoted.read? ((Quoted.escape identity.text).toList ++ '\x27' :: rest) =
      some (Quoted.units identity.text.toList, rest)) ∧
    (∀ other : Identity, Quoted.escape other.text = Quoted.escape identity.text ↔
      other = identity) ∧
    ∀ word ∈ ["module", "end module"], ∀ rest,
      Comment.read? ((comment identity word).toList ++ ("*/".toList ++ rest)) =
        some ((comment identity word).toList, rest) := by
  have call : Call.write identity.text = "require('" ++ Quoted.escape identity.text ++ "')" := by
    have front : "require('" = "require(" ++ "'" := by decide +kernel
    have behind : "')" = "'" ++ ")" := by decide +kernel
    rw [Call.write, Quoted.literal, front, behind]
    simp only [String.append_assoc]
  have read (other : Identity) (rest : List Char) :
      Quoted.read? ((Quoted.escape other.text).toList ++ '\x27' :: rest) =
        some (Quoted.units other.text.toList, rest) := by
    rw [Quoted.escape_eq, String.toList_ofList, Quoted.read?_encode]
  refine ⟨call, opening_eq identity, closing_eq identity, fun c ending => ?_,
    Quoted.escape_eq identity.text, read identity, fun other => ⟨fun same => ?_, ?_⟩,
    fun word named => ?_⟩
  · rw [Quoted.escape_eq, String.toList_ofList]
    exact Quoted.notMem_encode ending
  · -- one text is read as both
    have both := read other []
    rw [same, read identity [], Option.some.injEq, Prod.mk.injEq] at both
    have texts : identity.text = other.text :=
      String.toList_injective (Quoted.units_injective both.1)
    cases identity
    cases other
    exact congrArg Identity.mk texts.symm
  · rintro rfl
    rfl
  · have letters : ∀ word ∈ ["module", "end module"], '*' ∉ word.toList := by decide +kernel
    exact read?_comment identity (letters word named)

/-- An identity with an end of a comment, a quote and an end of a line in it. -/
example : (Quoted.escape "/*/'\n.js").toList = "/*/\\'\\n.js".toList ∧
    (comment ⟨"/*/'\n.js"⟩ "module").toList = "* module: /*\\/'\n.js ".toList := by decide +kernel

end Artifact

end ScriptBundle
