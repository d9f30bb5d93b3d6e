import ScriptBundle.Proofs.Artifact.Header
import ScriptBundle.Proofs.Json.Edges

/-! # Written documents

The JSON text of a string, and that of a list of strings, read again. They are cut into the tokens
they were written with, and each text stands for the string it was written for:

* **`Json.tokensFrom_quote`** — the JSON text of a string is one token;
* **`Json.string?`, `Json.string?_quote`** — a document that is a text;
* **`Json.strings?`, `Json.strings?_quoteAll`** — a document that is a list of texts. -/

namespace ScriptBundle.Json

variable {c : Char} {cs more rest read : List Char}

/-! ## Texts between quotes -/

/-- A character that neither ends a text nor begins an escape. -/
def isInner (c : Char) : Bool := c != '\x22' && c != '\\'

/-- Characters inside a text are read one by one. -/
theorem tokensFrom_text_append (inner : ∀ c ∈ more, isInner c = true) :
    tokensFrom (.text read false) (more ++ rest) =
      tokensFrom (.text (more.reverse ++ read) false) rest := by
  induction more generalizing read with
  | nil => rfl
  | cons c more ih =>
      obtain ⟨here, later⟩ := List.forall_mem_cons.mp inner
      obtain ⟨quote, slash⟩ : c ≠ '\x22' ∧ c ≠ '\\' := by simpa [isInner] using here
      have step : Cut.step (.text read false) c (more ++ rest) = some (none, .text (c :: read) false) :=
        by simp [Cut.step, quote, slash]
      rw [List.cons_append, tokensFrom, step]
      simp only [ih later, List.reverse_cons, List.append_assoc, List.singleton_append]

/-- A backslash takes the next character with it. -/
theorem tokensFrom_text_escape (e : Char) :
    tokensFrom (.text read false) ('\\' :: e :: rest) =
      tokensFrom (.text (e :: '\\' :: read) false) rest := by
  rfl

/-- **A character is written as itself**, or as an escape that ends no text. -/
theorem quoteChar_spelling (c : Char) :
    (quoteChar c = [c] ∧ isInner c = true) ∨
      ∃ e more, quoteChar c = '\\' :: e :: more ∧ ∀ d ∈ more, isInner d = true := by
  have inner : ∀ n : Fin 16, isInner (hexDigit n) = true := by decide
  unfold quoteChar
  split_ifs with quote slash b f n r t control
  all_goals try exact .inr ⟨_, [], rfl, by simp⟩
  · refine .inr ⟨'u', _, rfl, ?_⟩
    have high := inner ⟨c.toNat / 16, by omega⟩
    have low := inner ⟨c.toNat % 16, by omega⟩
    intro d hd
    simp only [List.mem_cons, List.not_mem_nil, or_false] at hd
    rcases hd with rfl | rfl | rfl | rfl
    · decide
    · decide
    · exact high
    · exact low
  · exact .inl ⟨rfl, by simp [isInner, quote, slash]⟩

/-- What is written for a text is read as it stands. -/
theorem tokensFrom_text_quoted (cs : List Char) :
    tokensFrom (.text read false) (cs.flatMap quoteChar ++ rest) =
      tokensFrom (.text ((cs.flatMap quoteChar).reverse ++ read) false) rest := by
  induction cs generalizing read with
  | nil => rfl
  | cons c cs ih =>
      rw [List.flatMap_cons, List.append_assoc]
      rcases quoteChar_spelling c with ⟨same, here⟩ | ⟨e, more, spelled, inner⟩
      · rw [same, tokensFrom_text_append (by simpa using here), ih]
        simp
      · rw [spelled, List.cons_append, List.cons_append, tokensFrom_text_escape,
          tokensFrom_text_append inner, ih]
        simp

/-- **The JSON text of a string is one token.** -/
theorem tokensFrom_quote (s : String) (rest : List Char) :
    tokensFrom .between ((quote s).toList ++ rest) =
      (tokensFrom .between rest).map (.text (s.toList.flatMap quoteChar) :: ·) := by
  have opens (cs : List Char) : tokensFrom .between ('\x22' :: cs) = tokensFrom (.text [] false) cs :=
    rfl
  have sound : (items? (s.toList.flatMap quoteChar)).isSome = true := by
    obtain ⟨items, written, -⟩ := Option.bind_eq_some_iff.mp (decode?_quoted s.toList)
    rw [written]
    rfl
  have closes : Cut.step (.text (s.toList.flatMap quoteChar).reverse false) '\x22' rest =
      some (some (.text (s.toList.flatMap quoteChar)), .between) := by
    simp [Cut.step, sound]
  have spelled : (quote s).toList ++ rest =
      '\x22' :: (s.toList.flatMap quoteChar ++ '\x22' :: rest) := by
    simp [quote]
  rw [spelled, opens, tokensFrom_text_quoted, List.append_nil, tokensFrom, closes]

/-! ## Documents -/

/-- **The string a document stands for**, if it is a text. -/
def string? (cs : List Char) : Option String :=
  match tokens? cs with
  | some [.text raw] => (decode? raw).map String.ofList
  | _ => none

/-- The strings of the rest of a list of texts. -/
def stringsFrom? : List Token → Option (List String)
  | [.text raw, .closing .list] => (decode? raw).map fun cs => [String.ofList cs]
  | .text raw :: .comma :: tokens =>
    (decode? raw).bind fun cs => (stringsFrom? tokens).map (String.ofList cs :: ·)
  | _ => none

/-- **The strings a document stands for**, if it is a list of texts. -/
def strings? (cs : List Char) : Option (List String) :=
  match tokens? cs with
  | some [.opening .list, .closing .list] => some []
  | some (.opening .list :: tokens) => stringsFrom? tokens
  | _ => none

/-- **The JSON text of a string is read as the string.** -/
theorem string?_quote (s : String) : string? (quote s).toList = some s := by
  have tokens : tokens? (quote s).toList = some [.text (s.toList.flatMap quoteChar)] := by
    have single := tokensFrom_quote s []
    rw [List.append_nil] at single
    rw [tokens?, single]
    rfl
  rw [string?, tokens]
  simp [decode?_quoted]

/-- The texts of a list are read one by one, up to the bracket behind them. -/
theorem exists_tokens_of_quotes (s : String) (items : List String) :
    ∃ tokens, tokensFrom .between ((",".intercalate ((s :: items).map quote)).toList ++ [']']) =
        some tokens ∧
      stringsFrom? tokens = some (s :: items) := by
  induction items generalizing s with
  | nil =>
      refine ⟨[.text (s.toList.flatMap quoteChar), .closing .list], ?_, ?_⟩
      · have alone : (",".intercalate ([s].map quote)).toList = (quote s).toList := by simp
        rw [alone, tokensFrom_quote]
        rfl
      · simp [stringsFrom?, decode?_quoted]
  | cons t items ih =>
      obtain ⟨tokens, cut, strings⟩ := ih t
      refine ⟨.text (s.toList.flatMap quoteChar) :: .comma :: tokens, ?_, ?_⟩
      · have comma : (",".intercalate ((s :: t :: items).map quote)).toList ++ [']'] =
            (quote s).toList ++
              ',' :: ((",".intercalate ((t :: items).map quote)).toList ++ [']']) := by
          simp [String.toList_intercalate]
        have behind (rest : List Char) : tokensFrom .between (',' :: rest) =
            (tokensFrom .between rest).map (.comma :: ·) := rfl
        rw [comma, tokensFrom_quote, behind, cut]
        rfl
      · simp [stringsFrom?, decode?_quoted, strings]

/-- **The JSON text of a list of strings is read as the list.** -/
theorem strings?_quoteAll (items : List String) : strings? (quoteAll items).toList = some items := by
  have opened (rest : List Char) : tokens? ('[' :: rest) =
      (tokensFrom .between rest).map (.opening .list :: ·) := rfl
  cases items with
  | nil => rfl
  | cons s items =>
      obtain ⟨tokens, cut, strings⟩ := exists_tokens_of_quotes s items
      have spelled : (quoteAll (s :: items)).toList =
          '[' :: ((",".intercalate ((s :: items).map quote)).toList ++ [']']) := by
        simp [quoteAll]
      -- the first token behind the bracket is a text
      have some_text : tokens ≠ [.closing .list] := by
        rintro rfl
        simp [stringsFrom?] at strings
      rw [strings?, spelled, opened, cut, Option.map_some]
      split <;> rename_i same
      · exact absurd (List.cons.inj (Option.some.inj same)).2 some_text
      · obtain ⟨-, rfl⟩ := List.cons.inj (Option.some.inj same)
        exact strings
      · exact absurd rfl (same tokens)

end ScriptBundle.Json
