import Mathlib.Data.List.Basic
import Mathlib.Tactic.Common
import ScriptBundle.Json.Document

/-! # The grammar of JSON documents

The tokens of a document, told without the machine that checks them: a value is a single token, or
values between brackets, parted by commas, and in a record each of them has a key in front. The
machine over tokens accepts exactly the values, so every document has a list of items or members that
can be spoken of.

* **`Json.IsValue`** — the tokens of a value;
* **`Position.Moves`, `Position.step_eq_some_iff`** — all that a step of the machine can do;
* **`Json.IsValue.foldlM_step`** — the machine passes over a value, whatever is open around it;
* **`Json.isValue_iff`** — the machine comes from the start to the end exactly over a value;
* **`Json.IsValue.eq_of_append_eq`, `Json.members_unique`** — no value is the beginning of another one,
  so a record has its members in one way only. -/

namespace ScriptBundle.Json

/-! ## Folds that can fail -/

section Folds

variable {σ α : Type} {f : σ → α → Option σ} {s t : σ} {a : α} {as bs : List α}

/-- A fold goes on from its first step. -/
theorem foldlM_cons_of_eq_some (h : f s a = some t) : (a :: as).foldlM f s = as.foldlM f t := by
  rw [List.foldlM_cons, h]
  rfl

/-- A fold goes on from where it has come to. -/
theorem foldlM_append_of_eq_some (h : as.foldlM f s = some t) :
    (as ++ bs).foldlM f s = bs.foldlM f t := by
  rw [List.foldlM_append, h]
  rfl

/-- A fold that comes to its end has taken its first step. -/
theorem exists_of_foldlM_cons (h : (a :: as).foldlM f s = some t) :
    ∃ between, f s a = some between ∧ as.foldlM f between = some t := by
  rw [List.foldlM_cons] at h
  exact Option.bind_eq_some_iff.mp h

end Folds

/-! ## Values -/

/-- A token that is a value by itself. -/
def Token.isScalar : Token → Bool
  | .text _ | .number _ | .null | .truth _ => true
  | _ => false

/-- **The tokens of some parts between brackets**, parted by commas. -/
def enclose (b : Bracket) : List (List Token) → List Token
  | [] => [.opening b, .closing b]
  | first :: rest => .opening b :: (first ++ rest.flatMap (.comma :: ·) ++ [.closing b])

/-- **A member of a record**: its key, as it is written, and the `tokens` of its value. -/
structure Member where
  /-- The key, as it stands between its quotes. -/
  key : List Char
  /-- The tokens of the value. -/
  value : List Token
deriving DecidableEq, Repr

/-- The `tokens` of a member. -/
def Member.tokens (member : Member) : List Token := .text member.key :: .colon :: member.value

/-- **The `tokens` of a value.** -/
inductive IsValue : List Token → Prop
  /-- A text, a number, a truth value or null. -/
  | scalar {token : Token} (h : token.isScalar = true) : IsValue [token]
  /-- A list of values. -/
  | list {items : List (List Token)} (h : ∀ item ∈ items, IsValue item) :
      IsValue (enclose .list items)
  /-- A record of members. -/
  | record {members : List Member} (h : ∀ member ∈ members, IsValue member.value) :
      IsValue (enclose .record (members.map Member.tokens))

variable {tokens part value rest : List Token} {parts : List (List Token)} {b : Bracket}
  {nest : List Bracket} {members : List Member}

/-! ## Parts -/

/-- **What stands between the commas**: a value in a list, a member in a record. -/
def IsPart : Bracket → List Token → Prop
  | .list, part => IsValue part
  | .record, part => ∃ member : Member, IsValue member.value ∧ member.tokens = part

/-- Parts of a record are the `tokens` of its members. -/
theorem exists_members (h : ∀ part ∈ parts, IsPart .record part) :
    ∃ members : List Member, parts = members.map Member.tokens ∧
      ∀ member ∈ members, IsValue member.value := by
  induction parts with
  | nil => exact ⟨[], rfl, by simp⟩
  | cons part rest ih =>
      obtain ⟨⟨member, value, rfl⟩, later⟩ := List.forall_mem_cons.mp h
      obtain ⟨members, rfl, all⟩ := ih later
      exact ⟨member :: members, rfl, List.forall_mem_cons.mpr ⟨value, all⟩⟩

/-- **Parts between brackets are a value.** -/
theorem IsPart.isValue_enclose (h : ∀ part ∈ parts, IsPart b part) : IsValue (enclose b parts) := by
  cases b with
  | list => exact .list h
  | record =>
      obtain ⟨members, rfl, all⟩ := exists_members h
      exact .record all

/-! ## Steps of the machine -/

namespace Position

/-- What is needed in front of a part. -/
def partNeed : Bracket → Need
  | .list => .value
  | .record => .key

/-- What is needed behind a bracket that opens. -/
def openNeed : Bracket → Need
  | .list => .valueOrEnd
  | .record => .keyOrEnd

/-- **What a step does.** -/
inductive Moves : Position → Token → Position → Prop
  /-- A bracket opens where a value may come. -/
  | opening {need : Need} (front : need = .value ∨ need = .valueOrEnd) (b : Bracket)
      (nest : List Bracket) : Moves ⟨need, nest⟩ (.opening b) ⟨openNeed b, b :: nest⟩
  /-- A single token is a value. -/
  | scalar {need : Need} (front : need = .value ∨ need = .valueOrEnd) {token : Token}
      (h : token.isScalar = true) (nest : List Bracket) :
      Moves ⟨need, nest⟩ token ⟨.afterValue, nest⟩
  /-- A bracket is closed at once, or behind a value. -/
  | closing {need : Need} {b : Bracket} (behind : need = openNeed b ∨ need = .afterValue)
      (nest : List Bracket) : Moves ⟨need, b :: nest⟩ (.closing b) ⟨.afterValue, nest⟩
  /-- A key. -/
  | key {need : Need} (front : need = .key ∨ need = .keyOrEnd) (raw : List Char)
      (nest : List Bracket) : Moves ⟨need, nest⟩ (.text raw) ⟨.colon, nest⟩
  /-- The colon behind a key. -/
  | colon (nest : List Bracket) : Moves ⟨.colon, nest⟩ .colon ⟨.value, nest⟩
  /-- A comma behind a value. -/
  | comma (b : Bracket) (nest : List Bracket) :
      Moves ⟨.afterValue, b :: nest⟩ .comma ⟨partNeed b, b :: nest⟩

variable {need : Need} {token : Token} {position next : Position}

/-- Where a value may come, `valueStep` does only what `Moves` allows. -/
theorem moves_of_valueStep (front : need = .value ∨ need = .valueOrEnd)
    (h : valueStep nest token = some next) : Moves ⟨need, nest⟩ token next := by
  unfold valueStep at h
  split at h
  · obtain rfl := Option.some.inj h
    exact .opening front .list nest
  · obtain rfl := Option.some.inj h
    exact .opening front .record nest
  · obtain rfl := Option.some.inj h
    exact .scalar front rfl nest
  · obtain rfl := Option.some.inj h
    exact .scalar front rfl nest
  · obtain rfl := Option.some.inj h
    exact .scalar front rfl nest
  · obtain rfl := Option.some.inj h
    exact .scalar front rfl nest
  · simp at h

/-- What `step` does, `Moves` allows. -/
theorem moves_of_step (h : step position token = some next) : Moves position token next := by
  obtain ⟨need, nest⟩ := position
  unfold step at h
  split at h
  · rename_i front
    exact moves_of_valueStep (.inl front) h
  · rename_i front inside
    obtain rfl : need = .valueOrEnd := front
    obtain rfl : nest = .list :: _ := inside
    obtain rfl := Option.some.inj h
    exact .closing (b := .list) (.inl rfl) _
  · rename_i front _
    exact moves_of_valueStep (.inr front) h
  · rename_i front inside
    obtain rfl : need = .keyOrEnd := front
    obtain rfl : nest = .record :: _ := inside
    obtain rfl := Option.some.inj h
    exact .closing (b := .record) (.inl rfl) _
  · rename_i front
    obtain rfl := Option.some.inj h
    exact .key (.inl front) _ _
  · rename_i front
    obtain rfl := Option.some.inj h
    exact .key (.inr front) _ _
  · rename_i front
    obtain rfl : need = .colon := front
    obtain rfl := Option.some.inj h
    exact .colon _
  · rename_i front inside
    obtain rfl : need = .afterValue := front
    obtain rfl : nest = .list :: _ := inside
    obtain rfl := Option.some.inj h
    exact .comma .list _
  · rename_i front inside
    obtain rfl : need = .afterValue := front
    obtain rfl : nest = .record :: _ := inside
    obtain rfl := Option.some.inj h
    exact .comma .record _
  · rename_i front inside
    obtain rfl : need = .afterValue := front
    obtain rfl : nest = .list :: _ := inside
    obtain rfl := Option.some.inj h
    exact .closing (.inr rfl) _
  · rename_i front inside
    obtain rfl : need = .afterValue := front
    obtain rfl : nest = .record :: _ := inside
    obtain rfl := Option.some.inj h
    exact .closing (.inr rfl) _
  · simp at h

/-- What `Moves` allows, `step` does. -/
theorem Moves.step_eq (h : Moves position token next) : step position token = some next := by
  cases h with
  | opening front b nest => rcases front with rfl | rfl <;> cases b <;> simp [step, valueStep, openNeed]
  | scalar front h nest =>
      cases token with
      | text | number | null | truth => rcases front with rfl | rfl <;> simp [step, valueStep]
      | opening | closing | comma | colon => exact absurd h Bool.false_ne_true
  | @closing _ b behind nest => rcases behind with rfl | rfl <;> cases b <;> rfl
  | key front raw nest => rcases front with rfl | rfl <;> simp [step]
  | colon nest => rfl
  | comma b nest => cases b <;> rfl

/-- **A step of the machine**, by what it does. -/
theorem step_eq_some_iff : step position token = some next ↔ Moves position token next :=
  ⟨moves_of_step, Moves.step_eq⟩

/-- A part may come at once behind a bracket that opens. -/
theorem Moves.of_partNeed (h : Moves ⟨partNeed b, nest⟩ token next) :
    Moves ⟨openNeed b, nest⟩ token next := by
  cases b with
  | list => cases h with
    | opening _ b nest => exact .opening (.inr rfl) b nest
    | scalar _ h nest => exact .scalar (.inr rfl) h nest
    | @closing _ b behind => cases b <;> simp [openNeed, partNeed] at behind
    | key front => simp [partNeed] at front
  | record => cases h with
    | opening front => simp [partNeed] at front
    | scalar front => simp [partNeed] at front
    | @closing _ b behind => cases b <;> simp [openNeed, partNeed] at behind
    | key _ raw nest => exact .key (.inr rfl) raw nest

/-- Behind a bracket that opens, the bracket is closed or a part comes. -/
theorem Moves.of_openNeed (h : Moves ⟨openNeed b, b :: nest⟩ token next) :
    (token = .closing b ∧ next = ⟨.afterValue, nest⟩) ∨ Moves ⟨partNeed b, b :: nest⟩ token next := by
  cases b with
  | list => cases h with
    | opening _ b => exact .inr (.opening (.inl rfl) b _)
    | scalar _ h => exact .inr (.scalar (.inl rfl) h _)
    | closing => exact .inl ⟨rfl, rfl⟩
    | key front => simp [openNeed] at front
  | record => cases h with
    | opening front => simp [openNeed] at front
    | scalar front => simp [openNeed] at front
    | closing => exact .inl ⟨rfl, rfl⟩
    | key _ raw => exact .inr (.key (.inl rfl) raw _)

/-- Behind a value comes a comma, or what is open is closed. -/
theorem Moves.of_afterValue (h : Moves ⟨.afterValue, b :: nest⟩ token next) :
    (token = .comma ∧ next = ⟨partNeed b, b :: nest⟩) ∨
      (token = .closing b ∧ next = ⟨.afterValue, nest⟩) := by
  cases h with
  | opening front => simp at front
  | scalar front => simp at front
  | closing => exact .inr ⟨rfl, rfl⟩
  | key front => simp at front
  | comma => exact .inl ⟨rfl, rfl⟩

/-- A value is a single token, or starts with a bracket. -/
theorem Moves.of_value (h : Moves ⟨.value, nest⟩ token next) :
    (token.isScalar = true ∧ next = ⟨.afterValue, nest⟩) ∨
      ∃ b, token = .opening b ∧ next = ⟨openNeed b, b :: nest⟩ := by
  cases h with
  | opening _ b => exact .inr ⟨b, rfl, rfl⟩
  | scalar _ h => exact .inl ⟨h, rfl⟩
  | @closing _ b behind => cases b <;> simp [openNeed] at behind
  | key front => simp at front

/-- Where a key is needed, the machine takes a text and then needs a colon. -/
theorem Moves.of_key (h : Moves ⟨.key, nest⟩ token next) :
    ∃ raw, token = .text raw ∧ next = ⟨.colon, nest⟩ := by
  cases h with
  | opening front => simp at front
  | scalar front => simp at front
  | @closing _ b behind => cases b <;> simp [openNeed] at behind
  | key _ raw => exact ⟨raw, rfl, rfl⟩

/-- Where a colon is needed, it is the only token the machine takes. -/
theorem Moves.of_colon (h : Moves ⟨.colon, nest⟩ token next) :
    token = .colon ∧ next = ⟨.value, nest⟩ := by
  cases h with
  | opening front => simp at front
  | scalar front => simp at front
  | @closing _ b behind => cases b <;> simp [openNeed] at behind
  | key front => simp at front
  | colon => exact ⟨rfl, rfl⟩

/-- **A step inside open brackets** is the same without those around them. -/
theorem Moves.append_nest (h : Moves ⟨need, nest⟩ token next) (base : List Bracket) :
    Moves ⟨need, nest ++ base⟩ token ⟨next.need, next.nest ++ base⟩ := by
  cases h with
  | opening front b => exact .opening front b _
  | scalar front h => exact .scalar front h _
  | closing behind => exact .closing behind _
  | key front raw => exact .key front raw _
  | colon => exact .colon _
  | comma b => exact .comma b _

/-- The outermost bracket is closed only at the end of a document. -/
theorem Moves.eq_complete (h : Moves ⟨need, nest⟩ token next) (inside : nest ≠ [])
    (outside : next.nest = []) : next = complete := by
  cases h with
  | opening => simp at outside
  | closing => exact congrArg (Position.mk .afterValue) outside
  | scalar | key | colon | comma => exact absurd outside inside

end Position

/-! ## From the grammar to the machine -/

open Position

/-- The machine passes over later `parts`, if it passes over each of them. -/
theorem foldlM_step_later (each : ∀ part ∈ parts,
      part.foldlM step ⟨partNeed b, b :: nest⟩ = some ⟨.afterValue, b :: nest⟩) :
    (parts.flatMap (.comma :: ·)).foldlM step ⟨.afterValue, b :: nest⟩ =
      some ⟨.afterValue, b :: nest⟩ := by
  induction parts with
  | nil => rfl
  | cons part rest ih =>
      obtain ⟨here, each⟩ := List.forall_mem_cons.mp each
      rw [List.flatMap_cons, List.cons_append, foldlM_cons_of_eq_some (Moves.comma b nest).step_eq,
        foldlM_append_of_eq_some here]
      exact ih each

/-- The machine passes over a first `part` as over a later one. -/
theorem foldlM_step_first
    (here : part.foldlM step ⟨partNeed b, b :: nest⟩ = some ⟨.afterValue, b :: nest⟩) :
    part.foldlM step ⟨openNeed b, b :: nest⟩ = some ⟨.afterValue, b :: nest⟩ := by
  cases part with
  | nil => cases b <;> simp [partNeed] at here
  | cons token rest =>
      obtain ⟨next, e, here⟩ := exists_of_foldlM_cons here
      rw [foldlM_cons_of_eq_some (moves_of_step e).of_partNeed.step_eq]
      exact here

/-- The machine passes over `parts` between brackets, if it passes over each of them. -/
theorem foldlM_step_enclose (each : ∀ part ∈ parts,
      part.foldlM step ⟨partNeed b, b :: nest⟩ = some ⟨.afterValue, b :: nest⟩) :
    (enclose b parts).foldlM step ⟨.value, nest⟩ = some ⟨.afterValue, nest⟩ := by
  have opens := (Moves.opening (.inl rfl) b nest).step_eq
  cases parts with
  | nil =>
      have closes := (Moves.closing (b := b) (.inl rfl) nest).step_eq
      rw [enclose, foldlM_cons_of_eq_some opens, foldlM_cons_of_eq_some closes]
      rfl
  | cons first rest =>
      obtain ⟨here, later⟩ := List.forall_mem_cons.mp each
      have behind : (rest.flatMap (.comma :: ·)).foldlM step ⟨.afterValue, b :: nest⟩ =
          some ⟨.afterValue, b :: nest⟩ := foldlM_step_later later
      have closes := (Moves.closing (b := b) (.inr rfl) nest).step_eq
      rw [enclose, foldlM_cons_of_eq_some opens, List.append_assoc,
        foldlM_append_of_eq_some (foldlM_step_first here), foldlM_append_of_eq_some behind,
        foldlM_cons_of_eq_some closes]
      rfl

/-- **The machine passes over a value**, whatever is open around it. -/
theorem IsValue.foldlM_step (h : IsValue value) (nest : List Bracket) :
    value.foldlM step ⟨.value, nest⟩ = some ⟨.afterValue, nest⟩ := by
  induction h generalizing nest with
  | scalar h => exact foldlM_cons_of_eq_some (Moves.scalar (.inl rfl) h nest).step_eq
  | list all ih => exact foldlM_step_enclose fun item hitem => ih item hitem _
  | record all ih =>
      refine foldlM_step_enclose fun part hpart => ?_
      obtain ⟨member, hmember, rfl⟩ := List.mem_map.mp hpart
      exact ih member hmember _

/-! ## From the machine to the grammar -/

/-- The machine comes over some `tokens` to the end of a document. -/
def Ends (position : Position) (tokens : List Token) : Prop :=
  tokens.foldlM step position = some complete

/-- **Tokens start with a value** where one is needed, if they are no more than `n`. -/
def ValuesSplit (n : Nat) : Prop :=
  ∀ tokens nest, tokens.length ≤ n → Ends ⟨.value, nest⟩ tokens →
    ∃ value behind, tokens = value ++ behind ∧ IsValue value ∧ Ends ⟨.afterValue, nest⟩ behind

/-- **Tokens start with later parts** and a closing bracket where some are open, if they are no more than
`n`. -/
def PartsSplit (n : Nat) : Prop :=
  ∀ tokens b nest, tokens.length ≤ n → Ends ⟨.afterValue, b :: nest⟩ tokens →
    ∃ (parts : List (List Token)) (behind : List Token),
      tokens = parts.flatMap (.comma :: ·) ++ .closing b :: behind ∧
      (∀ part ∈ parts, IsPart b part) ∧ Ends ⟨.afterValue, nest⟩ behind

variable {n : Nat}

/-- Tokens start with a `part` where one is needed. -/
theorem ValuesSplit.exists_part (values : ValuesSplit n) (few : tokens.length ≤ n)
    (h : Ends ⟨partNeed b, b :: nest⟩ tokens) :
    ∃ part behind, tokens = part ++ behind ∧ IsPart b part ∧ Ends ⟨.afterValue, b :: nest⟩ behind := by
  cases b with
  | list => exact values tokens _ few h
  | record =>
      cases tokens with
      | nil => simp [Ends, partNeed, complete] at h
      | cons token rest =>
          obtain ⟨next, e, h⟩ := exists_of_foldlM_cons h
          obtain ⟨raw, rfl, rfl⟩ := (moves_of_step e).of_key
          cases rest with
          | nil => simp [complete] at h
          | cons token rest =>
              obtain ⟨next, e, h⟩ := exists_of_foldlM_cons h
              obtain ⟨rfl, rfl⟩ := (moves_of_step e).of_colon
              have fewer : rest.length ≤ n := by
                simp only [List.length_cons] at few
                omega
              obtain ⟨value, behind, rfl, hvalue, h⟩ := values rest _ fewer h
              exact ⟨_, behind, rfl, ⟨⟨raw, value⟩, hvalue, rfl⟩, h⟩

/-- A `part` and later parts in front of a closing bracket. -/
theorem ValuesSplit.exists_parts (values : ValuesSplit n) (parts : PartsSplit n)
    (few : tokens.length ≤ n) (h : Ends ⟨partNeed b, b :: nest⟩ tokens) :
    ∃ (first : List Token) (rest : List (List Token)) (behind : List Token),
      tokens = first ++ rest.flatMap (.comma :: ·) ++ .closing b :: behind ∧
      (∀ part ∈ first :: rest, IsPart b part) ∧ Ends ⟨.afterValue, nest⟩ behind := by
  obtain ⟨first, between, rfl, hfirst, h⟩ := values.exists_part few h
  have fewer : between.length ≤ n := by
    simp only [List.length_append] at few
    omega
  obtain ⟨rest, behind, rfl, hrest, h⟩ := parts between b nest fewer h
  exact ⟨first, rest, behind, by simp, List.forall_mem_cons.mpr ⟨hfirst, hrest⟩, h⟩

/-- If values of a size are told from what follows them, so are lists of `parts` of the next size. -/
theorem ValuesSplit.partsSplit_succ (values : ValuesSplit n) (parts : PartsSplit n) :
    PartsSplit (n + 1) := by
  intro tokens b nest few h
  cases tokens with
  | nil => simp [Ends, complete] at h
  | cons token rest =>
      obtain ⟨next, e, h⟩ := exists_of_foldlM_cons h
      rcases (moves_of_step e).of_afterValue with ⟨rfl, rfl⟩ | ⟨rfl, rfl⟩
      · obtain ⟨first, others, behind, rfl, all, h⟩ :=
          values.exists_parts parts (Nat.le_of_succ_le_succ few) h
        exact ⟨first :: others, behind, by simp, all, h⟩
      · exact ⟨[], rest, rfl, by simp, h⟩

/-- If values and `parts` of a size are told from what follows them, so are values of the next size. -/
theorem ValuesSplit.succ (values : ValuesSplit n) (parts : PartsSplit n) : ValuesSplit (n + 1) := by
  intro tokens nest few h
  cases tokens with
  | nil => simp [Ends, complete] at h
  | cons token rest =>
      obtain ⟨next, e, h⟩ := exists_of_foldlM_cons h
      rcases (moves_of_step e).of_value with ⟨scalar, rfl⟩ | ⟨b, rfl, rfl⟩
      · exact ⟨[token], rest, rfl, .scalar scalar, h⟩
      -- the bracket is closed at once, or there is a part
      cases rest with
      | nil => cases b <;> simp [openNeed, complete] at h
      | cons token rest =>
          obtain ⟨next, e, behind⟩ := exists_of_foldlM_cons h
          rcases (moves_of_step e).of_openNeed with ⟨rfl, rfl⟩ | moves
          · exact ⟨enclose b [], rest, rfl, IsPart.isValue_enclose (by simp), behind⟩
          · have entered : Ends ⟨partNeed b, b :: nest⟩ (token :: rest) := by
              rw [Ends, foldlM_cons_of_eq_some moves.step_eq]
              exact behind
            obtain ⟨first, others, behind, whole, all, h⟩ :=
              values.exists_parts parts (Nat.le_of_succ_le_succ few) entered
            refine ⟨enclose b (first :: others), behind, ?_, IsPart.isValue_enclose all, h⟩
            rw [whole]
            simp [enclose]

/-- **Tokens over which the machine comes to its end** start with what it needs. -/
theorem valuesSplit_and_partsSplit (n : Nat) : ValuesSplit n ∧ PartsSplit n := by
  induction n with
  | zero =>
      constructor
      · intro tokens nest few h
        obtain rfl := List.eq_nil_of_length_eq_zero (Nat.le_zero.mp few)
        simp [Ends, complete] at h
      · intro tokens b nest few h
        obtain rfl := List.eq_nil_of_length_eq_zero (Nat.le_zero.mp few)
        simp [Ends, complete] at h
  | succ n ih => exact ⟨ih.1.succ ih.2, ih.1.partsSplit_succ ih.2⟩

/-- Nothing follows a complete document. -/
theorem eq_nil_of_complete (h : tokens.foldlM step .complete = some .complete) : tokens = [] := by
  cases tokens with
  | nil => rfl
  | cons token rest =>
      obtain ⟨next, e, -⟩ := exists_of_foldlM_cons h
      exact absurd (e.symm.trans (step_complete token)) (Option.some_ne_none next)

/-- **The machine accepts exactly the values.** -/
theorem isValue_iff : IsValue tokens ↔ tokens.foldlM step .start = some .complete := by
  constructor
  · exact fun h => h.foldlM_step []
  · intro h
    obtain ⟨value, behind, rfl, hvalue, h⟩ := (valuesSplit_and_partsSplit _).1 tokens [] (Nat.le_refl _) h
    obtain rfl := eq_nil_of_complete h
    rwa [List.append_nil]

/-! ## One reading only -/

/-- Nothing follows a value in a value that starts with it. -/
theorem IsValue.eq_nil_of_append (h : IsValue value) (h' : IsValue (value ++ rest)) : rest = [] := by
  have whole := isValue_iff.mp h'
  rw [foldlM_append_of_eq_some (isValue_iff.mp h)] at whole
  exact eq_nil_of_complete whole

/-- **No value is the beginning of another one.** -/
theorem IsValue.eq_of_append_eq {value' rest' : List Token} (h : IsValue value) (h' : IsValue value')
    (same : value ++ rest = value' ++ rest') : value = value' ∧ rest = rest' := by
  rcases List.append_eq_append_iff.mp same with ⟨more, rfl, rfl⟩ | ⟨more, rfl, rfl⟩
  · obtain rfl := h.eq_nil_of_append h'
    simp
  · obtain rfl := h'.eq_nil_of_append h
    simp

/-- Members that are spelled by the same `tokens` in front of something are the same. -/
theorem Member.eq_of_append_eq {member member' : Member} {rest' : List Token}
    (h : IsValue member.value) (h' : IsValue member'.value)
    (same : member.tokens ++ rest = member'.tokens ++ rest') : member = member' ∧ rest = rest' := by
  obtain ⟨key, same⟩ := List.cons.inj same
  obtain ⟨value, behind⟩ := h.eq_of_append_eq h' (List.cons.inj same).2
  refine ⟨?_, behind⟩
  cases member
  cases member'
  exact congrArg₂ Member.mk (Token.text.inj key) value

/-- Later members in front of a closing bracket are told by their `tokens`. -/
theorem later_members_unique {members' : List Member}
    (h : ∀ member ∈ members, IsValue member.value) (h' : ∀ member ∈ members', IsValue member.value)
    (same : (members.map Member.tokens).flatMap (.comma :: ·) ++ [.closing .record] =
      (members'.map Member.tokens).flatMap (.comma :: ·) ++ [.closing .record]) :
    members = members' := by
  induction members generalizing members' with
  | nil =>
      cases members' with
      | nil => rfl
      | cons first rest => exact Token.noConfusion (List.cons.inj same).1
  | cons first rest ih =>
      cases members' with
      | nil => exact Token.noConfusion (List.cons.inj same).1
      | cons first' rest' =>
          obtain ⟨value, all⟩ := List.forall_mem_cons.mp h
          obtain ⟨value', all'⟩ := List.forall_mem_cons.mp h'
          simp only [List.map_cons, List.flatMap_cons, List.append_assoc, List.cons_append,
            List.cons.injEq, true_and] at same
          obtain ⟨rfl, behind⟩ := Member.eq_of_append_eq value value' same
          rw [ih all all' behind]

/-- **A record has its members in one way only.** -/
theorem members_unique {members' : List Member} (h : ∀ member ∈ members, IsValue member.value)
    (h' : ∀ member ∈ members', IsValue member.value)
    (same : enclose .record (members.map Member.tokens) =
      enclose .record (members'.map Member.tokens)) : members = members' := by
  cases members with
  | nil =>
      cases members' with
      | nil => rfl
      | cons first rest => exact Token.noConfusion (List.cons.inj (List.cons.inj same).2).1
  | cons first rest =>
      cases members' with
      | nil => exact Token.noConfusion (List.cons.inj (List.cons.inj same).2).1
      | cons first' rest' =>
          -- the first members too stand behind commas if these are put in front of them
          refine later_members_unique h h' ?_
          have inside := congrArg (Token.comma :: ·) (List.cons.inj same).2
          simpa using inside

end ScriptBundle.Json
