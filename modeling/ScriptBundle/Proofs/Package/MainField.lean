import ScriptBundle.Package.Manifest
import ScriptBundle.Proofs.Json.Grammar

/-! # The `main` of a manifest

A manifest is read token by token, and only what stands in its outermost record is looked at. Told by
the members of the record, the reading asks for keys that can be decoded, and for one member named
`main`, whose value is a text:

* **`Manifest.Reading.member`** — the reading of a member, in one step;
* **`Manifest.foldlM_step_record`** — the reading of a record is that of its members;
* **`Manifest.mainOfTokens?_record_eq_some_iff`** — the `main` of a record. -/

namespace ScriptBundle

namespace Json

/-- Whether a member has a name. Keys may be spelled with escapes. -/
def Member.isNamed (name : String) (member : Member) : Bool :=
  decode? member.key == some name.toList

end Json

namespace Manifest

open Json
open Json.Position (moves_of_step)

variable {reading : Reading} {token : Token} {tokens value : List Token} {nest : List Bracket}
  {need : Need} {key chars : List Char} {main : Option (Option (List Char))} {members : List Member}

/-! ## Readings -/

/-- Inside the values of a manifest the reading only moves. -/
theorem Reading.step_of_inside (inside : reading.position.nest ≠ [.record]) :
    reading.step token = (reading.position.step token).map ({ reading with position := · }) := by
  unfold Reading.step
  cases reading.position.step token with
  | none => rfl
  | some next =>
      dsimp only [Option.bind_eq_bind, Option.bind_some]
      rw [if_pos inside]
      rfl

/-- **What stands inside a value is passed over.** -/
theorem foldlM_step_inside (h : tokens.foldlM Position.step ⟨need, nest⟩ = some .complete)
    (inside : nest ≠ []) :
    tokens.foldlM Reading.step ⟨⟨need, nest ++ [.record]⟩, key, main⟩ =
      some ⟨⟨.afterValue, [.record]⟩, key, main⟩ := by
  induction tokens generalizing need nest with
  | nil => exact absurd (congrArg Position.nest (Option.some.inj h)) inside
  | cons token rest ih =>
      obtain ⟨next, e, h⟩ := exists_of_foldlM_cons h
      have moved : (Reading.mk ⟨need, nest ++ [.record]⟩ key main).step token =
          some ⟨⟨next.need, next.nest ++ [.record]⟩, key, main⟩ := by
        rw [Reading.step_of_inside (by simpa using inside), (moves_of_step e).append_nest [.record] |>.step_eq]
        rfl
      rw [foldlM_cons_of_eq_some moved]
      by_cases outside : next.nest = []
      · -- the value is over, so no token is left
        obtain rfl := (moves_of_step e).eq_complete inside outside
        obtain rfl := eq_nil_of_complete h
        rfl
      · exact ih h outside

/-- **The reading of a value of `main`**: it has to be the first one, and a text or null. -/
def readMain (main : Option (Option (List Char))) (value : List Token) :
    Option (Option (Option (List Char))) :=
  if main.isSome then none
  else match value with
    | [token] => (mainValue? token).map some
    | _ => none

/-- A value of one token gives what `mainValue?` makes of the token. -/
theorem readMain_single (token : Token) : readMain none [token] = (mainValue? token).map some := rfl

/-- **The reading of a member**: its key has to be decoded, and a value of `main` is read. -/
def Reading.member (reading : Reading) (member : Member) : Option Reading :=
  (decode? member.key).bind fun key =>
    if key ≠ "main".toList then some ⟨⟨.afterValue, [.record]⟩, key, reading.main⟩
    else (readMain reading.main member.value).map (⟨⟨.afterValue, [.record]⟩, key, ·⟩)

/-- The key of a member has to be decoded. -/
theorem Reading.step_key (front : need = .key ∨ need = .keyOrEnd) (raw : List Char) :
    (Reading.mk ⟨need, [.record]⟩ key main).step (.text raw) =
      (decode? raw).map (⟨⟨.colon, [.record]⟩, ·, main⟩) := by
  rcases front with rfl | rfl
  · cases decoded : decode? raw <;> simp [Reading.step, Position.step, decoded]
  · cases decoded : decode? raw <;> simp [Reading.step, Position.step, decoded]

/-- The value of a member is looked at if it is a first `main`. -/
theorem Reading.step_value {next : Position} (e : Position.step ⟨.value, [.record]⟩ token = some next) :
    (Reading.mk ⟨.value, [.record]⟩ key main).step token =
      if key ≠ "main".toList then some ⟨next, key, main⟩
      else if main.isSome then none
      else (mainValue? token).map (⟨next, key, some ·⟩) := by
  unfold Reading.step
  rw [e]
  dsimp only [Option.bind_eq_bind, Option.bind_some]
  by_cases named : key ≠ "main".toList
  · rw [if_neg (not_not_intro rfl), if_pos named, if_pos named]
    rfl
  · rw [if_neg (not_not_intro rfl), if_neg named, if_neg named]
    cases main with
    | none => cases mainValue? token <;> rfl
    | some read => rfl

/-- **The value of a member is read** token by token. -/
theorem foldlM_step_value (h : IsValue value) :
    value.foldlM Reading.step ⟨⟨.value, [.record]⟩, key, main⟩ =
      if key ≠ "main".toList then some ⟨⟨.afterValue, [.record]⟩, key, main⟩
      else (readMain main value).map (⟨⟨.afterValue, [.record]⟩, key, ·⟩) := by
  have whole := h.foldlM_step []
  cases value with
  | nil => simp at whole
  | cons token rest =>
      obtain ⟨next, e, behind⟩ := exists_of_foldlM_cons whole
      have moves := ((moves_of_step e).append_nest [.record]).step_eq
      rw [List.foldlM_cons, Reading.step_value moves]
      rcases (moves_of_step e).of_value with ⟨scalar, rfl⟩ | ⟨b, rfl, rfl⟩
      · -- a single token is all of the value
        obtain rfl := eq_nil_of_complete behind
        split
        · rfl
        · cases main with
          | some read => rfl
          | none =>
              rw [readMain_single]
              cases mainValue? token with
              | none => rfl
              | some read => rfl
      · split
        · exact foldlM_step_inside behind (List.cons_ne_nil b [])
        · cases main with
          | some read => rfl
          | none => cases rest with
            | nil => rfl
            | cons => rfl

/-- A member is read token by token. -/
theorem foldlM_step_member {member : Member} (front : need = .key ∨ need = .keyOrEnd)
    (h : IsValue member.value) :
    member.tokens.foldlM Reading.step ⟨⟨need, [.record]⟩, key, main⟩ =
      (Reading.mk ⟨need, [.record]⟩ key main).member member := by
  rw [Member.tokens, List.foldlM_cons, Reading.step_key front, Reading.member]
  cases decode? member.key with
  | none => rfl
  | some key =>
      have parted : (Reading.mk ⟨.colon, [.record]⟩ key main).step .colon =
          some ⟨⟨.value, [.record]⟩, key, main⟩ := rfl
      rw [Option.map_some, Option.bind_eq_bind, Option.bind_some, foldlM_cons_of_eq_some parted,
        foldlM_step_value h]
      rfl

/-- A reading is behind the value of a member then. -/
theorem Reading.position_of_member {member : Member} {next : Reading}
    (h : reading.member member = some next) : next.position = ⟨.afterValue, [.record]⟩ := by
  obtain ⟨key, -, h⟩ := Option.bind_eq_some_iff.mp h
  split at h
  · rw [← Option.some.inj h]
  · obtain ⟨read, -, rfl⟩ := Option.map_eq_some_iff.mp h
    rfl

/-- A `Reading` that goes over whole members stays in the record they are in. -/
theorem Reading.position_of_foldlM_member {last : Reading}
    (behind : reading.position = ⟨.afterValue, [.record]⟩)
    (h : members.foldlM Reading.member reading = some last) :
    last.position = ⟨.afterValue, [.record]⟩ := by
  induction members generalizing reading with
  | nil => exact Option.some.inj h ▸ behind
  | cons member rest ih =>
      obtain ⟨next, first, later⟩ := exists_of_foldlM_cons h
      exact ih (position_of_member first) later

/-- Later members are read one after the other. -/
theorem foldlM_step_later_members (h : ∀ member ∈ members, IsValue member.value)
    (behind : reading.position = ⟨.afterValue, [.record]⟩) :
    ((members.map Member.tokens).flatMap (.comma :: ·)).foldlM Reading.step reading =
      members.foldlM Reading.member reading := by
  induction members generalizing reading with
  | nil => rfl
  | cons member rest ih =>
      obtain ⟨value, all⟩ := List.forall_mem_cons.mp h
      obtain ⟨position, key, main⟩ := reading
      obtain rfl : position = ⟨.afterValue, [.record]⟩ := behind
      have comma : (Reading.mk ⟨.afterValue, [.record]⟩ key main).step .comma =
          some ⟨⟨.key, [.record]⟩, key, main⟩ := rfl
      have same : (Reading.mk ⟨.key, [.record]⟩ key main).member member =
          (Reading.mk ⟨.afterValue, [.record]⟩ key main).member member := rfl
      rw [List.map_cons, List.flatMap_cons, List.cons_append, foldlM_cons_of_eq_some comma,
        List.foldlM_append, foldlM_step_member (.inl rfl) value, same, List.foldlM_cons]
      cases read : (Reading.mk ⟨.afterValue, [.record]⟩ key main).member member with
      | none => rfl
      | some next => exact ih all (Reading.position_of_member read)

/-- **The reading of a record** is that of its members. -/
theorem foldlM_step_record (h : ∀ member ∈ members, IsValue member.value) :
    (enclose .record (members.map Member.tokens)).foldlM Reading.step .start =
      (members.foldlM Reading.member .start).map ({ · with position := .complete }) := by
  cases members with
  | nil => rfl
  | cons first rest =>
      obtain ⟨value, all⟩ := List.forall_mem_cons.mp h
      have opens : Reading.start.step (.opening .record) =
          some ⟨⟨.keyOrEnd, [.record]⟩, [], none⟩ := rfl
      have same : (Reading.mk ⟨.keyOrEnd, [.record]⟩ [] none).member first =
          Reading.start.member first := rfl
      rw [List.map_cons, enclose, foldlM_cons_of_eq_some opens, List.append_assoc, List.foldlM_append,
        foldlM_step_member (.inr rfl) value, same, List.foldlM_cons]
      cases read : Reading.start.member first with
      | none => rfl
      | some next =>
          have behind := Reading.position_of_member read
          rw [Option.bind_eq_bind, Option.bind_some, List.foldlM_append,
            foldlM_step_later_members all behind]
          change _ = Option.map _ (rest.foldlM Reading.member next)
          cases later : rest.foldlM Reading.member next with
          | none => rfl
          | some last =>
              obtain ⟨position, key, main⟩ := last
              obtain rfl := Reading.position_of_foldlM_member behind later
              rfl

/-! ## Members named `main` -/

/-- **The `main` that is read from some members**: the keys of all have to be decoded, and the values of
those named `main` are read. -/
theorem map_main_foldlM_member (reading : Reading) :
    (members.foldlM Reading.member reading).map (·.main) =
      if members.all (fun member => (decode? member.key).isSome) then
        ((members.filter (·.isNamed "main")).map Member.value).foldlM readMain reading.main
      else none := by
  induction members generalizing reading with
  | nil => rfl
  | cons member rest ih =>
      rw [List.foldlM_cons, Reading.member, List.all_cons]
      cases decoded : decode? member.key with
      | none => rfl
      | some key =>
          rw [Option.bind_some, Option.isSome_some, Bool.true_and]
          by_cases named : key = "main".toList
          · have counts : member.isNamed "main" = true := by
              rw [Member.isNamed, decoded, named]
              exact beq_self_eq_true _
            rw [if_neg (not_not.mpr named), List.filter_cons_of_pos counts, List.map_cons,
              List.foldlM_cons]
            cases readMain reading.main member.value with
            | none => simp
            | some main => exact ih ⟨⟨.afterValue, [.record]⟩, key, main⟩
          · have passed : ¬member.isNamed "main" = true := by
              rw [Member.isNamed, decoded]
              simpa using named
            rw [if_pos named, List.filter_cons_of_neg passed]
            exact ih ⟨⟨.afterValue, [.record]⟩, key, reading.main⟩

/-- A single text or null is read as it is. -/
theorem mainValue?_eq_some_iff :
    mainValue? token = some (some chars) ↔ ∃ raw, token = .text raw ∧ decode? raw = some chars := by
  cases token with
  | text raw => simp [mainValue?]
  | _ => simp [mainValue?]

/-- **Only a single value of `main` can be read.** -/
theorem foldlM_readMain_eq_some_iff {values : List (List Token)} :
    values.foldlM readMain none = some (some (some chars)) ↔
      ∃ raw, values = [[.text raw]] ∧ decode? raw = some chars := by
  cases values with
  | nil => simp
  | cons value rest =>
      rw [List.foldlM_cons]
      constructor
      · intro h
        obtain ⟨main, first, later⟩ := Option.bind_eq_some_iff.mp h
        unfold readMain at first
        simp only [Option.isSome_none, Bool.false_eq_true, if_false] at first
        split at first
        · rename_i token
          obtain ⟨read, value, rfl⟩ := Option.map_eq_some_iff.mp first
          cases rest with
          | nil =>
              obtain rfl := Option.some.inj (Option.some.inj later)
              obtain ⟨raw, rfl, decoded⟩ := mainValue?_eq_some_iff.mp value
              exact ⟨raw, rfl, decoded⟩
          | cons => simp [readMain] at later
        · simp at first
      · rintro ⟨raw, e, decoded⟩
        obtain ⟨rfl, rfl⟩ := List.cons.inj e
        rw [readMain_single, mainValue?_eq_some_iff.mpr ⟨raw, rfl, decoded⟩]
        rfl

/-- The `main` of a record is what the reading of its members gives. -/
theorem mainOfTokens?_record (h : ∀ member ∈ members, IsValue member.value) :
    mainOfTokens? (enclose .record (members.map Member.tokens)) =
      ((members.foldlM Reading.member .start).map (·.main)).bind Option.join := by
  obtain ⟨rest, opens⟩ : ∃ rest, enclose .record (members.map Member.tokens) =
      .opening .record :: rest := by
    cases members <;> exact ⟨_, rfl⟩
  have whole := foldlM_step_record h
  rw [opens] at whole ⊢
  rw [mainOfTokens?, whole]
  cases members.foldlM Reading.member .start with
  | none => rfl
  | some last => rfl

/-- **The `main` of a record** is the text of its only member of this name, and there is one if the keys
of all members can be decoded. -/
theorem mainOfTokens?_record_eq_some_iff (h : ∀ member ∈ members, IsValue member.value) :
    mainOfTokens? (enclose .record (members.map Member.tokens)) = some chars ↔
      (∀ member ∈ members, (decode? member.key).isSome = true) ∧
        ∃ raw, (members.filter (·.isNamed "main")).map Member.value = [[.text raw]] ∧
          decode? raw = some chars := by
  have join : ∀ main : Option (Option (Option (List Char))),
      main.bind Option.join = some chars ↔ main = some (some (some chars)) := by
    rintro (_ | _ | _ | main) <;> simp
  rw [mainOfTokens?_record h, map_main_foldlM_member, join]
  split
  · rename_i keys
    rw [and_iff_right (List.all_eq_true.mp keys)]
    exact foldlM_readMain_eq_some_iff
  · rename_i spoilt
    exact iff_of_false (Option.some_ne_none _).symm fun both =>
      spoilt (List.all_eq_true.mpr both.1)

end Manifest

end ScriptBundle
