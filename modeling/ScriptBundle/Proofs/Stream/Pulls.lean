import Mathlib.Data.List.Basic
import ScriptBundle.Proofs.Walk.Drain

/-! # Pulls

A chunk stream pulled again and again. Every chunk has bytes, the first pull without a chunk is the
last one that changes anything, and only the end of the artifact or a failure lets a stream finish:

* **`ChunkStream.after`, `ChunkStream.pull`, `ChunkStream.bytesTo`** — the stream behind some pulls,
  what a pull gives, and the bytes behind some pulls;
* **`encode_chunk_ne_nil`** — no chunk is empty;
* **`exists_pulls_of_all`, `all_of_pulls`** — all chunks of a stream, by its pulls;
* **`bytesTo_of_done`, `exists_pull_of_done`** — a finished stream, and how it came to finish. -/

namespace ScriptBundle

/-- A substitution keeps a first character that the pattern does not start with. -/
theorem Text.substitute_cons_of_ne {p c : Char} (h : p ≠ c) (pattern replacement cs : List Char) :
    Text.substitute (p :: pattern) replacement (c :: cs) =
      c :: Text.substitute (p :: pattern) replacement cs := by
  have differs : (p == c) = false := by simpa using h
  simp [Text.substitute, Text.substituteFrom, List.isPrefixOf, differs]

/-- Every character is at least one byte. -/
theorem Utf8.encode_ne_nil {cs : List Char} (h : cs ≠ []) : Utf8.encode cs ≠ [] := by
  obtain ⟨c, rest, rfl⟩ := List.exists_cons_of_ne_nil h
  have first : String.utf8EncodeChar c ≠ [] := by
    have := c.utf8Size_pos
    rw [ne_eq, ← List.length_eq_zero_iff, String.length_utf8EncodeChar]
    omega
  simp [Utf8.encode, first]

namespace Artifact

/-- The text of the loader starts with a comment. -/
theorem toList_text_ne_nil : ∃ cs, Loader.text.toList = '/' :: cs := by
  refine ⟨?_, ?_⟩
  rotate_left
  · rw [Loader.text, Loader.lines, List.map_cons, String.join_cons, String.toList_append,
      String.toList_append]
    rfl

/-- The head of an artifact starts with the first character of the loader. -/
theorem toList_header_ne_nil (a : Artifact) : a.header.toList ≠ [] := by
  obtain ⟨cs, first⟩ := toList_text_ne_nil
  have entry : ∃ mark, Loader.entryMark.toList = '_' :: mark := ⟨_, rfl⟩
  have hosts : ∃ mark, Loader.hostModulesMark.toList = '_' :: mark := ⟨_, rfl⟩
  have extensions : ∃ mark, Loader.extensionsMark.toList = '_' :: mark := ⟨_, rfl⟩
  have differs : '_' ≠ '/' := by decide
  obtain ⟨mark₁, entry⟩ := entry
  obtain ⟨mark₂, hosts⟩ := hosts
  obtain ⟨mark₃, extensions⟩ := extensions
  simp only [header, Text.replaceAll, String.toList_ofList, first, entry, hosts, extensions,
    Text.substitute_cons_of_ne differs]
  exact List.cons_ne_nil _ _

/-- The opening of a block starts with a line end. -/
theorem toList_opening_ne_nil (identity : Identity) : (opening identity).toList ≠ [] := by
  -- the equation of `opening` is slow to make, its literals being long
  delta opening
  rw [String.toList_append, String.toList_append, String.toList_append, String.toList_append]
  have first : "\n/** module: ".toList ≠ [] := by decide
  simp only [ne_eq, List.append_eq_nil_iff, first, false_and, not_false_eq_true]

/-- No `block` of a module is empty. -/
theorem toList_block_ne_nil (identity : Identity) (source : String) :
    (block identity source).toList ≠ [] := by
  rw [toList_block]
  exact fun e => toList_opening_ne_nil identity
    (List.append_eq_nil_iff.mp (List.append_eq_nil_iff.mp e).1).1

/-- The `footer` of an artifact is not empty. -/
theorem toList_footer_ne_nil : footer.toList ≠ [] := by
  have full : footer ≠ "" := by decide +kernel
  simpa using full

end Artifact

namespace ChunkStream

variable {P : Project} {s : ChunkStream} {k j : Nat} {chunk : String}

/-- **The stream behind some pulls.** -/
def after (P : Project) (s : ChunkStream) : Nat → ChunkStream
  | 0 => s
  | k + 1 => ((s.after P k).next P).2

/-- **What a `pull` gives**, behind so many others. -/
def pull (P : Project) (s : ChunkStream) (k : Nat) : Except BundleError (Option String) :=
  ((s.after P k).next P).1

/-- The chunk a `pull` gives, or an empty text. -/
def chunkAt (P : Project) (s : ChunkStream) (k : Nat) : String :=
  match s.pull P k with
  | .ok (some chunk) => chunk
  | _ => ""

/-- **The bytes behind some pulls**: those that wait in the stream, and those of the chunks. -/
def bytesTo (P : Project) (s : ChunkStream) : Nat → List UInt8
  | 0 => s.rest
  | k + 1 => s.bytesTo P k ++ Utf8.encode (s.chunkAt P k).toList

/-- Behind one pull more is the stream that `next` leaves. -/
theorem after_succ (P : Project) (s : ChunkStream) (k : Nat) :
    s.after P (k + 1) = ((s.after P k).next P).2 := rfl

/-- The first pull, and the others behind it. -/
theorem after_succ_next (P : Project) (s : ChunkStream) (k : Nat) :
    s.after P (k + 1) = (s.next P).2.after P k := by
  induction k with
  | zero => rfl
  | succ k ih => rw [after_succ, ih, after_succ]

/-- A later `pull` is an earlier one of the stream behind the first. -/
theorem pull_succ_next (P : Project) (s : ChunkStream) (k : Nat) :
    s.pull P (k + 1) = (s.next P).2.pull P k := by
  rw [pull, after_succ_next, pull]

/-- The chunk at a `pull` is the one that it gives. -/
theorem chunkAt_of_pull (h : s.pull P k = .ok (some chunk)) : s.chunkAt P k = chunk := by
  rw [chunkAt, h]

/-- At a pull that gives no chunk, `chunkAt` is empty. -/
theorem chunkAt_of_pull_ne (h : ∀ chunk, s.pull P k ≠ .ok (some chunk)) : s.chunkAt P k = "" := by
  unfold chunkAt
  split
  · rename_i e
    exact absurd e (h _)
  · rfl

/-- **The bytes up to a pull** are those that were left over and those of all chunks. -/
theorem bytesTo_eq (P : Project) (s : ChunkStream) (k : Nat) :
    s.bytesTo P k =
      s.rest ++ Utf8.encode (String.join ((List.range k).map (s.chunkAt P))).toList := by
  induction k with
  | zero => simp [bytesTo, String.join]
  | succ k ih =>
      rw [bytesTo, ih, List.range_succ, List.map_append, List.map_singleton, String.join_append,
        String.toList_append, Utf8.encode_append, List.append_assoc]
      simp [String.join_cons]

/-! ## One pull -/

/-- **The ways a pull can go.** -/
theorem next_cases (P : Project) (s : ChunkStream) :
    (∃ chunk after, s.next P = (.ok (some chunk), after) ∧ chunk.toList ≠ [] ∧
      (after.phase = .done → chunk = Artifact.footer) ∧ s.phase ≠ .done) ∨
    (∃ e after, s.next P = (.error e, after) ∧ after.phase = .done ∧ s.phase ≠ .done) ∨
    s.next P = (.ok none, s) ∧ s.phase = .done := by
  -- one case for each phase, and within the modules one for each answer of the walk
  cases phase : s.phase with
  | header =>
      exact .inl ⟨_, _, next_header phase, Artifact.toList_header_ne_nil _, by simp, by simp⟩
  | modules =>
      cases e : s.walk.next P with
      | mk made walk =>
          rcases made with _ | cause | record
          · exact .inl ⟨_, _, next_footer phase e, Artifact.toList_footer_ne_nil, by simp, by simp⟩
          · exact .inr (.inl ⟨cause, _, next_failure phase e, rfl, by simp⟩)
          · refine .inl ⟨_, _, next_module phase e, Artifact.toList_block_ne_nil _ _, ?_, by simp⟩
            simp [phase]
  | done => exact .inr (.inr ⟨next_done phase, rfl⟩)

/-- A pull does not ask for the bytes that wait, and leaves them. -/
theorem next_with_rest (P : Project) (s : ChunkStream) (rest : List UInt8) :
    { s with rest }.next P = ((s.next P).1, { (s.next P).2 with rest }) := by
  obtain ⟨walk, artifact, phase, modules, waiting⟩ := s
  cases phase with
  | header => rfl
  | modules =>
      simp only [next]
      rcases walk.next P with ⟨_ | _ | _, behind⟩ <;> rfl
  | done => rfl

/-- **No chunk is empty.** -/
theorem encode_chunk_ne_nil (h : s.pull P k = .ok (some chunk)) : Utf8.encode chunk.toList ≠ [] := by
  rcases next_cases P (s.after P k) with ⟨_, _, e, full, -⟩ | ⟨_, _, e, -⟩ | ⟨e, -⟩
  · rw [pull, e] at h
    cases h
    exact Utf8.encode_ne_nil full
  · simp [pull, e] at h
  · simp [pull, e] at h

/-! ## Finished streams -/

/-- A stream that is done gives no chunk. -/
theorem pull_of_done (h : (s.after P k).phase = .done) : s.pull P k = .ok none := by
  rw [pull, next_done h]

/-- Only a finished stream gives nothing. -/
theorem done_of_pull_none (h : s.pull P k = .ok none) : (s.after P k).phase = .done := by
  rcases next_cases P (s.after P k) with ⟨_, _, e, -⟩ | ⟨_, _, e, -⟩ | ⟨-, done⟩
  · simp [pull, e] at h
  · simp [pull, e] at h
  · exact done

/-- A `pull` without a chunk finishes a stream. -/
theorem done_of_pull (h : ∀ chunk, s.pull P k ≠ .ok (some chunk)) :
    (s.after P (k + 1)).phase = .done := by
  rw [after_succ]
  rcases next_cases P (s.after P k) with ⟨chunk, _, e, -⟩ | ⟨_, _, e, done, -⟩ | ⟨e, done⟩
  · exact absurd (by rw [pull, e]) (h chunk)
  · rw [e]
    exact done
  · rw [e]
    exact done

/-- **A finished stream stays as it is**, and gives no more bytes. -/
theorem bytesTo_of_done (h : (s.after P j).phase = .done) (le : j ≤ k) :
    s.after P k = s.after P j ∧ s.bytesTo P k = s.bytesTo P j := by
  induction le with
  | refl => exact ⟨rfl, rfl⟩
  | @step k _ ih =>
      obtain ⟨same, bytes⟩ := ih
      have done : (s.after P k).phase = .done := same ▸ h
      refine ⟨?_, ?_⟩
      · rw [after_succ, next_done done, same]
      · have none : s.chunkAt P k = "" := chunkAt_of_pull_ne fun chunk => by
          simp [pull_of_done done]
        rw [bytesTo, none, bytes]
        exact List.append_nil _

/-- In front of a `pull` with a chunk or an error, every pull has a chunk. -/
theorem exists_chunk_of_lt (h : s.pull P k ≠ .ok none) (lt : j < k) :
    ∃ chunk, s.pull P j = .ok (some chunk) := by
  -- a pull without a chunk would finish the stream, and a finished stream gives nothing at `k`
  by_contra none
  have done : (s.after P (j + 1)).phase = .done :=
    done_of_pull fun chunk e => none ⟨chunk, e⟩
  have same := (bytesTo_of_done done lt).1
  exact h (pull_of_done (same ▸ done))

/-- Each chunk makes the bytes more. -/
theorem length_bytesTo_lt (h : ∀ i < k, ∃ chunk, s.pull P i = .ok (some chunk)) (lt : j < k) :
    (s.bytesTo P j).length < (s.bytesTo P k).length := by
  induction k with
  | zero => exact absurd lt (Nat.not_lt_zero j)
  | succ k ih =>
      obtain ⟨chunk, e⟩ := h k (Nat.lt_succ_self k)
      have full : 0 < (Utf8.encode chunk.toList).length :=
        List.length_pos_iff.mpr (encode_chunk_ne_nil e)
      have grown : (s.bytesTo P k).length < (s.bytesTo P (k + 1)).length := by
        rw [bytesTo, chunkAt_of_pull e, List.length_append]
        omega
      rcases Nat.lt_succ_iff_lt_or_eq.mp lt with earlier | rfl
      · exact Nat.lt_trans (ih (fun i hi => h i (Nat.lt_succ_of_lt hi)) earlier) grown
      · exact grown

/-- **How a stream came to finish**: it gave the end of the artifact, or it failed. -/
theorem exists_pull_of_done (start : s.phase ≠ .done) (h : (s.after P k).phase = .done) :
    ∃ j < k, (s.after P (j + 1)).phase = .done ∧
      (s.pull P j = .ok (some Artifact.footer) ∨ ∃ e, s.pull P j = .error e) := by
  -- the first pull behind which the stream is finished is the one that finished it
  induction k with
  | zero => exact absurd h start
  | succ k ih =>
      by_cases earlier : (s.after P k).phase = .done
      · obtain ⟨j, lt, found⟩ := ih earlier
        exact ⟨j, Nat.lt_succ_of_lt lt, found⟩
      · refine ⟨k, Nat.lt_succ_self k, h, ?_⟩
        rw [after_succ] at h
        rcases next_cases P (s.after P k) with ⟨_, _, e, -, last, -⟩ | ⟨cause, _, e, -⟩ | ⟨-, done⟩
        · rw [e] at h
          rw [pull, e, last h]
          exact .inl rfl
        · exact .inr ⟨cause, by rw [pull, e]⟩
        · exact absurd done earlier

/-- **The chunks of a stream that comes to its end** are those of its pulls in front of the first
that gives none. -/
theorem exists_pulls_of_all {limit : Nat} {chunks : List String} {final : ChunkStream}
    (h : s.all P limit = some (.ok chunks, final)) :
    ∃ k, (∀ j < k, ∃ chunk, s.pull P j = .ok (some chunk)) ∧ s.pull P k = .ok none ∧
      chunks = (List.range k).map (s.chunkAt P) ∧ final = s.after P k := by
  -- on the limit: the pulls of the stream behind its first chunk are those of the stream itself,
  -- one later
  induction limit generalizing s chunks with
  | zero => simp [all] at h
  | succ limit ih =>
      rw [all] at h
      rcases next_cases P s with ⟨chunk, behind, e, -⟩ | ⟨_, _, e, -⟩ | ⟨e, done⟩ <;> rw [e] at h
      · obtain ⟨⟨later, left⟩, run, made⟩ := Option.map_eq_some_iff.mp h
        rcases later with cause | rest
        · simp [Except.map] at made
        · cases made
          obtain ⟨k, full, none, rfl, rfl⟩ := ih run
          have first : s.pull P 0 = .ok (some chunk) := by rw [pull, after, e]
          have shift : ∀ i, behind.pull P i = s.pull P (i + 1) := fun i => by
            rw [pull_succ_next, e]
          refine ⟨k + 1, fun j hj => ?_, by rw [← shift, none], ?_, by rw [after_succ_next, e]⟩
          · cases j with
            | zero => exact ⟨chunk, first⟩
            | succ j =>
                rw [← shift]
                exact full j (Nat.lt_of_succ_lt_succ hj)
          · rw [List.range_succ_eq_map, List.map_cons, List.map_map, chunkAt_of_pull first]
            refine congrArg (chunk :: ·) (List.map_congr_left fun i _ => ?_)
            simp only [Function.comp_apply, chunkAt, shift]
      · cases h
      · cases h
        exact ⟨0, fun j hj => absurd hj (Nat.not_lt_zero j), pull_of_done done, rfl, rfl⟩

/-- **A stream comes to its end** when a `pull` gives no chunk and every pull in front of it gives
one. -/
theorem all_of_pulls (full : ∀ j < k, ∃ chunk, s.pull P j = .ok (some chunk))
    (none : s.pull P k = .ok none) :
    s.all P (k + 1) = some (.ok ((List.range k).map (s.chunkAt P)), s.after P k) := by
  -- on the pulls, from the front, since `all` takes the first chunk off first
  induction k generalizing s with
  | zero =>
      rcases next_cases P s with ⟨_, _, e, -⟩ | ⟨_, _, e, -⟩ | ⟨e, -⟩
      · simp [pull, after, e] at none
      · simp [pull, after, e] at none
      · rw [all, e]
        rfl
  | succ k ih =>
      obtain ⟨chunk, first⟩ := full 0 (Nat.succ_pos k)
      have e : s.next P = (.ok (some chunk), (s.next P).2) := Prod.ext first rfl
      have later := ih (s := (s.next P).2)
        (fun j hj => by rw [← pull_succ_next]; exact full (j + 1) (Nat.succ_lt_succ hj))
        (by rw [← pull_succ_next]; exact none)
      have same : (s.next P).2.chunkAt P = s.chunkAt P ∘ Nat.succ := by
        funext i
        simp only [Function.comp_apply, chunkAt, ← pull_succ_next]
      rw [all, e]
      simp only [later]
      rw [List.range_succ_eq_map, List.map_cons, List.map_map, chunkAt_of_pull first,
        after_succ_next, same]
      rfl

end ChunkStream

end ScriptBundle
