import ScriptBundle.Proofs.Stream.Pulls

/-! # Reading a chunk stream

A chunk stream read as bytes, any number of them at a time, none included. Behind some reads the
stream is the one behind some pulls, and no chunk has been made that was not needed for the bytes
that were handed out:

* **`ChunkStream.results`, `ChunkStream.afterReads`** — what some reads give, and the stream behind
  them;
* **`ChunkStream.Behind`** — the relation between a stream that was read and the stream that is
  pulled: the bytes handed out and those that wait are the bytes of the pulls, and one pull less would
  not have been enough;
* **`Behind.read`** — what a single read does to it;
* **`ChunkStream.ReadsAsPulled`, `ChunkStream.readsAsPulled`** — what holds of all reads;
* **`ChunkStream.read_refines_next`** — the same together with reads to the end of a bundle. -/

namespace ScriptBundle.ChunkStream

variable {P : Project} {s t : ChunkStream} {out bytes : List UInt8} {k n : Nat} {e : BundleError}
  {sizes : List Nat}

/-- **What some reads give**, one after the other. -/
def results (P : Project) : ChunkStream → List Nat → List (Except BundleError (List UInt8))
  | _, [] => []
  | s, n :: sizes => (s.read P n).1 :: results P (s.read P n).2 sizes

/-- **The stream behind some reads.** -/
def afterReads (P : Project) (s : ChunkStream) (sizes : List Nat) : ChunkStream :=
  sizes.foldl (fun s n => (s.read P n).2) s

/-- The bytes that were handed out. -/
def delivered (results : List (Except BundleError (List UInt8))) : List UInt8 :=
  results.flatMap fun result => result.toOption.getD []

/-- No read failed. -/
def Fine (results : List (Except BundleError (List UInt8))) : Prop := ∀ e, .error e ∉ results

/-- Reads one list after the other: the second one goes on `afterReads` of the first. -/
theorem results_append (P : Project) (s : ChunkStream) (sizes later : List Nat) :
    s.results P (sizes ++ later) = s.results P sizes ++ (s.afterReads P sizes).results P later := by
  induction sizes generalizing s with
  | nil => rfl
  | cons n sizes ih => exact congrArg (_ :: ·) (ih _)

/-- Without reads nothing is delivered. -/
@[simp] theorem delivered_nil : delivered [] = [] := rfl

/-- A read that succeeds delivers its `bytes` in front of those of the later ones. -/
@[simp] theorem delivered_ok (bytes : List UInt8)
    (later : List (Except BundleError (List UInt8))) :
    delivered (.ok bytes :: later) = bytes ++ delivered later := rfl

/-- A read that fails delivers nothing. -/
@[simp] theorem delivered_error (e : BundleError)
    (later : List (Except BundleError (List UInt8))) :
    delivered (.error e :: later) = delivered later := rfl

/-- Without reads none has failed. -/
@[simp] theorem fine_nil : Fine [] := fun _ => List.not_mem_nil

/-- Behind a read that succeeds it is for the later ones to be `Fine`. -/
@[simp] theorem fine_ok {later : List (Except BundleError (List UInt8))} :
    Fine (.ok bytes :: later) ↔ Fine later := by
  simp [Fine]

/-- Reads of which the first fails are not `Fine`. -/
@[simp] theorem not_fine_error {later : List (Except BundleError (List UInt8))} :
    ¬ Fine (.error e :: later) := fun h => h e List.mem_cons_self

/-! ## One read -/

/-- Bytes that wait are handed out first. -/
theorem read_of_rest (h : s.rest ≠ []) (n : Nat) :
    s.read P n = (.ok (s.rest.take n), { s with rest := s.rest.drop n }) := by
  unfold read
  -- with `n = 0` nothing is taken and nothing is dropped
  split
  · subst n
    rfl
  · simp [h, hand]

/-- **A read where no bytes wait** pulls once. -/
theorem read_of_rest_nil (h : s.rest = []) (pos : 0 < n) :
    s.read P n =
      match s.next P with
      | (.error e, after) => (.error e, after)
      | (.ok none, after) => (.ok [], after)
      | (.ok (some chunk), after) =>
        (.ok ((Utf8.encode chunk.toList).take n),
          { after with rest := (Utf8.encode chunk.toList).drop n }) := by
  have some_bytes : n ≠ 0 := Nat.ne_of_gt pos
  rcases made : s.next P with ⟨_ | _ | _, after⟩ <;> simp [read, some_bytes, h, made, hand]

/-- A finished stream without bytes that wait gives nothing more. -/
theorem read_of_done (done : s.phase = .done) (h : s.rest = []) (n : Nat) :
    s.read P n = (.ok [], s) := by
  cases n with
  | zero => rfl
  | succ n => rw [read_of_rest_nil h (Nat.succ_pos n), next_done done]

/-- From a stream that is done and has no bytes left, all reads give none, and it stays as it is. -/
theorem results_of_done (done : s.phase = .done) (h : s.rest = []) (sizes : List Nat) :
    s.results P sizes = List.replicate sizes.length (.ok []) ∧ s.afterReads P sizes = s := by
  induction sizes with
  | nil => exact ⟨rfl, rfl⟩
  | cons n sizes ih =>
      obtain ⟨later, stays⟩ := ih
      rw [results, afterReads, List.foldl_cons, read_of_done done h, later]
      exact ⟨rfl, stays⟩

/-- A read that is asked for bytes and gives none leaves a finished stream. -/
theorem done_of_read_nil (pos : 0 < n) (h : (s.read P n).1 = .ok []) :
    s.phase = .done ∧ s.rest = [] := by
  by_cases waits : s.rest = []
  · rw [read_of_rest_nil waits pos] at h
    rcases next_cases P s with ⟨chunk, _, e, full, -⟩ | ⟨_, _, e, -⟩ | ⟨-, done⟩
    · rw [e] at h
      have taken : (Utf8.encode chunk.toList).take n = [] := Except.ok.inj h
      rw [List.take_eq_nil_iff] at taken
      exact absurd taken (by simp [Utf8.encode_ne_nil full, Nat.ne_of_gt pos])
    · simp [e] at h
    · exact ⟨done, waits⟩
  · rw [read_of_rest waits] at h
    have taken : s.rest.take n = [] := Except.ok.inj h
    rw [List.take_eq_nil_iff] at taken
    exact absurd taken (by simp [waits, Nat.ne_of_gt pos])

/-- **Reads for some bytes each come to the end, or to as many bytes as there are reads.** -/
theorem getLast?_or_length_le (asked : ∀ n ∈ sizes, 0 < n) (fine : Fine (s.results P sizes)) :
    (s.results P sizes).getLast? = some (.ok []) ∨
      sizes.length ≤ (delivered (s.results P sizes)).length := by
  -- on the reads: one that gives nothing is followed by nothing but such reads, any other gives a
  -- byte at least
  induction sizes generalizing s with
  | nil => exact .inr (Nat.le_refl 0)
  | cons n sizes ih =>
      obtain ⟨pos, asked⟩ := List.forall_mem_cons.mp asked
      rw [results] at fine ⊢
      cases e : (s.read P n).1 with
      | error cause => simp [e] at fine
      | ok bytes =>
          rw [e, fine_ok] at fine
          by_cases empty : bytes = []
          · rw [empty] at e ⊢
            obtain ⟨done, waits⟩ := done_of_read_nil pos e
            rw [read_of_done done waits, (results_of_done done waits sizes).1,
              ← List.replicate_succ, List.getLast?_replicate]
            exact .inl rfl
          · rcases ih asked fine with last | long
            · refine .inl ?_
              rw [List.getLast?_cons, last]
              rfl
            · have := List.length_pos_iff.mpr empty
              rw [delivered_ok, List.length_append, List.length_cons]
              exact .inr (by omega)

/-! ## The stream that is pulled -/

/-- **A stream behind some reads of another**, which handed out some `bytes`, by so many pulls. -/
structure Behind (P : Project) (s t : ChunkStream) (out : List UInt8) (k : Nat) : Prop where
  /-- What was handed out and what waits are the bytes behind the pulls. -/
  bytes_eq : out ++ t.rest = s.bytesTo P k
  /-- Fewer pulls give fewer bytes than were handed out. -/
  least : ∀ j < k, (s.bytesTo P j).length < out.length
  /-- All but the bytes that wait is as behind the pulls. -/
  same : t = { s.after P k with rest := t.rest }

/-- A stream that was not read. -/
theorem behind_self (P : Project) (s : ChunkStream) : Behind P s s [] 0 :=
  ⟨rfl, fun j hj => absurd hj (Nat.not_lt_zero j), rfl⟩

namespace Behind

/-- The next `pull` of the stream that was read is the next one of the other. -/
theorem next_eq (h : Behind P s t out k) :
    t.next P = (s.pull P k, { s.after P (k + 1) with rest := t.rest }) := by
  rw [h.same, next_with_rest]
  rfl

/-- **Every `pull` that was needed gave a chunk.** -/
theorem exists_chunk (h : Behind P s t out k) {j : Nat} (lt : j < k) :
    ∃ chunk, s.pull P j = .ok (some chunk) := by
  -- without a chunk, one pull less gives the same bytes, which `least` rules out
  by_contra none
  have done : (s.after P (j + 1)).phase = .done := done_of_pull fun chunk e => none ⟨chunk, e⟩
  have empty : s.chunkAt P j = "" := chunkAt_of_pull_ne fun chunk e => none ⟨chunk, e⟩
  have stays : s.bytesTo P (j + 1) = s.bytesTo P j := by
    rw [bytesTo, empty]
    exact List.append_nil _
  have whole := congrArg List.length h.bytes_eq
  rw [(bytesTo_of_done done lt).2, stays, List.length_append] at whole
  have := h.least j lt
  omega

/-- **What a read does** where the stream that is pulled does not fail. -/
theorem read (h : Behind P s t out k) (n : Nat) :
    (∃ bytes k', (t.read P n).1 = .ok bytes ∧ Behind P s (t.read P n).2 (out ++ bytes) k' ∧
      (0 < n → bytes = [] → out = s.bytesTo P k ∧ s.pull P k = .ok none)) ∨
    ∃ e, (t.read P n).1 = .error e ∧ out = s.bytesTo P k ∧ s.pull P k = .error e ∧
      (t.read P n).2.phase = .done ∧ (t.read P n).2.rest = [] := by
  -- where no bytes wait, all bytes of the pulls were handed out and the read pulls once more
  by_cases waits : t.rest = []
  · have all : out = s.bytesTo P k := by rw [← h.bytes_eq, waits, List.append_nil]
    rcases Nat.eq_zero_or_pos n with rfl | pos
    · exact .inl ⟨[], k, rfl, by rwa [List.append_nil], fun pos => absurd pos (Nat.lt_irrefl 0)⟩
    · rw [read_of_rest_nil waits pos, h.next_eq]
      cases pulled : s.pull P k with
      | error e =>
          refine .inr ⟨e, rfl, all, rfl, ?_, waits⟩
          exact done_of_pull fun chunk => by simp [pulled]
      | ok made =>
          cases made with
          | none =>
              refine .inl ⟨[], k, rfl, ?_, fun _ _ => ⟨all, rfl⟩⟩
              rw [List.append_nil]
              refine ⟨h.bytes_eq, h.least, ?_⟩
              rw [after_succ, next_done (done_of_pull_none pulled)]
          | some chunk =>
              have full := encode_chunk_ne_nil pulled
              have taken : (Utf8.encode chunk.toList).take n ≠ [] := by
                simpa [List.take_eq_nil_iff, full] using Nat.ne_of_gt pos
              refine .inl ⟨_, k + 1, rfl, ⟨?_, fun j hj => ?_, rfl⟩, fun _ none => absurd none taken⟩
              -- what is handed out of the new chunk makes the pull in front of it needed
              · rw [List.append_assoc, List.take_append_drop, bytesTo, chunkAt_of_pull pulled, all]
              · have more := List.length_pos_iff.mpr taken
                rw [List.length_append]
                rcases Nat.lt_succ_iff_lt_or_eq.mp hj with earlier | rfl
                · have := h.least j earlier
                  omega
                · rw [all]
                  omega
  · rw [read_of_rest waits]
    refine .inl ⟨_, k, rfl, ⟨?_, fun j hj => ?_, ?_⟩, fun pos none => ?_⟩
    · rw [List.append_assoc, List.take_append_drop]
      exact h.bytes_eq
    · rw [List.length_append]
      have := h.least j hj
      omega
    · rw [h.same]
    · rw [List.take_eq_nil_iff] at none
      exact absurd none (by simpa [waits] using Nat.ne_of_gt pos)

/-- **What some reads do**: the stream is behind further pulls; or a `pull` failed, all bytes in front of
it were handed out, and none come any more. -/
theorem reads (h : Behind P s t out k) (sizes : List Nat) :
    (Fine (t.results P sizes) ∧
      ∃ k', Behind P s (t.afterReads P sizes) (out ++ delivered (t.results P sizes)) k') ∨
    ¬ Fine (t.results P sizes) ∧ (t.afterReads P sizes).phase = .done ∧
      (t.afterReads P sizes).rest = [] ∧
      ∃ k' e, out ++ delivered (t.results P sizes) = s.bytesTo P k' ∧ s.pull P k' = .error e := by
  -- `Behind` carries the induction until a read fails; from there on the stream is finished and
  -- empty
  induction sizes generalizing t out k with
  | nil => exact .inl ⟨fine_nil, k, by simpa [results, afterReads] using h⟩
  | cons n sizes ih =>
      rcases h.read n with ⟨bytes, k', e, behind, -⟩ | ⟨cause, e, all, pulled, done, empty⟩
      · rw [results, e, fine_ok, delivered_ok, ← List.append_assoc]
        exact ih behind
      · obtain ⟨later, stays⟩ := results_of_done (P := P) done empty sizes
        have nothing : delivered (List.replicate sizes.length (.ok [])) = [] := by
          simp [delivered, Except.toOption]
        rw [results, e, delivered_error, later, nothing, List.append_nil]
        refine .inr ⟨not_fine_error, ?_, ?_, k, cause, all, pulled⟩
        · exact (congrArg phase stays).trans done
        · exact (congrArg rest stays).trans empty

/-- If the bytes that were handed out are those behind so many pulls, this is the number of pulls that
were needed, unless a `pull` among them gave nothing. -/
theorem eq_of_bytes_eq (h : Behind P s t out k) {j : Nat} (all : out = s.bytesTo P j)
    (goes_on : s.pull P j ≠ .ok none) : k = j := by
  -- fewer pulls are too few since chunks have bytes, more are excluded by `least`
  rcases Nat.lt_trichotomy k j with less | same | more
  · have grown := length_bytesTo_lt (fun i hi => exists_chunk_of_lt goes_on hi) less
    rw [← h.bytes_eq, ← all, List.length_append] at grown
    omega
  · exact same
  · have := h.least j more
    rw [all] at this
    omega

end Behind

/-! ## All reads -/

/-- **A chunk `stream` that can be read as it can be pulled**, some bytes at a time. -/
structure ReadsAsPulled (P : Project) (s : ChunkStream) : Prop where
  /-- What was handed out is a beginning of the bytes of the chunks. -/
  delivered_prefix : ∀ sizes, ∃ k, delivered (s.results P sizes) <+: s.bytesTo P k
  /-- As long as no read fails, no chunk was made that was not needed. -/
  behind : ∀ sizes, Fine (s.results P sizes) →
    ∃ k, Behind P s (s.afterReads P sizes) (delivered (s.results P sizes)) k
  /-- Where bytes are asked for, there are none only behind a failure, or once all chunks were handed
  out; the last of them is the end of the artifact, unless the stream was finished from the start. -/
  ended : ∀ sizes n, 0 < n → ((s.afterReads P sizes).read P n).1 = .ok [] →
    ¬ Fine (s.results P sizes) ∨
    ∃ k, delivered (s.results P sizes) = s.bytesTo P k ∧ s.pull P k = .ok none ∧
      (s.phase ≠ .done → ∃ j, k = j + 1 ∧ s.pull P j = .ok (some Artifact.footer))
  /-- A read that fails does so as the pull it comes to, behind exactly the chunks in front of that
  pull; no read failed before, and no read behind it gives anything. -/
  failed : ∀ sizes n e, ((s.afterReads P sizes).read P n).1 = .error e →
    Fine (s.results P sizes) ∧
    (∃ k, delivered (s.results P sizes) = s.bytesTo P k ∧ s.pull P k = .error e ∧
      ∀ j < k, ∃ chunk, s.pull P j = .ok (some chunk)) ∧
    ∀ later, ∀ result ∈ ((s.afterReads P sizes).read P n).2.results P later, result = .ok []
  /-- A read that comes to a pull that fails, fails. -/
  fails : ∀ sizes n k e, 0 < n → Fine (s.results P sizes) →
    delivered (s.results P sizes) = s.bytesTo P k → s.pull P k = .error e →
    ((s.afterReads P sizes).read P n).1 = .error e

/-- **Every chunk stream can be read as it can be pulled.** -/
theorem readsAsPulled (P : Project) (s : ChunkStream) : ReadsAsPulled P s := by
  have reads := (behind_self P s).reads
  simp only [List.nil_append] at reads
  have behind : ∀ sizes, Fine (s.results P sizes) →
      ∃ k, Behind P s (s.afterReads P sizes) (delivered (s.results P sizes)) k :=
    fun sizes fine => (reads sizes).elim And.right fun failed => absurd fine failed.1
  -- behind a failure no read fails again
  have quiet : ∀ sizes n e, ((s.afterReads P sizes).read P n).1 = .error e →
      Fine (s.results P sizes) := by
    intro sizes n e failed
    rcases reads sizes with ⟨fine, -⟩ | ⟨-, done, empty, -⟩
    · exact fine
    · simp [read_of_done done empty] at failed
  refine ⟨fun sizes => ?_, behind, fun sizes n pos none => ?_, fun sizes n e failed => ?_,
    fun sizes n k e pos fine all failing => ?_⟩
  · rcases reads sizes with ⟨-, k, h⟩ | ⟨-, -, -, k, -, all, -⟩
    · exact ⟨k, h.bytes_eq ▸ List.prefix_append ..⟩
    · exact ⟨k, all ▸ List.prefix_rfl⟩
  · by_cases fine : Fine (s.results P sizes)
    · obtain ⟨k, h⟩ := behind sizes fine
      rcases h.read n with ⟨bytes, _, e, -, empty⟩ | ⟨_, e, -⟩
      · rw [none] at e
        obtain ⟨all, last⟩ := empty pos (Except.ok.inj e).symm
        refine .inr ⟨k, all, last, fun started => ?_⟩
        -- the pull that finished the stream gave the footer, and was needed; none behind it was
        obtain ⟨j, lt, finished, found⟩ := exists_pull_of_done started (done_of_pull_none last)
        obtain ⟨chunk, e⟩ := h.exists_chunk lt
        refine ⟨j, ?_, found.resolve_right fun ⟨cause, e'⟩ => by simp [e] at e'⟩
        by_contra more
        have := h.least (j + 1) (by omega)
        rw [all, (bytesTo_of_done finished lt).2] at this
        exact Nat.lt_irrefl _ this
      · simp [none] at e
    · exact .inl fine
  · have fine := quiet sizes n e failed
    obtain ⟨k, h⟩ := behind sizes fine
    rcases h.read n with ⟨_, _, e', -⟩ | ⟨cause, e', all, pulled, done, empty⟩
    · simp [failed] at e'
    · obtain rfl : e = cause := Except.error.inj (failed.symm.trans e')
      refine ⟨fine, ⟨k, all, pulled, fun j lt => h.exists_chunk lt⟩, fun later result hr => ?_⟩
      rw [(results_of_done done empty later).1] at hr
      exact List.eq_of_mem_replicate hr
  · obtain ⟨k', h⟩ := behind sizes fine
    obtain rfl := h.eq_of_bytes_eq all (by simp [failing])
    have waits : (s.afterReads P sizes).rest = [] := by
      have whole := h.bytes_eq
      rw [all] at whole
      simpa using whole
    rw [read_of_rest_nil waits pos, h.next_eq, failing]

/-- **A read to the end** of a chunk stream gives all of its chunks. -/
theorem all_of_reads (asked : ∀ n ∈ sizes, 0 < n) (fine : Fine (s.results P sizes))
    (last : (s.results P sizes).getLast? = some (.ok [])) :
    ∃ limit chunks final, s.all P limit = some (.ok chunks, final) ∧
      delivered (s.results P sizes) = s.rest ++ Utf8.encode (String.join chunks).toList := by
  -- the last read is the one that tells that no chunk comes any more
  rcases List.eq_nil_or_concat' sizes with rfl | ⟨front, n, rfl⟩
  · simp [results] at last
  · have pos : 0 < n := asked n (by simp)
    have split := results_append P s front [n]
    simp only [results] at split
    rw [split, List.getLast?_concat] at last
    have none := Option.some.inj last
    rw [split, none] at fine ⊢
    have front_fine : Fine (s.results P front) := fun e he => fine e (List.mem_append_left _ he)
    obtain ⟨k, h⟩ := (readsAsPulled P s).behind front front_fine
    rcases h.read n with ⟨bytes, _, e, -, empty⟩ | ⟨_, e, -⟩
    · obtain ⟨all, ended⟩ := empty pos (Except.ok.inj (e.symm.trans none))
      refine ⟨_, _, _, all_of_pulls (fun j lt => h.exists_chunk lt) ended, ?_⟩
      rw [← bytesTo_eq, ← all]
      simp [delivered, Except.toOption]
    · simp [e] at none

/-- **A stream that comes to its end is read to its end**, by more reads than it has bytes. -/
theorem reads_of_all {limit : Nat} {chunks : List String} {final : ChunkStream}
    (whole : s.all P limit = some (.ok chunks, final)) (asked : ∀ n ∈ sizes, 0 < n)
    (enough : (s.rest ++ Utf8.encode (String.join chunks).toList).length < sizes.length) :
    Fine (s.results P sizes) ∧ (s.results P sizes).getLast? = some (.ok []) := by
  obtain ⟨k, full, ended, rfl, -⟩ := exists_pulls_of_all whole
  have done := done_of_pull_none ended
  -- no pull fails: in front of `k` each gives a chunk, from `k` on the stream is finished
  have fails : ∀ j e, s.pull P j ≠ .error e := by
    intro j e failing
    rcases Nat.lt_or_ge j k with lt | ge
    · obtain ⟨chunk, e'⟩ := full j lt
      simp [e'] at failing
    · have stays := (bytesTo_of_done done ge).1
      rw [pull_of_done (stays ▸ done)] at failing
      simp at failing
  rw [← bytesTo_eq] at enough
  rcases (behind_self P s).reads sizes with ⟨fine, j, h⟩ | ⟨-, -, -, j, e, -, failing⟩
  · refine ⟨fine, (getLast?_or_length_le asked fine).resolve_right fun long => ?_⟩
    -- each read would give a byte, and there are not as many bytes
    have few : (delivered (s.results P sizes)).length ≤ (s.bytesTo P j).length := by
      rw [← h.bytes_eq]
      simp
    have most : (s.bytesTo P j).length ≤ (s.bytesTo P k).length := by
      rcases Nat.lt_or_ge j k with lt | ge
      · exact Nat.le_of_lt (length_bytesTo_lt full lt)
      · exact Nat.le_of_eq (congrArg List.length (bytesTo_of_done done ge).2)
    omega
  · exact absurd failing (fails j e)

/-- **Reading refines pulling.** Every chunk stream can be read as it can be pulled; and the stream of
a `bundle`, read to its end by reads for some bytes each, gives exactly the bytes of the artifact, and is
read to its end if there is an artifact. -/
theorem read_refines_next :
    (∀ P s, ReadsAsPulled P s) ∧
    ∀ w entry options P walk, (Bundle.setup w entry options).2 = .ok (P, walk) →
      ∀ sizes, (∀ n ∈ sizes, 0 < n) →
        (Fine ((start walk P.artifact).results P sizes) →
          ((start walk P.artifact).results P sizes).getLast? = some (.ok []) →
          ∃ limit output, bundle limit w entry options = some (.ok output) ∧
            delivered ((start walk P.artifact).results P sizes) =
              Utf8.encode output.code.toList) ∧
        ∀ limit output, bundle limit w entry options = some (.ok output) →
          (Utf8.encode output.code.toList).length < sizes.length →
          Fine ((start walk P.artifact).results P sizes) ∧
            ((start walk P.artifact).results P sizes).getLast? = some (.ok []) := by
  refine ⟨readsAsPulled, fun w entry options P walk made sizes asked => ⟨fun fine last => ?_,
    fun limit output bundled enough => ?_⟩⟩
  · obtain ⟨limit, chunks, final, whole, same⟩ := all_of_reads asked fine last
    refine ⟨limit, ⟨String.join chunks, final.report⟩, ?_, same⟩
    rw [bundle, made]
    dsimp only
    rw [whole]
    rfl
  · rw [bundle, made] at bundled
    obtain ⟨⟨result, final⟩, whole, ended⟩ := Option.map_eq_some_iff.mp bundled
    rcases result with e | chunks
    · simp [Except.map] at ended
    · obtain rfl := Except.ok.inj ended
      exact reads_of_all whole asked enough

end ScriptBundle.ChunkStream
