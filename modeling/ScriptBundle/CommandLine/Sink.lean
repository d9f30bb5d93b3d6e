/-! # Sinks

What is written through a buffer of a fixed size. A piece that fits into what is left of the buffer
is put there; else the buffer is emptied first, and a piece as large as the buffer goes straight
on. Behind the buffer, what goes to the channel of results waits for the end of its line in a smaller
buffer.

* **`Sink.buffered`** — a buffer with one more piece: what passes and what waits;
* **`Sink.write`** — a sink with one more piece;
* **`Sink.total`** — everything that was written, where `Sink.through` is what has reached the end.

`total_write` says that nothing is lost, and `through_prefix_write` that nothing is taken back. -/

namespace ScriptBundle

/-- **Buffers and what went through them.** -/
structure Sink where
  /-- Whether what passes the buffer waits for the end of its line. -/
  isLined : Bool
  /-- What went through. -/
  through : List UInt8
  /-- What waits for the end of its line. -/
  line : List UInt8
  /-- What waits in the buffer. -/
  buffer : List UInt8
deriving DecidableEq, Repr, Inhabited

namespace Sink

/-- Nothing was written. -/
def empty (isLined : Bool) : Sink := ⟨isLined, [], [], []⟩

/-- The size of the buffer. -/
def capacity : Nat := 8192

/-- The size of the buffer for a line. -/
def lineCapacity : Nat := 1024

/-- The byte that ends a line. -/
def lineEnd : UInt8 := 10

/-- **Everything that was written.** -/
def total (sink : Sink) : List UInt8 := sink.through ++ sink.line ++ sink.buffer

/-- **A buffer of some size with one more piece**: what passes it, piece by piece, and what waits in
it. -/
def buffered (size : Nat) (waiting piece : List UInt8) : List (List UInt8) × List UInt8 :=
  let spare := size - waiting.length
  if piece.length < spare then ([], waiting ++ piece)
  else
    let (passed, waiting) := if spare < piece.length then ([waiting], []) else ([], waiting)
    if size ≤ piece.length then (passed ++ [piece], waiting) else (passed, waiting ++ piece)

/-- Some `bytes` up to the end of the last line in them, and what is behind it. -/
def cutLines (bytes : List UInt8) : List UInt8 × List UInt8 :=
  ((bytes.reverse.dropWhile (· ≠ lineEnd)).reverse, (bytes.reverse.takeWhile (· ≠ lineEnd)).reverse)

/-- **What passed the buffer**, on its way to the end. Lines that are complete reach it; the beginning
of a `line` waits. -/
def pass (sink : Sink) (piece : List UInt8) : Sink :=
  if !sink.isLined then { sink with through := sink.through ++ sink.line ++ piece, line := [] }
  else
    let (lines, rest) := cutLines piece
    let (through, line) :=
      if lines.isEmpty then (sink.through, sink.line) else (sink.through ++ sink.line ++ lines, [])
    let (passed, line) := buffered lineCapacity line rest
    { sink with through := through ++ passed.flatten, line }

/-- **One more piece.** -/
def write (sink : Sink) (piece : List UInt8) : Sink :=
  let (passed, buffer) := buffered capacity sink.buffer piece
  { passed.foldl pass sink with buffer }

/-- Nothing is lost in a buffer. -/
theorem flatten_buffered (size : Nat) (positive : 0 < size) (waiting piece : List UInt8) :
    (buffered size waiting piece).1.flatten ++ (buffered size waiting piece).2 = waiting ++ piece := by
  unfold buffered
  by_cases fitting : piece.length < size - waiting.length
  · simp [fitting]
  · by_cases larger : size - waiting.length < piece.length
    · by_cases big : size ≤ piece.length <;> simp [fitting, larger, big]
    · by_cases big : size ≤ piece.length
      · have nothing : waiting = [] := List.eq_nil_of_length_eq_zero (by omega)
        simp only [nothing, List.length_nil, Nat.sub_zero] at fitting larger
        simp [nothing, fitting, larger, big]
      · simp [fitting, larger, big]

/-- Nothing is lost where lines are cut off. -/
theorem append_cutLines (bytes : List UInt8) : (cutLines bytes).1 ++ (cutLines bytes).2 = bytes := by
  rw [cutLines, ← List.reverse_append, List.takeWhile_append_dropWhile, List.reverse_reverse]

/-- **What passed the buffer** is behind what was written before, whether it waits or not. -/
theorem through_append_line_pass (sink : Sink) (piece : List UInt8) :
    (sink.pass piece).through ++ (sink.pass piece).line = sink.through ++ sink.line ++ piece := by
  have kept (line rest : List UInt8) := flatten_buffered lineCapacity (by decide) line rest
  unfold pass
  cases sink.isLined with
  | false => simp
  | true =>
    have whole := append_cutLines piece
    by_cases unended : (cutLines piece).1 = []
    · rw [unended, List.nil_append] at whole
      simp only [Bool.not_true, Bool.false_eq_true, if_false, unended, List.isEmpty_nil, if_true]
      rw [List.append_assoc, kept, whole, List.append_assoc]
    · simp only [Bool.not_true, Bool.false_eq_true, if_false, List.isEmpty_iff, unended]
      rw [List.append_assoc, kept, List.nil_append, List.append_assoc, whole]

/-- What has reached the end stays in front. -/
theorem through_prefix_pass (sink : Sink) (piece : List UInt8) :
    sink.through <+: (sink.pass piece).through := by
  unfold pass
  dsimp only
  split
  · exact ⟨_, (List.append_assoc ..).symm⟩
  · split <;> simp [List.append_assoc]

/-- **Pieces that passed the buffer** are behind what was written before, and what has reached the end
stays in front. -/
theorem foldl_pass (sink : Sink) (pieces : List (List UInt8)) :
    (pieces.foldl pass sink).through ++ (pieces.foldl pass sink).line =
        sink.through ++ sink.line ++ pieces.flatten ∧
      sink.through <+: (pieces.foldl pass sink).through := by
  induction pieces generalizing sink with
  | nil => exact ⟨by simp, List.prefix_refl _⟩
  | cons piece rest ih =>
    obtain ⟨all, front⟩ := ih (sink.pass piece)
    rw [through_append_line_pass, List.append_assoc] at all
    exact ⟨all, (through_prefix_pass sink piece).trans front⟩

/-- **Nothing is lost in a sink.** -/
theorem total_write (sink : Sink) (piece : List UInt8) :
    (sink.write piece).total = sink.total ++ piece := by
  have kept := flatten_buffered capacity (by decide) sink.buffer piece
  rw [total, write]
  dsimp only
  rw [(foldl_pass ..).1, List.append_assoc, kept, total, ← List.append_assoc]

/-- **Nothing that has reached the end is taken back.** -/
theorem through_prefix_write (sink : Sink) (piece : List UInt8) :
    sink.through <+: (sink.write piece).through :=
  (foldl_pass sink _).2

/-- What has reached the end is the beginning of what was written. -/
theorem through_prefix_total (sink : Sink) : sink.through <+: sink.total :=
  ⟨sink.line ++ sink.buffer, (List.append_assoc ..).symm⟩

end Sink

end ScriptBundle
